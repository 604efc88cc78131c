import BindingRules.Graph.Coverage
import BindingRules.Text.Lowercase
import BindingRules.Text.Split

set_option autoImplicit false

/-!
# The generation order

A module is generated behind everything it needs along edges without guards. Among the modules
that may come next, those with a priority come first, the lowest priority before the others, and
equal ones in the order of their names in small letters. What a module with a priority needs
inherits that priority.

If cycles leave no module that may come next, one member of such a cycle is forced: the one that
the rules mention first, of those cycles that wait for nothing else.

## Main definitions

* `Ranking` — priorities and mentions of modules.
* `OrderingConflict`, `Graph.conflicts` — priorities that contradict dependencies.
* `Graph.effectivePriorities` — the priorities that modules have or inherit.
* `Graph.Agenda` — which modules may come next, and how many others each one waits for.
* `ModuleOrder`, `Graph.order` — the generation order.
* `SymbolRule`, `orderSymbols` — the order of the symbols inside a module.
-/

namespace BindingRules

/-- What the rules say about the places of modules. -/
structure Ranking where
  /-- The priority of a module; the lower one comes first. -/
  priority : String → Option Int
  /-- The position of the first directive that mentions a module. -/
  mention : String → Option Nat

/-- A module with a priority that needs one with a greater priority. -/
structure OrderingConflict where
  /-- The module that needs the other one. -/
  dependent : String
  /-- The module that is needed. -/
  dependency : String
  /-- The priority of the first. -/
  dependentPriority : Int
  /-- The priority of the second. -/
  dependencyPriority : Int
  deriving DecidableEq, Repr

namespace OrderingConflict

/-- The wording of the complaint. -/
def message (c : OrderingConflict) : String :=
  "ordering conflict: " ++ c.dependent ++ " (priority " ++ toString c.dependentPriority ++
    ") requires " ++ c.dependency ++ " (priority " ++ toString c.dependencyPriority ++ ")"

/-- The complaint as a diagnostic. -/
def diagnostic (c : OrderingConflict) (severity : Severity) : Diagnostic :=
  { severity, kind := .orderingConflict, message := c.message }

end OrderingConflict

/-- The generation order with what was noticed on the way. -/
structure ModuleOrder where
  /-- All modules, each of them once. -/
  order : List String
  /-- Priorities that contradict dependencies. -/
  conflicts : List OrderingConflict
  /-- The modules that come before something they need. -/
  forced : List String
  deriving DecidableEq, Repr

namespace Graph

/-- What is reached from the modules on a stack, without `root` and without what is in `seen`, in
the order in which a depth first search from the top of the stack finds it. Each of the given
number of steps takes one module from the stack. -/
def unstack (next : String → List String) (root : String) :
    (steps : Nat) → (seen stack : List String) → List String
  | 0, _, _ => []
  | _, _, [] => []
  | steps + 1, seen, m :: stack =>
    if m = root ∨ m ∈ seen then unstack next root steps seen stack
    else m :: unstack next root steps (m :: seen) ((next m).reverse ++ stack)

/-- What a module needs, directly or through others, without itself. -/
def requirements (g : Graph) (m : String) : List String :=
  unstack g.dependencies m (g.edges.length + 1) [] (g.dependencies m).reverse

/-- The modules of the graph that have a priority, with it, in increasing order. -/
def prioritized (g : Graph) (r : Ranking) : List (String × Int) :=
  g.modules.filterMap fun m => (r.priority m).map (m, ·)

/-- The contradictions between the priority `p` of `m` and those of what it needs. -/
def conflictsOf (g : Graph) (r : Ranking) (m : String) (p : Int) : List OrderingConflict :=
  (g.requirements m).filterMap fun d =>
    (r.priority d).bind fun q => if p < q then some ⟨m, d, p, q⟩ else none

/-- All contradictions between priorities and dependencies. -/
def conflicts (g : Graph) (r : Ranking) : List OrderingConflict :=
  (g.prioritized r).flatMap fun (m, p) => g.conflictsOf r m p

/-- Gives a module the priority `p`, unless it has a lesser one. -/
def lower (p : Int) (priorities : Table String Int) (m : String) : Table String Int :=
  priorities.insert m (min ((priorities.get? m).getD p) p)

/-- The priorities of the modules: what a module with a priority needs, directly or through others,
inherits it if it is the least one. -/
def effectivePriorities (g : Graph) (r : Ranking) : Table String Int :=
  let own := (g.prioritized r).foldl (fun priorities (m, p) => priorities.insert m p) .empty
  (g.prioritized r).foldl (fun priorities (m, p) => (g.requirements m).foldl (lower p) priorities)
    own

/-- The rank of a module among those that may come next. -/
structure Rank where
  /-- The effective priority. -/
  priority : Option Int
  /-- The name in small letters. -/
  folded : String
  /-- The name. -/
  name : String

/-- Whether `a` comes before `b` by name: in small letters, then as it is written. -/
def Rank.nameLt (a b : Rank) : Bool := pairLt (a.folded, a.name) (b.folded, b.name)

/-- Whether a module of the first rank comes before one of the second. -/
def Rank.lt (a b : Rank) : Bool :=
  match a.priority, b.priority with
  | some p, some q => decide (p < q) || (p == q && a.nameLt b)
  | some _, none => true
  | none, some _ => false
  | none, none => a.nameLt b

/-- With two priorities, the lesser one comes first, and equal ones go by name. -/
theorem Rank.lt_iff_of_some {a b : Rank} {p q : Int} (ha : a.priority = some p)
    (hb : b.priority = some q) : a.lt b = true ↔ p < q ∨ p = q ∧ a.nameLt b = true := by
  simp [lt, ha, hb]

/-- The order of ranks is strict and total. -/
theorem Rank.strictTotal_lt : StrictTotal Rank.lt where
  irrefl a := by
    have hname : a.nameLt a = false := strictTotal_pairLt.irrefl _
    cases ha : a.priority <;> simp [lt, ha, hname]
  trans {a b c} hab hbc := by
    cases ha : a.priority <;> cases hb : b.priority <;> cases hc : c.priority
    case some.some.some p q r =>
      rw [lt_iff_of_some ha hb] at hab
      rw [lt_iff_of_some hb hc] at hbc
      rw [lt_iff_of_some ha hc]
      rcases hab with hab | ⟨rfl, hab⟩ <;> rcases hbc with hbc | ⟨rfl, hbc⟩
      · exact .inl (Int.lt_trans hab hbc)
      · exact .inl hab
      · exact .inl hbc
      · exact .inr ⟨rfl, strictTotal_pairLt.trans hab hbc⟩
    case none.none.none =>
      simp only [lt, ha, hb, hc] at *
      exact strictTotal_pairLt.trans hab hbc
    all_goals simp [lt, ha, hb, hc] at *
  eq_of_not_lt {a b} hab hba := by
    have hnames : a.nameLt b = false → b.nameLt a = false → a.priority = b.priority → a = b := by
      intro hab hba hpriority
      obtain ⟨hfolded, hname⟩ := Prod.mk.inj (strictTotal_pairLt.eq_of_not_lt hab hba)
      cases a
      cases b
      simp_all
    cases ha : a.priority <;> cases hb : b.priority
    case some.some p q =>
      simp only [lt, ha, hb, Bool.or_eq_false_iff, decide_eq_false_iff_not] at hab hba
      have hpq : p = q := by omega
      subst hpq
      exact hnames (by simpa using hab.2) (by simpa using hba.2) (ha.trans hb.symm)
    case none.none =>
      simp only [lt, ha, hb] at hab hba
      exact hnames hab hba (ha.trans hb.symm)
    all_goals simp [lt, ha, hb] at hab hba

/-- The mention of a module that the rules do not mention: behind all others. -/
def unmentioned : Nat := 18446744073709551615

/-- Whether `a` is forced before `b`: it is mentioned earlier, or has the lesser name. -/
def forcedBefore (r : Ranking) (a b : String) : Bool :=
  let i := (r.mention a).getD unmentioned
  let j := (r.mention b).getD unmentioned
  decide (i < j) || (i == j && textLt a b)

/-- The components with several members of which no member needs anything outside. -/
def closedCycles (g : Graph) : List (List String) :=
  g.components.filter fun c =>
    1 < c.length && c.all fun m => (g.dependencies m).all c.contains

/-- The module to force when no module may come next, of the graph that is left. -/
def cycleEntry (g : Graph) (r : Ranking) : Option String :=
  leastBy? (forcedBefore r) g.closedCycles.flatten

/-- The edges between modules that are not in `emitted`. -/
def rest (g : Graph) (emitted : List String) : Graph :=
  g.filterEdges fun e => !emitted.contains e.source && !emitted.contains e.target

/-- The rank of a module. -/
def rankOf (priorities : Table String Int) (m : String) : Rank :=
  ⟨priorities.get? m, Text.lowercase m, m⟩

/-- What is still to be placed. -/
structure Agenda where
  /-- For each module, how many of the modules it needs are not placed yet. -/
  pending : Table String Nat
  /-- The modules that may come next, the first one in front. -/
  ready : List Rank

/-- The agenda when no module is placed. -/
def agenda (g : Graph) (rank : String → Rank) : Agenda where
  pending := g.modules.foldl (fun t m => t.insert m (g.dependencies m).length) .empty
  ready := Sorted.ofList Rank.lt
    ((g.modules.filter fun m => (g.dependencies m).isEmpty).map rank)

/-- The agenda after a module has one module less to wait for. It may come next if it waits for no
other one and is not among those in `emitted`. -/
def Agenda.release (rank : String → Rank) (emitted : List String) (a : Agenda) (m : String) :
    Agenda :=
  match a.pending.get? m with
  | none => a
  | some count =>
    { pending := a.pending.insert m (count - 1)
      ready :=
        if count - 1 = 0 ∧ m ∉ emitted then Sorted.insert Rank.lt (rank m) a.ready else a.ready }

/-- The agenda after a module has been placed, behind those in `emitted`. -/
def Agenda.place (g : Graph) (rank : String → Rank) (emitted : List String) (a : Agenda)
    (m : String) : Agenda :=
  (g.dependents m).foldl (Agenda.release rank (m :: emitted)) a

/-- The modules that come behind those in `emitted`, at most as many as `count`, and whether each
of them is forced. -/
def schedule (g : Graph) (r : Ranking) (rank : String → Rank) :
    (count : Nat) → (emitted : List String) → Agenda → List (String × Bool)
  | 0, _, _ => []
  | count + 1, emitted, a =>
    match a.ready with
    | k :: ready =>
      (k.name, false) :: schedule g r rank count (k.name :: emitted)
        (Agenda.place g rank emitted { a with ready } k.name)
    | [] =>
      match (g.rest emitted).cycleEntry r with
      | some m =>
        (m, true) :: schedule g r rank count (m :: emitted) (Agenda.place g rank emitted a m)
      | none => []

/-- The generation order of a graph of which all edges count. -/
def orderUnguarded (g : Graph) (r : Ranking) : ModuleOrder :=
  let rank := rankOf (g.effectivePriorities r)
  let steps := g.schedule r rank g.modules.length [] (g.agenda rank)
  { order := steps.map (·.1)
    conflicts := g.conflicts r
    forced := (steps.filter (·.2)).map (·.1) }

/-- The generation order of a graph of which the edges with guards do not count. -/
def order (g : Graph) (guards : Guards) (r : Ranking) : ModuleOrder :=
  (g.unguarded guards).orderUnguarded r

end Graph

/-- A priority for the symbols that contain a text. -/
structure SymbolRule where
  /-- The text. -/
  pattern : String
  /-- The priority; the lower one comes first. -/
  priority : Int
  deriving DecidableEq, Repr

/-- The priority of a symbol: that of the last rule whose text it contains. -/
def symbolPriority (rules : List SymbolRule) (default : Int) (symbol : String) : Int :=
  ((rules.reverse.find? fun r => Text.occursIn r.pattern.toList symbol.toList).map
    SymbolRule.priority).getD default

/-- Symbols in the order of their priorities. Those with equal priorities keep their order. -/
def orderSymbols (rules : List SymbolRule) (default : Int) (symbols : List String) :
    List String :=
  symbols.mergeSort fun a b =>
    decide (symbolPriority rules default a ≤ symbolPriority rules default b)

end BindingRules
