set_option autoImplicit false

/-!
# YAML documents

Configurations and generation inputs may be given in YAML. Of how a node is written only its tag is
kept, and of a scalar whether it is plain, since both decide what the text of the scalar means.

## Main definitions

* `Yaml` — the nodes of a document.
* `Yaml.empty` — the node that stands where nothing is written.
* `Yaml.setTag` — a node with another tag.
* `Yaml.isLocalTag` — the tags that are a document's own.
-/

namespace BindingRules

/-- A node of a document. -/
inductive Yaml where
  /-- A text; it is plain if it stands without quotes and is not set in a block of its own. -/
  | scalar (tag : Option String) (text : String) (plain : Bool)
  /-- Nodes in a row. -/
  | sequence (tag : Option String) (items : List Yaml)
  /-- Pairs of keys and values, in their order. -/
  | mapping (tag : Option String) (entries : List (Yaml × Yaml))
  deriving Inhabited

namespace Yaml

/-- The node that stands where nothing is written. -/
def empty : Yaml := scalar none "" true

/-- A node with a tag in place of its own. -/
def setTag (tag : Option String) : Yaml → Yaml
  | scalar _ text plain => scalar tag text plain
  | sequence _ items => sequence tag items
  | mapping _ entries => mapping tag entries

/-- Whether a tag is a document's own: one that does not name a type of the format. -/
def isLocalTag (tag : String) : Bool := tag.startsWith "!"

end Yaml

end BindingRules
