import BindingRules.Main
import BindingRules.Name.Cover
import BindingRules.Proofs.AdjacencyTable
import BindingRules.Proofs.Agenda
import BindingRules.Proofs.BaseNames
import BindingRules.Proofs.CanonicalLine
import BindingRules.Proofs.Component
import BindingRules.Proofs.Conservation
import BindingRules.Proofs.CycleBreaking
import BindingRules.Proofs.CycleCoverage
import BindingRules.Proofs.CycleOrder
import BindingRules.Proofs.DependencyGraph
import BindingRules.Proofs.DepthFirst
import BindingRules.Proofs.DigestText
import BindingRules.Proofs.EnclosingScope
import BindingRules.Proofs.Explanations
import BindingRules.Proofs.GuardTable
import BindingRules.Proofs.InputOrder
import BindingRules.Proofs.KeyLookup
import BindingRules.Proofs.KnownModules
import BindingRules.Proofs.KnownTargets
import BindingRules.Proofs.Kosaraju
import BindingRules.Proofs.LaterRules
import BindingRules.Proofs.LineIdentity
import BindingRules.Proofs.MemberExclusion
import BindingRules.Proofs.NameCuts
import BindingRules.Proofs.NameKeys
import BindingRules.Proofs.OtherPlatforms
import BindingRules.Proofs.Overloads
import BindingRules.Proofs.Path
import BindingRules.Proofs.PlainOrder
import BindingRules.Proofs.Positions
import BindingRules.Proofs.PriorityOrder
import BindingRules.Proofs.Reachability
import BindingRules.Proofs.RemarkInvariance
import BindingRules.Proofs.Requirements
import BindingRules.Proofs.Schedule
import BindingRules.Proofs.ShellPattern
import BindingRules.Proofs.ShortestPath
import BindingRules.Proofs.SingleDirective
import BindingRules.Proofs.Spelling
import BindingRules.Proofs.StoreHistory
import BindingRules.Proofs.StrictOrder
import BindingRules.Proofs.Strictness
import BindingRules.Proofs.SummaryAnswers
import BindingRules.Proofs.SymbolOrder
import BindingRules.Proofs.Verbatim
