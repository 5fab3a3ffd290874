import Metamorph.Diagnostic.Record
import Metamorph.Engine.LazyScript
import Metamorph.Engine.Pipeline
import Metamorph.Expr.Printer
import Metamorph.Proofs.LastWrite
import Metamorph.Proofs.LaterCalls
import Metamorph.Proofs.Making
import Metamorph.Proofs.Creation
import Metamorph.Proofs.FailedFilling
import Metamorph.Proofs.Frame
import Metamorph.Proofs.TraceInverse
import Metamorph.Proofs.Replay
import Metamorph.Proofs.Bearing
import Metamorph.Proofs.PhaseOrder
import Metamorph.Proofs.Nesting
import Metamorph.Proofs.Selection
import Metamorph.Proofs.Walk
import Metamorph.Proofs.WalkEnd
import Metamorph.Proofs.Tally
import Metamorph.Proofs.Accounts
import Metamorph.Proofs.Approximation
import Metamorph.Proofs.RuleRecursion
import Metamorph.Proofs.LexicalScope
import Metamorph.Proofs.RuleNesting
import Metamorph.Proofs.ScopeStack
import Metamorph.Proofs.StackDiscipline
import Metamorph.Proofs.Keys
import Metamorph.Proofs.Correspondence
import Metamorph.Proofs.SortingMap
import Metamorph.Proofs.Naturality
import Metamorph.Proofs.Discretion
import Metamorph.Proofs.Twin
import Metamorph.Proofs.Sight
import Metamorph.Proofs.Leading
import Metamorph.Proofs.Following
import Metamorph.Proofs.Table
import Metamorph.Proofs.Keeping
import Metamorph.Proofs.Choosing
import Metamorph.Proofs.Refusal
import Metamorph.Proofs.Stock
import Metamorph.Proofs.Scheduling
import Metamorph.Proofs.NearestRule
import Metamorph.Proofs.StructuralEquality
import Metamorph.Proofs.SortingPermutation
import Metamorph.Proofs.Norm
import Metamorph.Proofs.Standard
import Metamorph.Proofs.Upholding
import Metamorph.Proofs.RuleUpholding
import Metamorph.Proofs.PhaseUpholding
import Metamorph.Proofs.Unrepeated
import Metamorph.Proofs.Coupling
import Metamorph.Proofs.Assigning
import Metamorph.Proofs.ImplicitResolution
import Metamorph.Proofs.Completion
import Metamorph.Proofs.Founding
import Metamorph.Proofs.Likeness
import Metamorph.Proofs.Counterparts
import Metamorph.Proofs.Filling
import Metamorph.Proofs.Rearrangement
import Metamorph.Proofs.OrderIndependence
import Metamorph.Proofs.TargetSelection
import Metamorph.Proofs.OwnVariables
import Metamorph.Proofs.Readings
import Metamorph.Proofs.RealFree
import Metamorph.Proofs.Reporting
import Metamorph.Proofs.SafeRules
import Metamorph.Proofs.SafeEvaluation
import Metamorph.Proofs.Arrival
import Metamorph.Proofs.TypeTests
import Metamorph.Proofs.Relocation
import Metamorph.Proofs.Mirror
import Metamorph.Proofs.Mirroring
import Metamorph.Proofs.Pinpointing
import Metamorph.Proofs.BodyRelation
import Metamorph.Proofs.Multiplicity
import Metamorph.Proofs.SetAlgebra
import Metamorph.Proofs.ValueOrder
import Metamorph.Proofs.StableSort
import Metamorph.Proofs.IteratorCoherence
import Metamorph.Proofs.SurfaceForms
import Metamorph.Proofs.Ancestry
import Metamorph.Proofs.Elements
import Metamorph.Proofs.RoundTrip
import Metamorph.Proofs.Registry
import Metamorph.Proofs.Dispatch
import Metamorph.Proofs.Comparison
import Metamorph.Proofs.IntegerDivision
import Metamorph.Proofs.NearestDouble
import Metamorph.Proofs.DoubleSum
import Metamorph.Proofs.Rounding
import Metamorph.Proofs.Flattening
import Metamorph.Proofs.IntegerText
import Metamorph.Proofs.Substrings
import Metamorph.Proofs.Summation
import Metamorph.Proofs.Inheritance
import Metamorph.Proofs.Conversion
import Metamorph.Proofs.FrameStack
import Metamorph.Proofs.ReadBack
