import Metamorph.Program.Native
import Metamorph.Program.Rule
import Metamorph.Text.Quoted

/-! Helpers by name: those of the module, those of a context type, and native operations. A context
helper is chosen by the type of its receiver, the nearest context winning. -/
namespace Metamorph

structure HelperTable where
  module : Named Helper := []
  contextual : Named (List Helper) := []
  natives : Named Native := []

namespace HelperTable

/-- Helpers without a context have names of their own. -/
def add (table : HelperTable) (h : Helper) : Result HelperTable :=
  match h.context with
  | none =>
    if table.module.has h.name then .error (.of (.duplicateDefinition h.name "helper"))
    else .ok { table with module := table.module.set h.name h }
  | some _ =>
    let others := (table.contextual.get? h.name).getD []
    .ok { table with contextual := table.contextual.set h.name (others ++ [h]) }

def build (helpers : List Helper) (natives : Named Native) : Result HelperTable :=
  helpers.foldlM add { natives }

/-- The distance from a type to the context of a helper. -/
def distance? (ancestry : Named Nat) (h : Helper) : Option Nat :=
  ancestry.get? (className (h.context.getD ""))

/-- The first of the helpers at the least distance, after one already found. -/
def nearest (ancestry : Named Nat) : Option (Helper × Nat) → List Helper → Option Helper
  | best, [] => best.map (·.1)
  | best, h :: rest =>
    match distance? ancestry h with
    | none => nearest ancestry best rest
    | some d =>
      if best.all (d < ·.2) then nearest ancestry (some (h, d)) rest
      else nearest ancestry best rest

/-- The helper for a receiver of the given ancestry, among attributes only, operations only or all.
-/
def lookup (table : HelperTable) (name : String) (ancestry : Named Nat)
    (isAttribute : Option Bool) : Option Helper :=
  nearest ancestry none
    (((table.contextual.get? name).getD []).filter fun h => isAttribute.all (h.isAttribute == ·))

def has (table : HelperTable) (name : String) : Bool :=
  table.module.has name || table.contextual.has name || table.natives.has name

def size (table : HelperTable) : Nat :=
  table.module.length + (table.contextual.flatMap (·.2)).length + table.natives.length

def text (table : HelperTable) : String :=
  let names := fun {α : Type} (part : Named α) => Text.quotedList (sortedNames part.names)
  "HelperTable(module=" ++ names table.module ++ ", contextual=" ++ names table.contextual ++
    ", native=" ++ names table.natives ++ ")"

end HelperTable

end Metamorph
