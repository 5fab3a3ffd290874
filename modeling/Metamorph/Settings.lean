import Metamorph.Program.Native
import Metamorph.Text.Identifier
import Metamorph.Text.Quoted

/-! Settings of a run. -/
namespace Metamorph

/-- `implicitResolution`: source objects assigned to target features are replaced by the first
target of their matched rule. `defaultIterator`: the name an iterator has when none is given.
`depthLimit`: how deep lazy and called rules may nest. -/
structure Settings where
  implicitResolution : Bool := true
  defaultIterator : String := "it"
  depthLimit : Int := 200
  recordPhases : Bool := true
  natives : Named Native := []

/-- Settings that will hardly be meant. -/
def Settings.warnings (s : Settings) : List String :=
  let iterator := "default_iterator " ++ Text.quoted s.defaultIterator
  (if s.depthLimit ≤ 0 then ["max_lazy_depth must be positive"] else []) ++
  (if Text.isIdentifier s.defaultIterator then [] else [iterator ++ " is not an identifier"]) ++
  (if s.defaultIterator = "self" || s.defaultIterator = "thisModule" then
    [iterator ++ " shadows a reserved name"] else []) ++
  (s.natives.filter (!·.2.callable)).map fun entry =>
    "native helper " ++ Text.quoted entry.1 ++ " is not callable"

/-- The settings by name; of the native operations the names alone. -/
def Settings.record (s : Settings) : Named Value :=
  [("implicit_resolution", .boolean s.implicitResolution),
    ("default_iterator", .string s.defaultIterator), ("max_lazy_depth", .integer s.depthLimit),
    ("record_phase_times", .boolean s.recordPhases),
    ("native_helpers", .listed ((sortedNames s.natives.names).map .string))]

end Metamorph
