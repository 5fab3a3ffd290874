import Metamorph.Diagnostic.Details
import Metamorph.Fault
import Metamorph.Text.Casing
import Metamorph.Value.Equality

/-! Operations that the host supplies: functions on values that may fail. Beside the type stands a
small stock of them. -/
namespace Metamorph

/-- `run` is given the way in which values are cited in messages, if they can be. -/
structure Native where
  callable : Bool := true
  run : (Value → Result String) → List Value → Result Value

namespace Native

def failing {α : Type} (kind text : String) : Result α := .error (.host ⟨kind, text⟩)

def uncallable : Native where
  callable := false
  run _ _ := failing "TypeError" "'int' object is not callable"

def shout : Native where
  run _ args := match args with
    | [.string s] => .ok (.string (String.ofList (Text.upper s.toList ++ ['!'])))
    | _ => failing "ValueError" "shout needs one String"

def first : Native where
  run _ args := match args with
    | v :: _ => .ok v
    | [] => failing "ValueError" "first needs an argument"

def gone : Native where
  run _ _ := failing "OSError" "gone"

def count : Native where
  run _ args := .ok (.integer args.length)

def list : Native where
  run _ args := .ok (.listed args)

def single : Native where
  run _ args := match args with
    | [] => .ok (.collectionOf .set [])
    | .list _ _ :: _ => failing "TypeError" "unhashable type: 'list'"
    | v :: _ => .ok (.collectionOf .set [v])

def nothing : Native where
  run _ _ := .ok .undefined

def explode : Native where
  run _ _ := failing "RuntimeError" "disk on fire"

def missingKey : Native where
  run cite args := do .error (.host (← HostFailure.ofArguments cite "KeyError" (args.take 1)))

def silent : Native where
  run _ _ := failing "ValueError" ""

def mismatched : Native where
  run _ _ := .error (.typeMismatch "Weird" "Odd" "native")

/-- The stock by name. What answers at once and what answers later are not told apart. -/
def stock : Named Native :=
  [("shout", shout), ("first", first), ("later", first), ("laterfail", gone), ("count", count),
    ("list", list), ("tup", list), ("set1", single), ("fset1", single), ("nothing", nothing),
    ("explode", explode), ("keyerr", missingKey), ("emptymsg", silent), ("atlfail", mismatched),
    ("notcallable", uncallable)]

end Native

end Metamorph
