import Metamorph.Number.Decimal
import Metamorph.Text.Quoted
import Metamorph.Value

/-! The text of a value: as `toString` gives it, and as messages cite it, where texts are quoted.
The texts of objects come from outside. -/
namespace Metamorph

def digitsOfText : Nat := 4300

def partText (x : Float) : String := String.ofList (Number.realChars false x)

/-- The imaginary part carries its sign; a real part that is plain zero is left out. -/
def complexText (re im : Float) : String :=
  if re.toBits = 0 then partText im ++ "j"
  else
    let plus := if (partText im).startsWith "-" then "" else "+"
    "(" ++ partText re ++ plus ++ partText im ++ "j)"

mutual

def Value.render (label : Handle → String) (cited : Bool) : Value → String
  | .undefined => if cited then "None" else "OclUndefined"
  | .boolean b =>
    if cited then (if b then "True" else "False") else (if b then "true" else "false")
  | .integer n => toString n
  | .real x => Number.realText x
  | .complex _ re im => complexText re im
  | .string s => if cited then Text.quoted s else s
  | .collection kind items =>
    kind.text ++ "\x7b" ++ ", ".intercalate (renderAll label false items) ++ "\x7d"
  | .tuple fields => "Tuple\x7b" ++ ", ".intercalate (renderFields label fields) ++ "\x7d"
  | .type name => name
  | .list _ items => "[" ++ ", ".intercalate (renderAll label true items) ++ "]"
  | .object h => label h
  | .thisModule name => "<thisModule " ++ name.getD "<none>" ++ ">"

def renderAll (label : Handle → String) (cited : Bool) : List Value → List String
  | [] => []
  | v :: rest => v.render label cited :: renderAll label cited rest

def renderFields (label : Handle → String) : List (String × Value) → List String
  | [] => []
  | (name, v) :: rest => (name ++ " = " ++ v.render label false) :: renderFields label rest

end

mutual

/-- Whether an Integer in the value has too many digits for a text. -/
def Value.isOverlong : Value → Bool
  | .integer n => Nat.pow 10 digitsOfText ≤ n.natAbs
  | .collection _ items => anyOverlong items
  | .list _ items => anyOverlong items
  | .tuple fields => anyFieldOverlong fields
  | _ => false

def anyOverlong : List Value → Bool
  | [] => false
  | v :: rest => v.isOverlong || anyOverlong rest

def anyFieldOverlong : List (String × Value) → Bool
  | [] => false
  | (_, v) :: rest => v.isOverlong || anyFieldOverlong rest

end

end Metamorph
