import Metamorph.Collection.Algebra
import Metamorph.Number.Reading
import Metamorph.Text.Casing
import Metamorph.Text.Occurrence
import Metamorph.Text.Quoted

/-! Operations on texts. Positions count characters from one. -/
namespace Metamorph.Operation
open Metamorph.Text

inductive OnText where
  | size | concat | toUpper | toLower | firstToUpper | firstToLower | trim | substring | indexOf
  | startsWith | endsWith | toInteger | toReal | toSequence

namespace OnText

def all : List OnText :=
  [size, concat, toUpper, toLower, firstToUpper, firstToLower, trim, substring, indexOf,
    startsWith, endsWith, toInteger, toReal, toSequence]

def text : OnText → String
  | size => "size"
  | concat => "concat"
  | toUpper => "toUpper"
  | toLower => "toLower"
  | firstToUpper => "firstToUpper"
  | firstToLower => "firstToLower"
  | trim => "trim"
  | substring => "substring"
  | indexOf => "indexOf"
  | startsWith => "startsWith"
  | endsWith => "endsWith"
  | toInteger => "toInteger"
  | toReal => "toReal"
  | toSequence => "toSequence"

def named? (name : String) : Option OnText := all.find? (·.text == name)

def arity : OnText → Nat
  | substring => 2
  | concat | indexOf | startsWith | endsWith => 1
  | _ => 0

end OnText

/-- The characters from one position to another, both included. The range may be empty but has to
lie within the text. -/
def slice? (s : String) (lower upper : Int) : Option String :=
  if lower < 1 ∨ s.length < upper ∨ upper + 1 < lower then none
  else some ((s.drop (lower - 1).toNat).take (upper + 1 - lower).toNat).copy

/-- The position of the first occurrence, zero if there is none. -/
def indexIn (t s : String) : Nat :=
  match occurrence? t s with
  | some n => n + 1
  | none => 0

/-- A text changed as a row of characters. -/
def changed (change : List Char → List Char) (s : String) : Value :=
  .string (String.ofList (change s.toList))

def substring (s : String) (lower upper : Int) : Result Value :=
  match slice? s lower upper with
  | some part => .ok (.string part)
  | none => do
    .error (.unsupported "substring" ("range " ++ (← Collection.indexText lower) ++ ".." ++
      (← Collection.indexText upper) ++ " outside 1.." ++ toString s.length))

def requireText (typeOf : Value → String) (op : String) : Value → Result String
  | .string s => .ok s
  | v => .error (.typeMismatch "String" (typeOf v) (inQuotes op))

def requireInteger (typeOf : Value → String) (op : String) : Value → Result Int
  | .integer n => .ok n
  | v => .error (.typeMismatch "Integer" (typeOf v) (inQuotes op))

/-- A literal is read or refused with the text it was read from. -/
def readLiteral (op : OnText) (expected s : String) (read : Option Value) :
    Result Value :=
  match read with
  | some v => .ok v
  | none =>
    .error (.typeMismatch expected (quoted s) (inQuotes op.text))

def onText (typeOf : Value → String) (op : OnText) (text : String) (args : List Value) :
    Result Value :=
  match op, args with
  | .size, [] => .ok (.integer text.length)
  | .concat, [t] => do .ok (.string (text ++ (← requireText typeOf op.text t)))
  | .toUpper, [] => .ok (changed upper text)
  | .toLower, [] => .ok (changed lower text)
  | .firstToUpper, [] => .ok (changed (fun s => upper (s.take 1) ++ s.drop 1) text)
  | .firstToLower, [] => .ok (changed (fun s => lower (s.take 1) ++ s.drop 1) text)
  | .trim, [] => .ok (changed trimmed text)
  | .substring, [low, high] => do
    substring text (← requireInteger typeOf op.text low) (← requireInteger typeOf op.text high)
  | .indexOf, [t] => do .ok (.integer (indexIn (← requireText typeOf op.text t) text))
  | .startsWith, [t] => do .ok (.boolean (text.startsWith (← requireText typeOf op.text t)))
  | .endsWith, [t] => do .ok (.boolean (text.endsWith (← requireText typeOf op.text t)))
  | .toInteger, [] =>
    readLiteral op "Integer literal" text ((Number.readInteger text.toList).map .integer)
  | .toReal, [] => readLiteral op "Real literal" text ((Number.readReal text.toList).map .real)
  | .toSequence, [] => .ok (.sequence (text.toList.map fun c => .string c.toString))
  | op, args => .error (.arity op.text op.arity args.length)

end Metamorph.Operation
