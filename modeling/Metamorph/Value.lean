import Metamorph.Collection.Kind
import Metamorph.Expr

/-! The values that expressions have. -/
namespace Metamorph

/-- Names an object of a store. -/
abbrev Handle := Nat

/-- Tells apart values that equal nothing but themselves. -/
abbrev Identity := Nat

/-- `list` is a many-valued feature as an object stores it, `complex` the power of a negative number
to a fraction, `thisModule` the running module, nameless outside a transformation. -/
inductive Value where
  | undefined
  | boolean (b : Bool)
  | integer (n : Int)
  | real (x : Float)
  | complex (identity : Identity) (re im : Float)
  | string (s : String)
  | collection (kind : CollectionKind) (items : List Value)
  | tuple (fields : List (String × Value))
  | type (name : String)
  | list (identity : Identity) (items : List Value)
  | object (handle : Handle)
  | thisModule (name : Option String)

def Literal.value : Literal → Value
  | .undefined => .undefined
  | .boolean b => .boolean b
  | .integer n => .integer n
  | .real x => .real x
  | .string s => .string s

/-- A qualified type name is cut at its first exclamation mark. -/
def splitTypeName (name : String) : Option String × String :=
  let chars := name.toList
  let qualifier := chars.takeWhile (· != '!')
  match chars.dropWhile (· != '!') with
  | [] => (none, name)
  | _ :: cls => (some (String.ofList qualifier), String.ofList cls)

def className (name : String) : String := (splitTypeName name).2

namespace Value

def isNumber : Value → Bool
  | integer _ | real _ => true
  | _ => false

def isString : Value → Bool
  | string _ => true
  | _ => false

/-- Numbers and texts have an order. -/
def isOrderable (v : Value) : Bool := v.isNumber || v.isString

/-- Only `true` satisfies a condition; undefined and all else do not. -/
def holds : Value → Bool
  | boolean b => b
  | _ => false

/-- Undefined counts as the empty sequence, any other single value as a sequence of one. -/
def asCollection : Value → CollectionKind × List Value
  | collection kind items => (kind, items)
  | undefined => (.sequence, [])
  | v => (.sequence, [v])

def sequence (items : List Value) : Value := collection .sequence items

def listed (items : List Value) : Value := list 0 items

end Value

end Metamorph
