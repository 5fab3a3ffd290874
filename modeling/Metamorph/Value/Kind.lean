import Metamorph.Named
import Metamorph.Value

/-! The types of values. Every built-in type has an ancestry: the types it conforms to, with their
distances. -/
namespace Metamorph

namespace Value

/-- The type of a value that is no object. -/
def builtinType? : Value → Option String
  | undefined => some "OclUndefined"
  | boolean _ => some "Boolean"
  | integer _ => some "Integer"
  | real _ => some "Real"
  | string _ => some "String"
  | collection kind _ => some kind.text
  | tuple _ => some "Tuple"
  | type _ => some "OclType"
  | complex _ _ _ | list _ _ | object _ | thisModule _ => none

def anyType : String := "OclAny"

def builtinAncestry? : Value → Option (Named Nat)
  | undefined => some [("OclUndefined", 0)]
  | integer _ => some [("Integer", 0), ("Real", 1), (anyType, 2)]
  | collection kind _ => some [(kind.text, 0), ("Collection", 1), (anyType, 2)]
  | v => v.builtinType?.map fun name => [(name, 0), (anyType, 1)]

/-- The type of values that only the host knows. -/
def hostType? : Value → Option String
  | complex _ _ _ => some "complex"
  | list _ _ => some "list"
  | thisModule _ => some "ModuleHandle"
  | _ => none

/-- The type of a value, empty for an object. -/
def ownType (v : Value) : String := (v.builtinType? <|> v.hostType?).getD ""

/-- Undefined, `false`, zero, and what holds nothing. -/
def isEmpty : Value → Bool
  | undefined => true
  | boolean b => !b
  | integer n => n = 0
  | real x => x == 0
  | string s => s.isEmpty
  | collection _ items | list _ items => items.isEmpty
  | _ => false

/-- The field of a tuple; of several with the name the first. -/
def field? (fields : List (String × Value)) (name : String) : Option Value := fields.lookup name

end Value

end Metamorph
