import Metamorph.Collection.Algebra

/-! Operators applied to values. Equality never fails; comparison, logic, membership and arithmetic
do when the operands are not of the right types. -/
namespace Metamorph.Operation

def requireBoolean (typeOf : Value → String) (op : String) : Value → Result Bool
  | .boolean b => .ok b
  | v => .error (.typeMismatch "Boolean" (typeOf v) (inQuotes op))

def connect (op : BinaryOperator) (a b : Bool) : Bool :=
  match op with
  | .and => a && b
  | .or => a || b
  | .xor => a != b
  | _ => !a || b

/-- The value that the left operand alone decides, if it does. -/
def decided? (op : BinaryOperator) (a : Bool) : Option Bool :=
  match op, a with
  | .and, false => some false
  | .or, true => some true
  | .implies, false => some true
  | _, _ => none

/-- An operator between a collection and another value, as a combination. -/
def combination? : BinaryOperator → Option Combination
  | .includes => some .includes
  | .excludes => some .excludes
  | .union => some .union
  | .intersection => some .intersection
  | _ => none

def binary (typeOf : Value → String) (op : BinaryOperator) (l r : Value) : Result Value :=
  match op with
  | .eq => .ok (.boolean (l.same r))
  | .ne => .ok (.boolean (!l.same r))
  | op =>
    if op.isComparison then (compare typeOf op l r).map .boolean
    else if op.isLogical then do
      let a ← requireBoolean typeOf op.text l
      let b ← requireBoolean typeOf op.text r
      .ok (.boolean (connect op a b))
    else
      match combination? op, l with
      | some combination, .collection kind items =>
        Collection.combine typeOf combination kind items r
      | some _, l => .error (.typeMismatch "Collection" (typeOf l) (inQuotes op.text))
      | none, .collection kind items =>
        if op = .sub then Collection.combine typeOf .difference kind items r
        else arithmetic typeOf op l r
      | none, l => arithmetic typeOf op l r

def unary (typeOf : Value → String) (op : UnaryOperator) (v : Value) : Result Value :=
  match op, v with
  | .not, v => (requireBoolean typeOf UnaryOperator.not.text v).map fun b => .boolean !b
  | .neg, .integer n => .ok (.integer (-n))
  | .neg, .real x => .ok (.real (-x))
  | .neg, v => .error (.typeMismatch "Integer or Real" (typeOf v) "unary '-'")

end Metamorph.Operation
