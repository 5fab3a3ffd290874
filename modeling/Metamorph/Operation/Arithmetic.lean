import Metamorph.Expr.Operator
import Metamorph.Fault
import Metamorph.Number.Nearest
import Metamorph.Value.Equality

/-! Arithmetic and order. Integers are unbounded and stay exact; an operation with a Real among its
operands is one of doubles. Division truncates toward zero and the remainder has the sign of the
dividend. -/
namespace Metamorph.Operation

/-- Words for the operands of a failed operation, where `typeOf` names the types of values. -/
def operandTypes (typeOf : Value → String) (op : BinaryOperator) (l r : Value) : String :=
  typeOf l ++ " " ++ op.text ++ " " ++ typeOf r

def asReal : Value → Result Float
  | .integer n =>
    match Number.ofInt? n with
    | some x => .ok x
    | none => .error (.number .integerTooLarge)
  | .real x => .ok x
  | _ => .error (.broken "not a number")

/-- The double `m * 2 ^ e`, which has to be one. -/
def scaledReal (negative : Bool) (m : Nat) (e : Int) : Float :=
  Number.withSign negative (Number.nearestBits (m * Nat.pow 2 e.toNat) (Nat.pow 2 (-e).toNat))

/-- The remainder of `x` by `y`, exact and with the sign of `x`. An infinite divisor leaves a finite
`x` as it is; an infinite `x` has no remainder. -/
def remainder (x y : Float) : Result Float :=
  match Number.exact x, Number.exact y with
  | .finite m e, .finite n f =>
    let k := min e f
    let a := m.natAbs * Nat.pow 2 (e - k).toNat
    let b := n.natAbs * Nat.pow 2 (f - k).toNat
    .ok (scaledReal (Number.isNegative x) (a % b) k)
  | .finite _ _, .infinite _ => .ok x
  | .infinite _, .finite _ _ | .infinite _, .infinite _ => .error (.number .outsideDomain)
  | _, _ => .ok (x + y)

def notArithmetic (op : BinaryOperator) : Fault := .unsupported op.text "not an arithmetic operator"

/-- The quotient of the absolute values, with a sign unless both operands are on one side of zero. Zero
counts as above it when it is divided. -/
def quotient (a b : Int) : Int :=
  let q : Int := (a.natAbs / b.natAbs : Nat)
  if decide (0 ≤ a) == decide (0 < b) then q else -q

def onIntegers (op : BinaryOperator) (a b : Int) : Result Value :=
  match op with
  | .add => .ok (.integer (a + b))
  | .sub => .ok (.integer (a - b))
  | .mul => .ok (.integer (a * b))
  | .div | .intDiv =>
    if b = 0 then .error (.of (.divisionByZero op.text)) else .ok (.integer (quotient a b))
  | .mod =>
    if b = 0 then .error (.of (.divisionByZero op.text))
    else .ok (.integer (a - b * quotient a b))
  | _ => .error (notArithmetic op)

def onReals (op : BinaryOperator) (x y : Float) : Result Value :=
  match op with
  | .add => .ok (.real (x + y))
  | .sub => .ok (.real (x - y))
  | .mul => .ok (.real (x * y))
  | .div => if y == 0 then .error (.of (.divisionByZero op.text)) else .ok (.real (x / y))
  | .mod =>
    if y == 0 then .error (.of (.divisionByZero op.text)) else (remainder x y).map .real
  | _ => .error (notArithmetic op)

def arithmetic (typeOf : Value → String) (op : BinaryOperator) (l r : Value) : Result Value :=
  match op, l, r with
  | .add, .string a, .string b => .ok (.string (a ++ b))
  | op, .integer a, .integer b => onIntegers op a b
  | op, l, r =>
    if l.isNumber && r.isNumber then
      if op = .intDiv then .error (.typeMismatch "Integer" "Real" "'div'")
      else do onReals op (← asReal l) (← asReal r)
    else
      let expected := if op = .add then "Integer, Real or String" else "Integer or Real"
      .error (.typeMismatch expected (operandTypes typeOf op l r) (inQuotes op.text))

/-- The exact value of a number. -/
def exactValue? : Value → Option Number.Exact
  | .integer n => some (Number.exactInt n)
  | .real x => some (Number.exact x)
  | _ => none

/-- Numbers by their exact values, texts by code points; nothing else is in order. -/
def precedes (l r : Value) : Bool :=
  match l, r with
  | .string a, .string b => decide (a < b)
  | l, r => match exactValue? l, exactValue? r with
    | some a, some b => a.lt b
    | _, _ => false

def precedesOrEqual (l r : Value) : Bool :=
  match l, r with
  | .string a, .string b => decide (a ≤ b)
  | l, r => match exactValue? l, exactValue? r with
    | some a, some b => a.le b
    | _, _ => false

def compare (typeOf : Value → String) (op : BinaryOperator) (l r : Value) : Result Bool :=
  if l.isOrderable && r.isOrderable && l.isNumber == r.isNumber then
    .ok (match op with
      | .lt => precedes l r
      | .le => precedesOrEqual l r
      | .gt => precedes r l
      | _ => precedesOrEqual r l)
  else
    .error (.typeMismatch "two numbers or two Strings" (operandTypes typeOf op l r)
      (inQuotes op.text))

end Metamorph.Operation
