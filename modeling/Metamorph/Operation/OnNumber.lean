import Metamorph.Operation.OnText

/-! Operations on numbers. -/
namespace Metamorph.Operation

inductive OnNumber where
  | abs | floor | round | max | min | div | mod | power | isEven | isOdd | square

namespace OnNumber

def all : List OnNumber :=
  [abs, floor, round, max, min, div, mod, power, isEven, isOdd, square]

def text : OnNumber → String
  | abs => "abs"
  | floor => "floor"
  | round => "round"
  | max => "max"
  | min => "min"
  | div => "div"
  | mod => "mod"
  | power => "power"
  | isEven => "isEven"
  | isOdd => "isOdd"
  | square => "square"

def named? (name : String) : Option OnNumber := all.find? (·.text == name)

def arity : OnNumber → Nat
  | max | min | div | mod | power => 1
  | _ => 0

end OnNumber

def floorOfReal (x : Float) : Result Int :=
  match Number.exact x with
  | .finite m e => .ok (Number.floorOf m e)
  | .infinite _ => .error (.number .infiniteInteger)
  | .notANumber => .error (.number .undefinedInteger)

/-- Whether a finite double is a whole number, and then whether it is odd. -/
def wholeness (y : Float) : Bool × Bool :=
  match Number.exact y with
  | .finite m e =>
    let unit := Nat.pow 2 (-e).toNat
    (m.natAbs % unit = 0, e ≤ 0 ∧ m.natAbs % unit = 0 ∧ m.natAbs / unit % 2 = 1)
  | _ => (false, false)

def isInfinite (x : Float) : Bool := Number.magnitude x = Number.infinityBits

def isNaN (x : Float) : Bool := Number.infinityBits < Number.magnitude x

def infinity : Float := Number.withSign false Number.infinityBits

/-- A power of finite numbers that comes out infinite has left the range. -/
def inRange (x : Float) : Result Value :=
  if isInfinite x then .error (.number .beyondRange) else .ok (.real x)

/-- The power of a negative number to a fraction, in polar form. -/
def complexPower (fresh : Identity) (x y : Float) : Result Value :=
  let length := x.abs.pow y
  let phase := Float.atan2 0.0 x * y
  let re := length * phase.cos
  let im := length * phase.sin
  if isInfinite re || isInfinite im then .error (.number .complexBeyondRange)
  else .ok (.complex fresh re im)

/-- The power of a base that is infinite. Only an odd exponent keeps its sign. -/
def infinitePower (x y : Float) : Float :=
  let negative := Number.isNegative x && (wholeness y).2
  Number.withSign negative (if 0 < y then Number.infinityBits else 0)

/-- A power to an infinite exponent: what repeated multiplication tends to. -/
def powerToInfinity (x y : Float) : Float :=
  if x.abs == 1 then 1
  else if decide (0 < y) == decide (1 < x.abs) then infinity
  else 0

def realPower (fresh : Identity) (x y : Float) : Result Value :=
  let odd := (wholeness y).2
  if y == 0 then .ok (.real 1)
  else if isNaN x then .ok (.real x)
  else if isNaN y then .ok (.real (if x == 1 then 1 else y))
  else if isInfinite y then .ok (.real (powerToInfinity x y))
  else if isInfinite x then .ok (.real (infinitePower x y))
  else if x == 0 then
    if y < 0 then .error (.number .zeroToNegativePower) else .ok (.real (if odd then x else 0))
  else if x < 0 then
    if (wholeness y).1 then
      let size := if x == -1 then 1 else x.abs.pow y
      inRange (if odd then -size else size)
    else complexPower fresh x y
  else if x == 1 then .ok (.real 1)
  else inRange (x.pow y)

/-- A power of whole numbers. That of zero or a unit is not multiplied out. -/
def wholePower (a : Int) (b : Nat) : Int :=
  if a.natAbs ≤ 1 ∧ 2 ≤ b then (if b % 2 = 0 then a * a else a) else Int.pow a b

/-- A power; if it turns out complex it has the identity `fresh`. -/
def power (fresh : Identity) (base exponent : Value) : Result Value :=
  match base, exponent with
  | .integer a, .integer b =>
    if 0 ≤ b then .ok (.integer (wholePower a b.toNat))
    else do realPower fresh (← asReal base) (← asReal exponent)
  | base, exponent => do realPower fresh (← asReal base) (← asReal exponent)

def requireNumber (typeOf : Value → String) (op : String) (v : Value) : Result Value :=
  if v.isNumber then .ok v else .error (.typeMismatch "Integer or Real" (typeOf v) (inQuotes op))

def magnitudeOf : Value → Value
  | .integer n => .integer n.natAbs
  | .real x => .real x.abs
  | v => v

/-- The greatest Integer that is not above the number. -/
def floorOf : Value → Result Value
  | .real x => (floorOfReal x).map .integer
  | v => .ok v

/-- The Integer below one half more, reckoned as a Real. -/
def rounded (v : Value) : Result Value := do
  .ok (.integer (← floorOfReal ((← asReal v) + 0.5)))

def onNumber (typeOf : Value → String) (fresh : Identity) (op : OnNumber) (v : Value)
    (args : List Value) : Result Value :=
  match op, args with
  | .abs, [] => .ok (magnitudeOf v)
  | .floor, [] => floorOf v
  | .round, [] => rounded v
  | .max, [w] => do
    let w ← requireNumber typeOf op.text w
    .ok (if precedes v w then w else v)
  | .min, [w] => do
    let w ← requireNumber typeOf op.text w
    .ok (if precedes w v then w else v)
  | .div, [w] => arithmetic typeOf .intDiv v w
  | .mod, [w] => arithmetic typeOf .mod v w
  | .power, [w] => do power fresh v (← requireNumber typeOf op.text w)
  | .isEven, [] => do .ok (.boolean ((← requireInteger typeOf op.text v) % 2 = 0))
  | .isOdd, [] => do .ok (.boolean ((← requireInteger typeOf op.text v) % 2 = 1))
  | .square, [] => arithmetic typeOf .mul v v
  | op, args => .error (.arity op.text op.arity args.length)

end Metamorph.Operation
