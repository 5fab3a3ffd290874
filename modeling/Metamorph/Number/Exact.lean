/-! The exact value of a Real. A binary double is an integer significand times a power of two, an
infinity or no number at all; Integers and Reals are compared by these values and never by rounding
one to the other. -/
namespace Metamorph.Number

/-- What a number stands for. `finite m e` is `m * 2 ^ e`. -/
inductive Exact where
  | finite (significand exponent : Int)
  | infinite (negative : Bool)
  | notANumber
  deriving Repr

/-- The sign bit, which a zero has too. -/
def isNegative (x : Float) : Bool := Nat.pow 2 63 ≤ x.toBits.toNat

/-- The bits without the sign. -/
def magnitude (x : Float) : Nat := x.toBits.toNat % Nat.pow 2 63

/-- Significand and exponent of the absolute value of a finite double. -/
def unpack (magnitude : Nat) : Nat × Int :=
  let exponent : Nat := magnitude / Nat.pow 2 52
  let fraction : Nat := magnitude % Nat.pow 2 52
  if exponent = 0 then (fraction, -1074) else (fraction + Nat.pow 2 52, (exponent : Int) - 1075)

/-- Where the magnitudes of the finite doubles end. -/
def infinityBits : Nat := 2047 * Nat.pow 2 52

def exact (x : Float) : Exact :=
  if magnitude x < infinityBits then
    let (significand, exponent) := unpack (magnitude x)
    .finite (if isNegative x then -significand else significand) exponent
  else if magnitude x = infinityBits then .infinite (isNegative x)
  else .notANumber

def exactInt (n : Int) : Exact := .finite n 0

/-- Two finite numbers over the smaller of their powers of two. -/
def aligned (m e n f : Int) : Int × Int :=
  (m * Int.pow 2 (e - min e f).toNat, n * Int.pow 2 (f - min e f).toNat)

def Exact.lt : Exact → Exact → Bool
  | .finite m e, .finite n f => (aligned m e n f).1 < (aligned m e n f).2
  | .finite _ _, .infinite negative => !negative
  | .infinite negative, .finite _ _ => negative
  | .infinite l, .infinite r => l && !r
  | .notANumber, _ => false
  | _, .notANumber => false

def Exact.eq : Exact → Exact → Bool
  | .finite m e, .finite n f => (aligned m e n f).1 = (aligned m e n f).2
  | .infinite l, .infinite r => l == r
  | _, _ => false

def Exact.le (a b : Exact) : Bool := a.lt b || a.eq b

/-- The greatest integer that is not above `m * 2 ^ e`. -/
def floorOf (m e : Int) : Int :=
  if 0 ≤ e then m * Int.pow 2 e.toNat else m.fdiv (Int.pow 2 (-e).toNat)

end Metamorph.Number
