import Metamorph.Number.Nearest

/-! Decimal text of numbers: the shortest digits that read back as the same double, and a fixed
number of places. -/
namespace Metamorph.Number

/-- `digits * 10 ^ exponent`. -/
structure Decimal where
  digits : Nat
  exponent : Int

/-- Decimal digits of a natural number, the highest first. -/
def digitChars (n : Nat) : List Char := Nat.toDigits 10 n

/-- Least `k` with `num * 10 ^ k` at or above `den`, looked for from `k` on. -/
def leadingZeros (num den : Nat) : Nat → Nat → Nat
  | 0, k => k
  | bound + 1, k => if den ≤ num * Nat.pow 10 k then k else leadingZeros num den bound (k + 1)

/-- Number of digits before the point of `num / den`; zero or negative when it is below one. -/
def integerPlaces (num den : Nat) : Int :=
  if den ≤ num then (digitChars (num / den)).length else 1 - leadingZeros num den 400 0

/-- The doubles' neighbourhood of `value / den`: everything between `low` and `high` reads back as
it, the ends too if `closed`. -/
structure Interval where
  low : Nat
  value : Nat
  high : Nat
  den : Nat
  closed : Bool

/-- The neighbourhood of a finite magnitude other than zero. Below a power of two the doubles stand
twice as close as above it. -/
def interval (magnitude : Nat) : Interval :=
  let (significand, exponent) := unpack magnitude
  let scale := exponent - 2
  let up := Nat.pow 2 scale.toNat
  let step := if significand = Nat.pow 2 52 && exponent ≠ -1074 then 1 else 2
  { low := (4 * significand - step) * up
    value := 4 * significand * up
    high := (4 * significand + 2) * up
    den := Nat.pow 2 (-scale).toNat
    closed := significand % 2 == 0 }

/-- Whether `num / den` reads back as the value of the interval. -/
def Interval.holds (i : Interval) (num den : Nat) : Bool :=
  let l := i.low * den
  let x := num * i.den
  let h := i.high * den
  if i.closed then l ≤ x && x ≤ h else l < x && x < h

/-- The better of the two neighbours of the value on the grid of `10 ^ exponent`, if one of them
reads back. Of two the nearer is taken, of equally near ones the even. -/
def Interval.onGrid (i : Interval) (exponent : Int) : Option Nat :=
  let up := Nat.pow 10 exponent.toNat
  let down := Nat.pow 10 (-exponent).toNat
  let below := i.value * down / (i.den * up)
  let reads := fun n => i.holds (n * up) down
  if reads below && reads (below + 1) then some (roundHalfEven (i.value * down) (i.den * up))
  else if reads below then some below
  else if reads (below + 1) then some (below + 1)
  else none

/-- The first grid that has a hit, counted in digits from `count` on. -/
def Interval.firstHit (i : Interval) (places : Int) : Nat → Nat → Decimal
  | 0, _ => ⟨0, 0⟩
  | bound + 1, count =>
    match i.onGrid (places - count) with
    | some digits => ⟨digits, places - count⟩
    | none => i.firstHit places bound (count + 1)

/-- The shortest decimal that reads back as the magnitude. -/
def shortest (magnitude : Nat) : Decimal :=
  let i := interval magnitude
  i.firstHit (integerPlaces i.value i.den) 17 1

/-- Digits and number of places before the point, without closing zeros. -/
def Decimal.significant (d : Decimal) : List Char × Int :=
  let all := digitChars d.digits
  let kept := (all.reverse.dropWhile (· == '0')).reverse
  (if kept.isEmpty then ['0'] else kept, all.length + d.exponent)

/-- At least `width` digits, filled with zeros in front. -/
def padded (width n : Nat) : List Char :=
  let digits := digitChars n
  List.replicate (width - digits.length) '0' ++ digits

/-- Exponents from `-4` to `15` are written positionally; others after an `e`, with a sign and at
least two digits. `point` asks for a fraction where the digits alone would read as an Integer. -/
def layout (point : Bool) (digits : List Char) (places : Int) : List Char :=
  if -4 < places && places ≤ 16 then
    if places ≤ 0 then '0' :: '.' :: List.replicate (-places).toNat '0' ++ digits
    else
      let whole := places.toNat
      if digits.length ≤ whole then
        digits ++ List.replicate (whole - digits.length) '0' ++ (if point then ['.', '0'] else [])
      else digits.take whole ++ '.' :: digits.drop whole
  else
    let exponent := places - 1
    digits.take 1 ++ (if digits.length = 1 then [] else '.' :: digits.drop 1) ++
      'e' :: (if exponent < 0 then '-' else '+') :: padded 2 exponent.natAbs

/-- Text of a Real. -/
def realChars (point : Bool) (x : Float) : List Char :=
  match exact x with
  | .notANumber => ['n', 'a', 'n']
  | .infinite negative => (if negative then ['-'] else []) ++ ['i', 'n', 'f']
  | .finite significand _ =>
    (if isNegative x then ['-'] else []) ++
      if significand = 0 then (if point then ['0', '.', '0'] else ['0'])
      else
        let (digits, places) := (shortest (magnitude x)).significant
        layout point digits places

def realText (x : Float) : String := String.ofList (realChars true x)

/-- The value to `places` digits after the point, a half going to the even neighbour. -/
def fixedText (places : Nat) (x : Float) : String :=
  match exact x with
  | .notANumber => "nan"
  | .infinite negative => if negative then "-inf" else "inf"
  | .finite significand exponent =>
    let scaled := significand.natAbs * Nat.pow 10 places
    let units :=
      if 0 ≤ exponent then scaled * Nat.pow 2 exponent.toNat
      else roundHalfEven scaled (Nat.pow 2 (-exponent).toNat)
    let digits := padded (places + 1) units
    let whole := digits.length - places
    String.ofList ((if isNegative x then ['-'] else []) ++
      digits.take whole ++ (if places = 0 then [] else '.' :: digits.drop whole))

end Metamorph.Number
