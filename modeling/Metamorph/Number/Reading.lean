import Metamorph.Number.Nearest
import Metamorph.Text.Blank
import Metamorph.Text.Digit

/-! Numbers read from text. White space around the text is dropped, digits of any script count, and
a single underscore may stand between two digits. -/
namespace Metamorph.Number
open Metamorph.Text

/-- A sign, if there is one, and the rest. -/
def signed : List Char → Bool × List Char
  | '-' :: rest => (true, rest)
  | '+' :: rest => (false, rest)
  | text => (false, text)

/-- A run of digits at the front, single underscores between digits passed over, and the rest. -/
def digitRun : List Char → List Nat × List Char
  | [] => ([], [])
  | [c] => match digit? c with
    | some d => ([d], [])
    | none => ([], [c])
  | c :: '_' :: e :: rest =>
    match digit? c, digit? e with
    | some d, some _ => let (more, left) := digitRun (e :: rest); (d :: more, left)
    | some d, none => ([d], '_' :: e :: rest)
    | none, _ => ([], c :: '_' :: e :: rest)
  | c :: e :: rest =>
    match digit? c with
    | some d => let (more, left) := digitRun (e :: rest); (d :: more, left)
    | none => ([], c :: e :: rest)

def digitsValue (digits : List Nat) : Nat := digits.foldl (fun n d => 10 * n + d) 0

/-- More digits than this are refused. -/
def digitLimit : Nat := 4300

/-- An Integer literal: a sign and digits, nothing else. -/
def readInteger (text : List Char) : Option Int :=
  let (negative, body) := signed (trimmed text)
  match digitRun body with
  | (digits, []) =>
    if digits.isEmpty || digitLimit < digits.length then none
    else if negative then some (-(digitsValue digits : Int)) else some (digitsValue digits)
  | _ => none

/-- A character in lower case, letters of ASCII only. -/
def lowered (text : List Char) : List Char := text.map Char.toLower

/-- Without the zeros in front. -/
def withoutZeros (digits : List Nat) : List Nat := digits.dropWhile (· == 0)

/-- The digits of an exponent. Twenty of them already lead beyond all numbers, so that no more are
read. -/
def exponentValue (digits : List Nat) : Nat := digitsValue ((withoutZeros digits).take 20)

/-- The exponent part: an `e`, a sign and digits. -/
def readExponent : List Char → Option Int
  | [] => some 0
  | c :: rest =>
    if c = 'e' || c = 'E' then
      let (negative, body) := signed rest
      match digitRun body with
      | ([], _) => none
      | (digits, []) => some (if negative then -(exponentValue digits : Int) else exponentValue digits)
      | _ => none
    else none

/-- No double and no middle of two neighbouring ones has as many digits. -/
def significantDigits : Nat := 800

/-- The double nearest to a row of digits times a power of ten. Of digits that are too many it only
matters whether all of them are zeros. -/
def ofDigits (negative : Bool) (digits : List Nat) (exponent : Int) : Float :=
  let digits := withoutZeros digits
  let kept := digits.take significantDigits
  let more := digits.drop significantDigits
  if more.all (· == 0) then ofDecimal negative (digitsValue kept) (exponent + more.length)
  else ofDecimal negative (10 * digitsValue kept + 1) (exponent + more.length - 1)

/-- Digits before and after an optional point, at least one of them, then an exponent. -/
def readDecimal (negative : Bool) (text : List Char) : Option Float :=
  let (whole, rest) := digitRun text
  let (fraction, rest) := match rest with
    | '.' :: rest => digitRun rest
    | _ => ([], rest)
  if whole.isEmpty && fraction.isEmpty then none
  else (readExponent rest).map fun exponent =>
    ofDigits negative (whole ++ fraction) (exponent - fraction.length)

/-- A Real literal, an infinity or the text for no number. -/
def readReal (text : List Char) : Option Float :=
  let (negative, body) := signed (trimmed text)
  let word := String.ofList (lowered body)
  if word = "inf" || word = "infinity" then some (withSign negative infinityBits)
  else if word = "nan" then some (withSign negative (infinityBits + Nat.pow 2 51))
  else readDecimal negative body

end Metamorph.Number
