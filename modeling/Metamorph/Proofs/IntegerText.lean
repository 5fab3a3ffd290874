import Mathlib.Algebra.Order.Group.Nat
import Mathlib.Data.List.Induction
import Metamorph.Engine.Calls
import Metamorph.Proofs.Run

/-! Integers and their texts. What can be read is white space around a sign and digits, of any script and with
single underscores between them; what is written is the shortest of these, in digits of ASCII. -/
namespace Metamorph

namespace Text
variable {c : Char} {d : Nat} {text before core after : List Char}

theorem exists_script (digit : digit? c = some d) :
    ∃ first ∈ zeros, first ≤ c.toNat ∧ c.toNat ≤ first + 9 ∧ c.toNat - first = d := by
  unfold digit? at digit
  obtain ⟨first, found, rfl⟩ := Option.map_eq_some_iff.1 digit
  have inside := List.find?_some found
  simp only [Bool.and_eq_true, decide_eq_true_iff] at inside
  exact ⟨first, List.mem_of_find?_eq_some found, inside.1, inside.2, rfl⟩

theorem digit_lt_ten (digit : digit? c = some d) : d < 10 := by
  obtain ⟨first, -, _, _, rfl⟩ := exists_script digit
  omega

/-- No script has digits among the white space. -/
theorem zeros_apart : ∀ first ∈ zeros, ∀ range ∈ blanks, first + 9 < range.1 ∨ range.2 < first := by
  decide

theorem not_blank_of_digit (digit : digit? c = some d) : isBlank c = false := by
  obtain ⟨first, script, _, _, -⟩ := exists_script digit
  rw [isBlank, CodePoints.has, List.any_eq_false]
  intro range member
  have := zeros_apart first script range member
  simp only [Bool.and_eq_true, decide_eq_true_iff]
  omega

theorem digit?_of_isDigit (ascii : c.isDigit = true) : digit? c = some (c.toNat - 48) := by
  have inside : 48 ≤ c.toNat ∧ c.toNat ≤ 57 := by
    rwa [Char.isDigit_iff_toNat] at ascii
  rw [digit?, zeros, List.find?_cons_of_pos]
  · rfl
  · simp only [Bool.and_eq_true, decide_eq_true_iff]
    omega

/-- Nothing but white space is in the text. -/
def Blank (text : List Char) : Prop := ∀ c ∈ text, isBlank c = true

theorem blank_takeWhile (text : List Char) : Blank (text.takeWhile isBlank) :=
  List.all_eq_true.1 List.all_takeWhile

/-- What is dropped at both ends is white space. -/
theorem exists_trimmed (text : List Char) :
    ∃ before after, text = before ++ trimmed text ++ after ∧ Blank before ∧ Blank after := by
  refine ⟨text.takeWhile isBlank, ((text.dropWhile isBlank).reverse.takeWhile isBlank).reverse, ?_, ?_, ?_⟩
  · have rest : trimmed text ++ ((text.dropWhile isBlank).reverse.takeWhile isBlank).reverse =
        text.dropWhile isBlank := by
      rw [trimmed, ← List.reverse_append, List.takeWhile_append_dropWhile, List.reverse_reverse]
    rw [List.append_assoc, rest, List.takeWhile_append_dropWhile]
  · exact blank_takeWhile text
  · intro c member
    exact blank_takeWhile _ c (List.mem_reverse.1 member)

theorem dropWhile_blank {c : Char} (blank : Blank before) (visible : isBlank c = false)
    (rest : List Char) : (before ++ c :: rest).dropWhile isBlank = c :: rest := by
  rw [List.dropWhile_append_of_pos blank, List.dropWhile_cons_of_neg]
  rw [visible]
  exact Bool.false_ne_true

/-- No more is dropped than the white space around what starts and ends with other characters. -/
theorem trimmed_append (first : Blank before) (last : Blank after) {c d : Char} {body : List Char}
    {init : List Char} (starts : core = c :: body) (ends : core = init ++ [d])
    (visible : isBlank c = false) (visible' : isBlank d = false) :
    trimmed (before ++ core ++ after) = core := by
  have behind : Blank after.reverse := fun c member => last c (List.mem_reverse.1 member)
  have front : (before ++ core ++ after).dropWhile isBlank = core ++ after := by
    rw [starts, List.append_assoc, List.cons_append, dropWhile_blank first visible]
  have back : (core ++ after).reverse.dropWhile isBlank = core.reverse := by
    rw [List.reverse_append, ends, List.reverse_append, List.reverse_cons, List.reverse_nil, List.nil_append,
      List.singleton_append, dropWhile_blank behind visible']
  rw [trimmed, front, back, List.reverse_reverse]

end Text

namespace Number
open Text

/-- Digits, single underscores between them. -/
inductive Numeral : List Char → List Nat → Prop
  | last {c : Char} {d : Nat} (digit : digit? c = some d) : Numeral [c] [d]
  | next {c : Char} {d : Nat} {text : List Char} {digits : List Nat} (digit : digit? c = some d)
      (rest : Numeral text digits) : Numeral (c :: text) (d :: digits)
  | underscore {c : Char} {d : Nat} {text : List Char} {digits : List Nat} (digit : digit? c = some d)
      (rest : Numeral text digits) : Numeral (c :: '_' :: text) (d :: digits)

variable {c : Char} {d : Nat} {n m : Int} {text body : List Char} {digits : List Nat}

namespace Numeral

theorem starts (numeral : Numeral text digits) :
    ∃ c rest d, text = c :: rest ∧ digit? c = some d := by
  cases numeral with
  | last digit => exact ⟨_, _, _, rfl, digit⟩
  | next digit _ => exact ⟨_, _, _, rfl, digit⟩
  | underscore digit _ => exact ⟨_, _, _, rfl, digit⟩

theorem ends (numeral : Numeral text digits) :
    ∃ init c d, text = init ++ [c] ∧ digit? c = some d := by
  induction numeral with
  | last digit => exact ⟨[], _, _, rfl, digit⟩
  | next _ _ ih =>
    obtain ⟨init, c, d, rfl, digit⟩ := ih
    exact ⟨_ :: init, c, d, rfl, digit⟩
  | underscore _ _ ih =>
    obtain ⟨init, c, d, rfl, digit⟩ := ih
    exact ⟨_ :: '_' :: init, c, d, rfl, digit⟩

theorem lt_ten (numeral : Numeral text digits) : ∀ d ∈ digits, d < 10 := by
  induction numeral with
  | last digit => exact List.forall_mem_singleton.2 (digit_lt_ten digit)
  | next digit _ ih => exact List.forall_mem_cons.2 ⟨digit_lt_ten digit, ih⟩
  | underscore digit _ ih => exact List.forall_mem_cons.2 ⟨digit_lt_ten digit, ih⟩

theorem ne_nil (numeral : Numeral text digits) : digits ≠ [] := by
  cases numeral <;> exact List.cons_ne_nil _ _

/-- All of it is read, and its digits are found. -/
theorem run (numeral : Numeral text digits) : digitRun text = (digits, []) := by
  induction numeral with
  | last digit => simp [digitRun, digit]
  | @next c d text digits digit rest ih =>
    obtain ⟨e, more, d', rfl, digit'⟩ := rest.starts
    rw [digitRun]
    · simp [digit, ih]
    · rintro _ _ rfl -
      cases digit'
  | @underscore c d text digits digit rest ih =>
    obtain ⟨e, more, d', rfl, digit'⟩ := rest.starts
    simp [digitRun, digit, digit', ih]

end Numeral

theorem eq_nil_of_run (read : (digitRun text).2 = []) (none : (digitRun text).1 = []) : text = [] := by
  fun_cases digitRun text <;> simp_all [digitRun]

/-- A text that is read to its end has digits. -/
theorem run_ne_nil {rest : List Char} (read : (digitRun (c :: rest)).2 = []) :
    (digitRun (c :: rest)).1 ≠ [] :=
  fun none => List.cons_ne_nil c rest (eq_nil_of_run read none)

theorem numeral_of_run (text : List Char) (read : (digitRun text).2 = [])
    (some : (digitRun text).1 ≠ []) : Numeral text (digitRun text).1 := by
  revert read some
  fun_induction digitRun text with
  | case1 => exact fun _ some => absurd rfl some
  | case2 c d digit => exact fun _ _ => .last digit
  | case3 => exact fun read _ => absurd read (List.cons_ne_nil _ _)
  | case4 c e rest d _ _ digit more left ran ih =>
    intro read _
    have read : (digitRun (e :: rest)).2 = [] := by rw [ran]; exact read
    have tail := ih read (run_ne_nil read)
    rw [ran] at tail
    exact .underscore digit tail
  | case5 => exact fun read _ => absurd read (List.cons_ne_nil _ _)
  | case6 => exact fun read _ => absurd read (List.cons_ne_nil _ _)
  | case7 c e rest _ d digit more left ran ih =>
    intro read _
    have read : (digitRun (e :: rest)).2 = [] := by rw [ran]; exact read
    have tail := ih read (run_ne_nil read)
    rw [ran] at tail
    exact .next digit tail
  | case8 => exact fun read _ => absurd read (List.cons_ne_nil _ _)

/-- A sign, or none, and digits that are not too many, with the Integer they stand for. -/
inductive SignedNumeral : List Char → Int → Prop
  | plain {text : List Char} {digits : List Nat} (numeral : Numeral text digits)
      (short : digits.length ≤ digitLimit) : SignedNumeral text (digitsValue digits)
  | plus {text : List Char} {digits : List Nat} (numeral : Numeral text digits)
      (short : digits.length ≤ digitLimit) : SignedNumeral ('+' :: text) (digitsValue digits)
  | minus {text : List Char} {digits : List Nat} (numeral : Numeral text digits)
      (short : digits.length ≤ digitLimit) : SignedNumeral ('-' :: text) (-(digitsValue digits : Int))

theorem signed_numeral (numeral : Numeral text digits) : signed text = (false, text) := by
  obtain ⟨c, rest, d, rfl, digit⟩ := numeral.starts
  unfold signed
  split
  · rename_i is
    cases is
    cases digit
  · rename_i is
    cases is
    cases digit
  · rfl

theorem SignedNumeral.of_signed {negative : Bool} (parted : signed text = (negative, body))
    (numeral : Numeral body digits) (short : digits.length ≤ digitLimit) :
    SignedNumeral text (if negative then -(digitsValue digits : Int) else digitsValue digits) := by
  unfold signed at parted
  split at parted
  · cases parted
    exact .minus numeral short
  · cases parted
    exact .plus numeral short
  · cases parted
    exact .plain numeral short

theorem readInteger_eq_some (is : readInteger text = some n) : SignedNumeral (trimmed text) n := by
  unfold readInteger at is
  split at is
  rename_i negative body parted
  split at is
  · rename_i digits ran
    split at is
    · cases is
    · rename_i few
      simp only [Bool.or_eq_true, List.isEmpty_iff, decide_eq_true_iff, not_or, Nat.not_lt] at few
      have numeral : Numeral body digits := by
        have read := numeral_of_run body
        rw [ran] at read
        exact read rfl few.1
      have whole := SignedNumeral.of_signed parted numeral few.2
      cases negative <;> cases is <;> exact whole
  · cases is

/-- What is read after the sign. -/
theorem readInteger_of_signed {negative : Bool} (parted : signed (trimmed text) = (negative, body))
    (numeral : Numeral body digits) (short : digits.length ≤ digitLimit) : readInteger text =
      some (if negative then -(digitsValue digits : Int) else digitsValue digits) := by
  have few : (digits.isEmpty || decide (digitLimit < digits.length)) = false := by
    simp [numeral.ne_nil, short]
  unfold readInteger
  rw [parted]
  dsimp only
  rw [numeral.run]
  dsimp only
  rw [few]
  cases negative <;> rfl

theorem readInteger_eq_some_iff : readInteger text = some n ↔ SignedNumeral (trimmed text) n := by
  refine ⟨readInteger_eq_some, fun spelled => ?_⟩
  generalize is : trimmed text = core at spelled
  cases spelled with
  | plain numeral short =>
    exact readInteger_of_signed (by rw [is]; exact signed_numeral numeral) numeral short
  | plus numeral short => exact readInteger_of_signed (by rw [is]; rfl) numeral short
  | minus numeral short => exact readInteger_of_signed (by rw [is]; rfl) numeral short

theorem SignedNumeral.starts (spelled : SignedNumeral text n) :
    ∃ c rest, text = c :: rest ∧ isBlank c = false := by
  cases spelled with
  | plain numeral _ =>
    obtain ⟨c, rest, d, rfl, digit⟩ := numeral.starts
    exact ⟨c, rest, rfl, not_blank_of_digit digit⟩
  | plus _ _ => exact ⟨'+', _, rfl, by decide⟩
  | minus _ _ => exact ⟨'-', _, rfl, by decide⟩

theorem SignedNumeral.exists_numeral (spelled : SignedNumeral text n) : ∃ lead body digits,
    text = lead ++ body ∧ Numeral body digits ∧ digits.length ≤ digitLimit ∧ n.natAbs = digitsValue digits := by
  cases spelled with
  | plain numeral short => exact ⟨[], _, _, rfl, numeral, short, rfl⟩
  | plus numeral short => exact ⟨['+'], _, _, rfl, numeral, short, rfl⟩
  | minus numeral short => exact ⟨['-'], _, _, rfl, numeral, short, Int.natAbs_neg _⟩

theorem SignedNumeral.ends (spelled : SignedNumeral text n) :
    ∃ init c, text = init ++ [c] ∧ isBlank c = false := by
  obtain ⟨lead, body, digits, rfl, numeral, -, -⟩ := spelled.exists_numeral
  obtain ⟨init, c, d, rfl, digit⟩ := numeral.ends
  exact ⟨lead ++ init, c, (List.append_assoc ..).symm, not_blank_of_digit digit⟩

/-- White space around a sign and digits. -/
def Spells (text : List Char) (n : Int) : Prop :=
  ∃ before core after, text = before ++ core ++ after ∧ Blank before ∧ Blank after ∧ SignedNumeral core n

theorem readInteger_iff_spells : readInteger text = some n ↔ Spells text n := by
  rw [readInteger_eq_some_iff]
  constructor
  · intro spelled
    obtain ⟨before, after, is, first, last⟩ := exists_trimmed text
    exact ⟨before, trimmed text, after, is, first, last, spelled⟩
  · rintro ⟨before, core, after, rfl, first, last, spelled⟩
    obtain ⟨c, rest, starts, visible⟩ := spelled.starts
    obtain ⟨init, d, ends, visible'⟩ := spelled.ends
    rw [trimmed_append first last starts ends visible visible']
    exact spelled

theorem digitsValue_lt (small : ∀ d ∈ digits, d < 10) : digitsValue digits < 10 ^ digits.length := by
  -- The digits read so far are the leading ones, so that the induction is from the end of the list.
  induction digits using List.reverseRecOn with
  | nil => exact Nat.one_pos
  | append_singleton digits d ih =>
    have leading := ih fun e member => small e (List.mem_append_left _ member)
    have last := small d (by simp)
    rw [digitsValue] at leading ⊢
    rw [List.foldl_append, List.length_append, List.length_singleton, Nat.pow_succ]
    simp only [List.foldl_cons, List.foldl_nil]
    omega

theorem numeral_of_isDigit {chars : List Char} (some : chars ≠ [])
    (ascii : ∀ c ∈ chars, c.isDigit = true) : Numeral chars (chars.map fun c => c.toNat - 48) := by
  induction chars with
  | nil => exact absurd rfl some
  | cons c rest ih =>
    obtain ⟨first, others⟩ := List.forall_mem_cons.1 ascii
    have digit := digit?_of_isDigit first
    cases rest with
    | nil => exact .last digit
    | cons e rest => exact .next digit (ih (List.cons_ne_nil e rest) others)

/-- Number of decimal digits. -/
def decimalLength (n : Int) : Nat := (Nat.toDigits 10 n.natAbs).length

theorem decimalLength_le_iff : decimalLength n ≤ digitLimit ↔ n.natAbs < 10 ^ digitLimit :=
  Nat.length_toDigits_le_iff (by decide) (by decide)

theorem numeral_toDigits (n : Nat) :
    ∃ digits, Numeral (Nat.toDigits 10 n) digits ∧ digits.length = (Nat.toDigits 10 n).length ∧
      digitsValue digits = n := by
  refine ⟨(Nat.toDigits 10 n).map fun c => c.toNat - 48, ?_, List.length_map _, ?_⟩
  · refine numeral_of_isDigit Nat.toDigits_ne_nil fun c member => ?_
    exact Nat.isDigit_of_mem_toDigits (by decide) (by decide) member
  · have back : Nat.ofDigitChars 10 (Nat.toDigits 10 n) 0 = n := Nat.ofDigitChars_ten_toDigits
    rw [Nat.ofDigitChars_eq_foldl] at back
    rw [digitsValue, List.foldl_map]
    exact back

theorem toList_toString (n : Int) : (toString n).toList =
    (if n < 0 then ['-'] else []) ++ Nat.toDigits 10 n.natAbs := by
  rw [Int.toString_eq_repr, Int.repr_eq_if]
  by_cases negative : n < 0
  · have size : (-n).toNat = n.natAbs := by omega
    rw [if_neg (by omega), if_pos negative, String.toList_append, Nat.toList_repr, size]
    rfl
  · have size : n.toNat = n.natAbs := by omega
    rw [if_pos (by omega), if_neg negative, Nat.toList_repr, size]
    rfl

/-- What is written can be read, unless it has too many digits. -/
theorem signedNumeral_toString (short : decimalLength n ≤ digitLimit) :
    SignedNumeral (toString n).toList n := by
  obtain ⟨digits, numeral, size, value⟩ := numeral_toDigits n.natAbs
  rw [decimalLength, ← size] at short
  rw [toList_toString]
  by_cases negative : n < 0
  · have is : n = -(digitsValue digits : Int) := by omega
    have spelled := SignedNumeral.minus numeral short
    rw [← is] at spelled
    rw [if_pos negative]
    exact spelled
  · have is : n = digitsValue digits := by omega
    have spelled := SignedNumeral.plain numeral short
    rw [← is] at spelled
    rw [if_neg negative]
    exact spelled

theorem decimalLength_le (spelled : Spells text n) : decimalLength n ≤ digitLimit := by
  obtain ⟨-, core, -, -, -, -, spelled⟩ := spelled
  obtain ⟨-, body, digits, -, numeral, short, size⟩ := spelled.exists_numeral
  rw [decimalLength_le_iff, size]
  calc digitsValue digits < 10 ^ digits.length := digitsValue_lt numeral.lt_ten
    _ ≤ 10 ^ digitLimit := Nat.pow_le_pow_right (by decide) short

end Number

namespace Engine
open Number Run
variable {setting : Setting} {typeOf : Value → String} {s : Engine} {n m : Int} {text : String}

/-- The value is written as the text. -/
def WrittenAs (setting : Setting) (s : Engine) (v : Value) (text : String) : Prop :=
  universal setting .toString v [] s = .value (.string text) s

/-- The text is read as the Integer. -/
def ReadAs (typeOf : Value → String) (text : String) (n : Int) : Prop :=
  Operation.onText typeOf .toInteger text [] = .ok (.integer n)

theorem isOverlong_integer : (Value.integer n).isOverlong = decide (digitLimit < decimalLength n) := by
  have limit : digitsOfText = digitLimit := rfl
  rw [Value.isOverlong, Nat.pow_eq, limit]
  apply decide_eq_decide.2
  have short := decimalLength_le_iff (n := n)
  generalize 10 ^ digitLimit = power at short ⊢
  omega

theorem display_integer : s.store.display (.integer n) =
    if decimalLength n ≤ digitLimit then .ok (toString n) else .error (.number .textTooLong) := by
  rw [Store.display, Store.textOf, isOverlong_integer]
  by_cases short : decimalLength n ≤ digitLimit
  · rw [if_pos short, decide_eq_false (Nat.not_lt.2 short)]
    rfl
  · rw [if_neg short, decide_eq_true (Nat.not_le.1 short)]
    rfl

theorem writtenAs_integer : WrittenAs setting s (.integer n) text ↔
    decimalLength n ≤ digitLimit ∧ toString n = text := by
  have written : WrittenAs setting s (.integer n) text ↔ s.store.display (.integer n) = .ok text := by
    unfold WrittenAs universal displayed
    simp [bind_eq_value]
  rw [written, display_integer]
  split
  · rename_i short
    simp [short]
  · rename_i long
    simp [long]

theorem readAs_iff : ReadAs typeOf text n ↔ Spells text.toList n := by
  rw [← readInteger_iff_spells, ReadAs]
  change Operation.readLiteral _ _ _ _ = _ ↔ _
  unfold Operation.readLiteral
  cases readInteger text.toList with
  | none => simp
  | some m => simp

theorem onText_toInteger_of_unread (unread : ∀ n, ¬ ReadAs typeOf text n) :
    Operation.onText typeOf .toInteger text [] =
      .error (.typeMismatch "Integer literal" (Text.quoted text) "'toInteger'") := by
  have none : readInteger text.toList = none := by
    rw [Option.eq_none_iff_forall_ne_some]
    intro n is
    exact unread n (readAs_iff.2 (readInteger_iff_spells.1 is))
  change Operation.readLiteral _ _ _ _ = _
  rw [none]
  rfl

/-- The text of an Integer tells which it is. There is one for every Integer of at most 4300 digits; it reads
back as that Integer, with white space around it as well, and two Integers do not have one text. Texts that are
read as an Integer are those that spell one, with a sign or none, in digits of any script with underscores
between them, and the Integer then has a text of its own that reads back; all other texts are refused. -/
theorem integer_texts (setting : Setting) (typeOf : Value → String) (s : Engine) :
    (∀ n : Int, decimalLength n ≤ 4300 → ∃ text, WrittenAs setting s (.integer n) text ∧
      ∀ before after : String, Text.Blank before.toList → Text.Blank after.toList →
        ReadAs typeOf (before ++ text ++ after) n) ∧
    (∀ (n m : Int) text,
      WrittenAs setting s (.integer n) text → WrittenAs setting s (.integer m) text → n = m) ∧
    (∀ text n, ReadAs typeOf text n ↔ Spells text.toList n) ∧
    (∀ text n, ReadAs typeOf text n → ∃ own, WrittenAs setting s (.integer n) own ∧ ReadAs typeOf own n) ∧
    ∀ text, (∀ n, ¬ ReadAs typeOf text n) → Operation.onText typeOf .toInteger text [] =
      .error (.typeMismatch "Integer literal" (Text.quoted text) "'toInteger'") := by
  have returns (n : Int) (short : decimalLength n ≤ digitLimit) (before after : String)
      (first : Text.Blank before.toList) (last : Text.Blank after.toList) :
      ReadAs typeOf (before ++ toString n ++ after) n := by
    rw [readAs_iff, String.toList_append, String.toList_append]
    exact ⟨_, _, _, rfl, first, last, signedNumeral_toString short⟩
  have own (n : Int) (short : decimalLength n ≤ digitLimit) : ReadAs typeOf (toString n) n := by
    have bare := returns n short "" "" (List.forall_mem_nil _) (List.forall_mem_nil _)
    rwa [String.empty_append, String.append_empty] at bare
  refine ⟨?_, ?_, fun _ _ => readAs_iff, ?_, fun _ => onText_toInteger_of_unread⟩
  · intro n short
    exact ⟨toString n, writtenAs_integer.2 ⟨short, rfl⟩, returns n short⟩
  · intro n m text first second
    obtain ⟨short, rfl⟩ := writtenAs_integer.1 first
    obtain ⟨short', is⟩ := writtenAs_integer.1 second
    -- One text is read as one Integer only.
    have both := (own n short).symm.trans (is ▸ own m short')
    simpa using both
  · intro text n read
    have short := decimalLength_le (readAs_iff.1 read)
    exact ⟨toString n, writtenAs_integer.2 ⟨short, rfl⟩, own n short⟩

/-- An Integer below zero between an ideographic space and a line break, one in digits of two scripts, and two
underscores in a row. -/
theorem integer_texts_scripts :
    let typeOf (_ : Value) := ""
    (∃ text, WrittenAs {} {} (.integer (-42)) text ∧ ReadAs typeOf ("\u3000" ++ text ++ "\n") (-42)) ∧
    (∃ own, WrittenAs {} {} (.integer 42) own ∧ ReadAs typeOf own 42) ∧
    Operation.onText typeOf .toInteger "4__2" [] =
      .error (.typeMismatch "Integer literal" (Text.quoted "4__2") "'toInteger'") := by
  intro typeOf
  obtain ⟨returns, -, -, again, refused⟩ := integer_texts {} typeOf {}
  refine ⟨?_, again "+٤_2" 42 rfl, refused "4__2" fun n read => ?_⟩
  · obtain ⟨text, written, read⟩ := returns (-42) (by decide)
    exact ⟨text, written, read _ _ (List.forall_mem_singleton.2 rfl) (List.forall_mem_singleton.2 rfl)⟩
  · cases read

end Engine

end Metamorph
