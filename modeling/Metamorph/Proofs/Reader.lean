import Mathlib.Data.List.Infix
import Mathlib.Data.List.Pairwise
import Metamorph.Proofs.Grouping

/-! A reader for the texts of expressions: words, operators and type tags are cut off at what stands around
them, and what the first word or sign is decides how to go on. -/
namespace Metamorph

namespace Text

def isWordChar (c : Char) : Bool := identifierStarts.has c || identifierContinues.has c

/-- What stands around words in the text of an expression. -/
def delimiters : List Char := [' ', '.', ',', '(', ')', '\x7b', '\x7d', '-', '=']

theorem delimiters_apart : ∀ range ∈ identifierStarts ++ identifierContinues,
    delimiters.all (fun c => c.toNat < range.1 || range.2 < c.toNat) = true := by
  decide +kernel

theorem digits_apart : ∀ range ∈ identifierStarts, range.2 < 48 ∨ 57 < range.1 := by
  decide +kernel

variable {c : Char}

/-- No identifier holds a delimiter. -/
theorem isWordChar_delimiter (delimiter : c ∈ delimiters) : isWordChar c = false := by
  rw [isWordChar, CodePoints.has, CodePoints.has, ← List.any_append, List.any_eq_false]
  intro range member
  have apart := List.all_eq_true.1 (delimiters_apart range member) c delimiter
  simp only [Bool.or_eq_true, Bool.and_eq_true, decide_eq_true_iff] at apart ⊢
  omega

theorem not_isDigit_of_start (start : identifierStarts.has c = true) : c.isDigit = false := by
  obtain ⟨range, member, inside⟩ := List.any_eq_true.1 start
  simp only [Bool.and_eq_true, decide_eq_true_iff] at inside
  rw [← Bool.not_eq_true]
  intro digit
  have ascii : 48 ≤ c.toNat ∧ c.toNat ≤ 57 := by
    rwa [Char.isDigit_iff_toNat] at digit
  have := digits_apart range member
  omega

theorem isWordChar_of_isDigit (digit : c.isDigit = true) : isWordChar c = true := by
  rw [Char.isDigit_iff_toNat] at digit
  refine Bool.or_eq_true_iff.2 (.inr (List.any_eq_true.2 ⟨(0x30, 0x39), List.mem_cons_self, ?_⟩))
  simp only [Bool.and_eq_true, decide_eq_true_iff]
  exact digit

/-- Identifiers, and numerals in digits of ASCII. -/
structure Word (name : String) : Prop where
  written : name ≠ ""
  chars : ∀ c ∈ name.toList, isWordChar c = true

theorem word_of_all {name : String} (written : name ≠ "") (chars : name.toList.all isWordChar = true) :
    Word name :=
  ⟨written, List.all_eq_true.1 chars⟩

theorem word_of_isIdentifier {name : String} (identifier : isIdentifier name = true) : Word name := by
  unfold isIdentifier at identifier
  cases spelling : name.toList with
  | nil => simp [spelling] at identifier
  | cons c rest =>
    simp only [spelling, Bool.and_eq_true, List.all_eq_true] at identifier
    refine ⟨by rintro rfl; simp at spelling, ?_⟩
    rw [spelling]
    exact List.forall_mem_cons.2 ⟨Bool.or_eq_true_iff.2 (.inl identifier.1), identifier.2⟩

/-- No identifier looks like a numeral. -/
theorem head?_of_isIdentifier {name : String} (identifier : isIdentifier name = true) :
    name.toList.head?.any (·.isDigit) = false := by
  unfold isIdentifier at identifier
  cases spelling : name.toList with
  | nil => rfl
  | cons c rest =>
    simp only [spelling, Bool.and_eq_true] at identifier
    exact not_isDigit_of_start identifier.1

/-- A text is cut where the first character comes that does not fit. -/
theorem takeWhile_append {p : Char → Bool} {start rest : List Char} (fits : ∀ c ∈ start, p c = true)
    (apart : ∀ c ∈ rest.head?, p c = false) :
    (start ++ rest).takeWhile p = start ∧ (start ++ rest).dropWhile p = rest := by
  rw [List.takeWhile_append_of_pos fits, List.dropWhile_append_of_pos fits]
  cases rest with
  | nil => exact ⟨List.append_nil start, rfl⟩
  | cons c rest => simp [apart c rfl]

namespace Word
variable {name : String} (word : Word name)
include word

/-- A word ends where a delimiter follows. -/
theorem cut {rest : List Char} (apart : ∀ c ∈ rest.head?, c ∈ delimiters) :
    (name.toList ++ rest).takeWhile isWordChar = name.toList ∧
      (name.toList ++ rest).dropWhile isWordChar = rest :=
  takeWhile_append word.chars fun c first => isWordChar_delimiter (apart c first)

theorem head?_ne {d : Char} (delimiter : d ∈ delimiters) (rest : List Char) :
    (name.toList ++ rest).head? ≠ some d := by
  intro first
  cases spelling : name.toList with
  | nil => exact word.written (String.toList_eq_nil_iff.1 spelling)
  | cons c tail =>
    rw [spelling] at first
    cases first
    have char := word.chars d (spelling ▸ List.mem_cons_self)
    rw [isWordChar_delimiter delimiter] at char
    exact Bool.false_ne_true char

end Word

end Text

/-! The reader. Its first argument bounds the number of steps. -/

/-- An operator between spaces. -/
def readOperator (text : List Char) : Option (BinaryOperator × List Char) := do
  let text ← text.dropPrefix? [' ']
  let op ← BinaryOperator.named? (String.ofList (text.takeWhile (· ≠ ' ')))
  let rest ← (text.dropWhile (· ≠ ' ')).dropPrefix? [' ']
  some (op, rest)

/-- No expression starts with the sign of equality, so one that follows belongs to the type tag. -/
def dropSign? (text : List Char) : Option (List Char) :=
  (text.dropPrefix? bindingSign).filter (·.head? ≠ some '=')

/-- The text before the sign that ends a type tag, and the text behind the sign. -/
def cutTag : List Char → Option (List Char × List Char)
  | [] => none
  | c :: text =>
    match dropSign? (c :: text) with
    | some rest => some ([], rest)
    | none => (cutTag text).map fun (tag, rest) => (c :: tag, rest)

def readTag (text : List Char) : Option (Option String × List Char) :=
  match text.dropPrefix? [' ', ':', ' '] with
  | some rest => (cutTag rest).map fun (tag, rest) => (some (String.ofList tag), rest)
  | none => (dropSign? text).map fun rest => (none, rest)

/-- A word is a numeral when it starts with a digit. -/
def atom (word : String) : Expr :=
  if word.toList.head?.any (·.isDigit) then .literal (.integer (Nat.ofDigitChars 10 word.toList 0)) {}
  else .variable word {}

mutual

def readExpr : Nat → List Char → Option (Expr × List Char)
  | 0, _ => none
  | fuel + 1, '-' :: text => do
    let (operand, rest) ← readExpr fuel text
    some (.unary .neg operand {}, rest)
  | fuel + 1, '(' :: text => do
    let (lhs, rest) ← readExpr fuel text
    let (op, rest) ← readOperator rest
    let (rhs, rest) ← readExpr fuel rest
    let rest ← rest.dropPrefix? [')']
    readSelectors fuel (.binary op lhs rhs {}) rest
  | fuel + 1, text =>
    readWord fuel (String.ofList (text.takeWhile Text.isWordChar)) (text.dropWhile Text.isWordChar)

def readWord : Nat → String → List Char → Option (Expr × List Char)
  | 0, _, _ => none
  | fuel + 1, name, '(' :: text => do
    let (args, rest) ← readAll fuel ')' text
    readSelectors fuel (.call name args {}) rest
  | fuel + 1, name, '\x7b' :: text => do
    let kind ← CollectionKind.named? name
    let (elements, rest) ← readAll fuel '\x7d' text
    readSelectors fuel (.collection kind elements {}) rest
  | fuel + 1, name, ' ' :: text =>
    if name = "not" then do
      let (operand, rest) ← readExpr fuel text
      some (.unary .not operand {}, rest)
    else if name = "if" then do
      let (condition, rest) ← readExpr fuel text
      let rest ← rest.dropPrefix? " then ".toList
      let (thenBranch, rest) ← readExpr fuel rest
      let rest ← rest.dropPrefix? " else ".toList
      let (elseBranch, rest) ← readExpr fuel rest
      let rest ← rest.dropPrefix? " endif".toList
      readSelectors fuel (.conditional condition thenBranch elseBranch {}) rest
    else if name = "let" then do
      let (tag, rest) ← readTag (text.dropWhile Text.isWordChar)
      let (init, rest) ← readExpr fuel rest
      let rest ← rest.dropPrefix? " in ".toList
      let (body, rest) ← readExpr fuel rest
      some (.letIn (String.ofList (text.takeWhile Text.isWordChar)) init body tag {}, rest)
    else readSelectors fuel (atom name) (' ' :: text)
  | fuel + 1, name, text => readSelectors fuel (atom name) text

/-- The expressions before a closing bracket, with or without commas between them. -/
def readAll : Nat → Char → List Char → Option (List Expr × List Char)
  | 0, _, _ => none
  | fuel + 1, close, text =>
    if text.head? = some close then some ([], text.tail)
    else do
      let (e, rest) ← readExpr fuel text
      let (es, rest) ← readAll fuel close ((rest.dropPrefix? [',', ' ']).getD rest)
      some (e :: es, rest)

def readSelectors : Nat → Expr → List Char → Option (Expr × List Char)
  | 0, _, _ => none
  | fuel + 1, e, '.' :: text =>
    let name := String.ofList (text.takeWhile Text.isWordChar)
    match text.dropWhile Text.isWordChar with
    | '(' :: rest => do
      let (args, rest) ← readAll fuel ')' rest
      readSelectors fuel (.method e name args {}) rest
    | rest => readSelectors fuel (.navigation e name {}) rest
  | _ + 1, e, text => some (e, text)

end

/-! Parts of texts. -/

theorem dropPrefix?_append (start rest : List Char) : (start ++ rest).dropPrefix? start = some rest :=
  List.dropPrefix?_append_of_beq rest BEq.rfl

theorem BinaryOperator.named?_text (op : BinaryOperator) : named? op.text = some op := by
  cases op <;> rfl

theorem CollectionKind.named?_text (kind : CollectionKind) : named? kind.text = some kind := by
  cases kind <;> rfl

theorem readOperator_text (op : BinaryOperator) (rest : List Char) :
    readOperator (' ' :: (op.text.toList ++ ' ' :: rest)) = some (op, rest) := by
  have word : op.text.toList.all (fun c => decide (c ≠ ' ')) = true := by
    cases op <;> decide
  have apart : ∀ c ∈ (' ' :: rest).head?, decide (c ≠ ' ') = false := by simp
  have space (text : List Char) : (' ' :: text).dropPrefix? [' '] = some text := dropPrefix?_append [' '] text
  obtain ⟨spelling, others⟩ := Text.takeWhile_append (List.all_eq_true.1 word) apart
  rw [readOperator, space, Option.bind_eq_bind, Option.bind_some, spelling, others, String.ofList_toList,
    op.named?_text, space]
  rfl

theorem dropSign?_bindingSign {rest : List Char} (apart : rest.head? ≠ some '=') :
    dropSign? (bindingSign ++ rest) = some rest := by
  rw [dropSign?, dropPrefix?_append]
  exact Option.filter_some_pos (decide_eq_true apart)

/-- Where a tag without the sign goes on, no sign is found: one that starts at its end is followed by another. -/
theorem dropSign?_tag {c : Char} {tag rest : List Char} (clear : ¬ bindingSign <:+: c :: tag) :
    dropSign? (c :: tag ++ bindingSign ++ rest) = none := by
  rw [dropSign?, Option.filter_eq_none_iff]
  intro found split
  obtain ⟨start, same, eq⟩ := List.dropPrefix?_eq_some_iff.1 split
  rw [eq_of_beq eq] at same
  match tag with
  | [] => simp [bindingSign] at same
  | [d] =>
    obtain ⟨-, -, rfl⟩ : c = ' ' ∧ d = '=' ∧ '=' :: ' ' :: rest = found := by simpa [bindingSign] using same
    simp
  | d :: e :: tag =>
    obtain ⟨rfl, rfl, rfl, -⟩ : c = ' ' ∧ d = '=' ∧ e = ' ' ∧ tag ++ bindingSign ++ rest = found := by
      simpa [bindingSign] using same
    exact absurd (List.prefix_append bindingSign tag).isInfix clear

theorem cutTag_append {tag rest : List Char} (clear : ¬ bindingSign <:+: tag)
    (apart : rest.head? ≠ some '=') : cutTag (tag ++ bindingSign ++ rest) = some (tag, rest) := by
  induction tag with
  | nil =>
    have sign := dropSign?_bindingSign apart
    rw [bindingSign, List.cons_append] at sign
    rw [bindingSign, List.nil_append, List.cons_append, cutTag, sign]
  | cons c tag ih =>
    have clear' : ¬ bindingSign <:+: tag := fun inside => clear (inside.trans (List.suffix_cons c tag).isInfix)
    have off : dropSign? (c :: tag ++ bindingSign ++ rest) = none := dropSign?_tag clear
    rw [List.cons_append, List.cons_append] at off ⊢
    rw [cutTag, off, ih clear']
    rfl

theorem readTag_text {tag : Option String} {rest : List Char}
    (clear : ∀ t ∈ tag, ¬ bindingSign <:+: t.toList) (apart : rest.head? ≠ some '=') :
    readTag ((typeTagText tag).toList ++ bindingSign ++ rest) = some (tag.filter (!·.isEmpty), rest) := by
  have untagged : readTag (bindingSign ++ rest) = some (none, rest) := by
    have colon : (bindingSign ++ rest).dropPrefix? [' ', ':', ' '] = none := rfl
    rw [readTag, colon, dropSign?_bindingSign apart]
    rfl
  match tag, clear with
  | none, _ => exact untagged
  | some t, clear =>
    cases empty : t.isEmpty with
    | true => simpa [typeTagText, Option.filter, empty] using untagged
    | false =>
      have text : (typeTagText (some t)).toList ++ bindingSign ++ rest =
          [' ', ':', ' '] ++ (t.toList ++ bindingSign ++ rest) := by
        simp [typeTagText, empty]
      rw [text, readTag, dropPrefix?_append]
      simp only [cutTag_append (clear t rfl) apart]
      simp [Option.filter, empty]

end Metamorph
