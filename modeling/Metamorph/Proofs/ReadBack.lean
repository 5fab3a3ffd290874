import Mathlib.Order.Filter.AtTopBot.Basic
import Metamorph.Proofs.IntegerText
import Metamorph.Proofs.Reader

/-! Reading an expression back from its text. Up to its places and empty type tags the regrouped form of an
expression is found again, so two expressions have one text exactly when they regroup alike. -/
namespace Metamorph
open Filter

theorem eventually_of_succ {p : Nat → Prop} (later : ∀ᶠ n in atTop, p (n + 1)) : ∀ᶠ n in atTop, p n := by
  rw [← map_add_atTop_eq_nat 1]
  exact later

/-- A text that starts with a word is read as the word says. -/
theorem readExpr_word {name : String} {rest : List Char} {result : Expr × List Char} (word : Text.Word name)
    (apart : ∀ c ∈ rest.head?, c ∈ Text.delimiters)
    (reads : ∀ᶠ fuel in atTop, readWord fuel name rest = some result) :
    ∀ᶠ fuel in atTop, readExpr fuel (name.toList ++ rest) = some result := by
  obtain ⟨same, others⟩ := word.cut apart
  refine eventually_of_succ (reads.mono fun fuel read => ?_)
  rw [readExpr, same, others, String.ofList_toList, read]
  · exact fun text start => word.head?_ne (show '-' ∈ Text.delimiters by decide) rest (start ▸ rfl)
  · exact fun text start => word.head?_ne (show '(' ∈ Text.delimiters by decide) rest (start ▸ rfl)

/-- What may follow an expression. -/
def Ends (rest : List Char) : Prop := ∀ c ∈ rest.head?, c ∈ [' ', ',', ')', '\x7d']

/-- What may follow an expression that something may be selected from. -/
def Stops (rest : List Char) : Prop := ∀ c ∈ rest.head?, c ∈ ['.', ' ', ',', ')', '\x7d']

theorem Ends.stops {rest : List Char} (ends : Ends rest) : Stops rest :=
  fun c first => List.mem_cons_of_mem '.' (ends c first)

theorem Stops.apart {rest : List Char} (stops : Stops rest) : ∀ c ∈ rest.head?, c ∈ Text.delimiters := by
  intro c first
  have := stops c first
  simp only [List.mem_cons, List.not_mem_nil, or_false] at this
  rcases this with rfl | rfl | rfl | rfl | rfl <;> decide

/-- No expression starts with one of these. -/
def closings : List Char := [')', '\x7d', '=']

/-- The expression is found at the start of a text. From a closed one the reader goes on with the selectors
behind it. -/
structure Readable (e : Expr) : Prop where
  starts : ∀ d ∈ closings, ∀ rest, (e.pretty.toList ++ rest).head? ≠ some d
  leads : e.isOpen = false → ∀ rest, Stops rest → ∀ result,
    (∀ᶠ fuel in atTop, readSelectors fuel e.bare rest = some result) →
      ∀ᶠ fuel in atTop, readExpr fuel (e.pretty.toList ++ rest) = some result
  reads : ∀ rest, Ends rest →
    ∀ᶠ fuel in atTop, readExpr fuel (e.pretty.toList ++ rest) = some (e.bare, rest)

theorem readWord_atom {name : String} {rest : List Char} (free : name ∉ reservedWords) (stops : Stops rest)
    (fuel : Nat) : readWord (fuel + 1) name rest = readSelectors fuel (atom name) rest := by
  simp only [reservedWords, List.mem_cons, List.not_mem_nil, or_false, not_or] at free
  rw [readWord.eq_def]
  split
  case h_1 => contradiction
  case h_2 => exact absurd (stops '(' rfl) (by decide)
  case h_3 => exact absurd (stops '\x7b' rfl) (by decide)
  case h_4 same =>
    cases same
    rw [if_neg free.1, if_neg free.2.1, if_neg free.2.2]
  case h_5 same _ _ _ =>
    cases same
    rfl

theorem readSelectors_ends (e : Expr) {rest : List Char} (ends : Ends rest) :
    ∀ᶠ fuel in atTop, readSelectors fuel e rest = some (e, rest) := by
  refine eventually_of_succ (.of_forall fun fuel => ?_)
  rw [readSelectors]
  rintro text rfl
  exact absurd (ends '.' rfl) (by decide)

namespace Readable
variable {lhs rhs e : Expr}

theorem of_closed (starts : ∀ d ∈ closings, ∀ rest, (e.pretty.toList ++ rest).head? ≠ some d)
    (leads : ∀ rest, Stops rest → ∀ result,
      (∀ᶠ fuel in atTop, readSelectors fuel e.bare rest = some result) →
        ∀ᶠ fuel in atTop, readExpr fuel (e.pretty.toList ++ rest) = some result) : Readable e where
  starts := starts
  leads _ := leads
  reads rest ends := leads rest ends.stops _ (readSelectors_ends e.bare ends)

theorem binary (left : Readable lhs) (right : Readable rhs) (op : BinaryOperator) (loc : Location) :
    Readable (.binary op lhs rhs loc) := by
  refine .of_closed (by simp [Expr.pretty, closings]) fun rest _ result selects => ?_
  have text : (Expr.binary op lhs rhs loc).pretty.toList ++ rest =
      '(' :: (lhs.pretty.toList ++ ' ' :: (op.text.toList ++ ' ' :: (rhs.pretty.toList ++ ([')'] ++ rest)))) := by
    simp [Expr.pretty]
  have first := left.reads (' ' :: (op.text.toList ++ ' ' :: (rhs.pretty.toList ++ ([')'] ++ rest)))) (by simp [Ends])
  have second := right.reads ([')'] ++ rest) (by simp [Ends])
  rw [text]
  apply eventually_of_succ
  filter_upwards [first, second, selects] with fuel first second selects
  simp only [readExpr, first, second, readOperator_text, dropPrefix?_append, Option.bind_eq_bind, Option.bind_some]
  exact selects

theorem unary (operand : Readable e) (op : UnaryOperator) (loc : Location) : Readable (.unary op e loc) where
  starts := by cases op <;> simp [Expr.pretty, closings]
  leads closed := nomatch closed
  reads rest ends := by
    have inner := operand.reads rest ends
    cases op with
    | neg =>
      have text : (Expr.unary .neg e loc).pretty.toList ++ rest = '-' :: (e.pretty.toList ++ rest) := by
        simp [Expr.pretty]
      rw [text]
      apply eventually_of_succ
      filter_upwards [inner] with fuel inner
      simp only [readExpr, inner, Option.bind_eq_bind, Option.bind_some, Expr.bare]
    | not =>
      have text : (Expr.unary .not e loc).pretty.toList ++ rest =
          "not".toList ++ ' ' :: (e.pretty.toList ++ rest) := by
        simp [Expr.pretty]
      rw [text]
      refine readExpr_word (Text.word_of_all (by decide) (by decide +kernel)) (by simp [Text.delimiters]) (eventually_of_succ ?_)
      filter_upwards [inner] with fuel inner
      simp only [readWord, if_true, inner, Option.bind_eq_bind, Option.bind_some, Expr.bare]

theorem conditional {condition thenBranch elseBranch : Expr} (test : Readable condition)
    (first : Readable thenBranch) (second : Readable elseBranch) (loc : Location) :
    Readable (.conditional condition thenBranch elseBranch loc) := by
  refine .of_closed (by simp [Expr.pretty, closings]) fun rest _ result selects => ?_
  let afterElse := " endif".toList ++ rest
  let afterThen := " else ".toList ++ (elseBranch.pretty.toList ++ afterElse)
  let afterTest := " then ".toList ++ (thenBranch.pretty.toList ++ afterThen)
  have text : (Expr.conditional condition thenBranch elseBranch loc).pretty.toList ++ rest =
      "if".toList ++ ' ' :: (condition.pretty.toList ++ afterTest) := by
    simp [Expr.pretty, afterTest, afterThen, afterElse]
  have test := test.reads afterTest (by simp [Ends, afterTest])
  have first := first.reads afterThen (by simp [Ends, afterThen])
  have second := second.reads afterElse (by simp [Ends, afterElse])
  rw [text]
  refine readExpr_word (Text.word_of_all (by decide) (by decide +kernel)) (by simp [Text.delimiters]) (eventually_of_succ ?_)
  filter_upwards [test, first, second, selects] with fuel test first second selects
  have distinct : "if" ≠ "not" := by decide
  simp only [readWord, distinct, if_false, if_true, test, first, second, dropPrefix?_append, afterTest, afterThen,
    afterElse, Option.bind_eq_bind, Option.bind_some]
  exact selects

theorem letIn {init body : Expr} {name : String} {tag : Option String} (value : Readable init)
    (scope : Readable body) (word : Text.Word name)
    (clear : ∀ t ∈ tag, ¬ bindingSign <:+: t.toList) (loc : Location) :
    Readable (.letIn name init body tag loc) where
  starts := by simp [Expr.pretty, closings]
  leads closed := nomatch closed
  reads rest ends := by
    let afterInit := " in ".toList ++ (body.pretty.toList ++ rest)
    let afterName := (typeTagText tag).toList ++ bindingSign ++ (init.pretty.toList ++ afterInit)
    have text : (Expr.letIn name init body tag loc).pretty.toList ++ rest =
        "let".toList ++ ' ' :: (name.toList ++ afterName) := by
      simp [Expr.pretty, afterName, afterInit, bindingSign]
    have space : afterName.head? = some ' ' := by
      unfold afterName typeTagText
      split
      · rfl
      · split <;> simp [bindingSign]
    have delimited : ∀ c ∈ afterName.head?, c ∈ Text.delimiters := by simp [space, Text.delimiters]
    obtain ⟨same, others⟩ := word.cut delimited
    have tagged : readTag afterName = some (tag.filter (!·.isEmpty), init.pretty.toList ++ afterInit) :=
      readTag_text clear (value.starts '=' (by decide) afterInit)
    have value := value.reads afterInit (by simp [Ends, afterInit])
    have scope := scope.reads rest ends
    rw [text]
    refine readExpr_word (Text.word_of_all (by decide) (by decide +kernel)) (by simp [Text.delimiters]) (eventually_of_succ ?_)
    filter_upwards [value, scope] with fuel value scope
    have distinct : "let" ≠ "not" ∧ "let" ≠ "if" := by decide
    simp only [readWord, distinct, if_false, if_true, same, others, tagged, value, scope, dropPrefix?_append,
      afterInit, Option.bind_eq_bind, Option.bind_some, String.ofList_toList, Expr.bare]

theorem starts_word {name : String} (word : Text.Word name) :
    ∀ d ∈ closings, ∀ rest, (name.toList ++ rest).head? ≠ some d := by
  have delimiters : ∀ d ∈ closings, d ∈ Text.delimiters := by simp [closings, Text.delimiters]
  exact fun d closing => word.head?_ne (delimiters d closing)

/-- A word that opens no form stands for itself. -/
theorem of_word {name : String} (word : Text.Word name) (free : name ∉ reservedWords) (text : e.pretty = name)
    (bare : e.bare = atom name) : Readable e := by
  refine .of_closed (text ▸ starts_word word) fun rest stops result selects => ?_
  rw [text]
  refine readExpr_word word stops.apart (eventually_of_succ ?_)
  filter_upwards [selects] with fuel selects
  rw [readWord_atom free stops, ← bare, selects]

theorem reference {name : String} (identifier : Text.isIdentifier name = true) (free : name ∉ reservedWords)
    (loc : Location) : Readable (.variable name loc) := by
  refine of_word (Text.word_of_isIdentifier identifier) free rfl ?_
  simp [Expr.bare, atom, Text.head?_of_isIdentifier identifier]

theorem numeral (n : Nat) (loc : Location) : Readable (.literal (.integer n) loc) := by
  have digits : ∀ c ∈ n.repr.toList, c.isDigit = true := by
    rw [Nat.toList_repr]
    exact fun c => Nat.isDigit_of_mem_toDigits (by decide) (by decide)
  obtain ⟨c, tail, spelling⟩ := List.exists_cons_of_ne_nil (show n.repr.toList ≠ [] by simp)
  have first : c.isDigit = true := digits c (spelling ▸ List.mem_cons_self)
  refine of_word ⟨by simp, fun c member => Text.isWordChar_of_isDigit (digits c member)⟩ ?_ rfl ?_
  · intro reserved
    have letters : ∀ word ∈ reservedWords, word.toList.any (·.isDigit) = false := by decide
    have none := List.any_eq_false.1 (letters _ reserved) c (spelling ▸ List.mem_cons_self)
    exact none first
  · have value : Nat.ofDigitChars 10 n.repr.toList 0 = n := by
      rw [Nat.toList_repr, Nat.ofDigitChars_ten_toDigits]
    have leading : n.repr.toList.head?.any (·.isDigit) = true := by simp [spelling, first]
    rw [Expr.bare, atom, if_pos leading, value]

/-- Behind a selector the reader goes on with the selected expression. -/
theorem navigation {feature : String} (source : Readable e) (closed : e.isOpen = false)
    (word : Text.Word feature) (loc : Location) : Readable (.navigation e feature loc) := by
  have text (rest : List Char) : (Expr.navigation e feature loc).pretty.toList ++ rest =
      e.pretty.toList ++ '.' :: (feature.toList ++ rest) := by
    simp [Expr.pretty]
  refine .of_closed (fun d closing rest => ?_) fun rest stops result selects => ?_
  · rw [text]
    exact source.starts d closing _
  · obtain ⟨same, others⟩ := word.cut stops.apart
    rw [text]
    refine source.leads closed _ (by simp [Stops]) _ (eventually_of_succ ?_)
    filter_upwards [selects] with fuel selects
    simp only [readSelectors, same, others, String.ofList_toList]
    split
    · exact absurd (stops '(' rfl) (by decide)
    · exact selects

/-- A list of expressions is found before its closing bracket. -/
theorem all {es : List Expr} (readable : ∀ e ∈ es, Readable e) {close : Char} (closing : close ∈ [')', '\x7d'])
    (rest : List Char) : ∀ᶠ fuel in atTop,
      readAll fuel close ((", ".intercalate (prettyAll es)).toList ++ close :: rest) =
        some (Expr.bareAll es, rest) := by
  have bracket : close ∈ closings ∧ close ∈ [' ', ',', ')', '\x7d'] ∧ close ≠ ',' := by
    simp only [List.mem_cons, List.not_mem_nil, or_false] at closing
    rcases closing with rfl | rfl <;> decide
  have step {e : Expr} (readable : Readable e) {es : List Expr} {more more' : List Char} (ends : Ends more)
      (comma : (more.dropPrefix? [',', ' ']).getD more = more')
      (others : ∀ᶠ fuel in atTop, readAll fuel close more' = some (Expr.bareAll es, rest)) :
      ∀ᶠ fuel in atTop, readAll fuel close (e.pretty.toList ++ more) =
        some (Expr.bareAll (e :: es), rest) := by
    apply eventually_of_succ
    filter_upwards [readable.reads more ends, others] with fuel first others
    rw [readAll, if_neg (readable.starts close bracket.1 more)]
    simp only [first, comma, others, Option.bind_eq_bind, Option.bind_some, Expr.bareAll]
  induction es with
  | nil =>
    refine eventually_of_succ (.of_forall fun fuel => ?_)
    simp [prettyAll, Expr.bareAll, readAll]
  | cons e es ih =>
    obtain ⟨first, others⟩ := List.forall_mem_cons.1 readable
    have ih := ih others
    cases es with
    | nil =>
      have ends : Ends (close :: rest) := by simpa [Ends] using bracket.2.1
      have comma : ((close :: rest).dropPrefix? [',', ' ']).getD (close :: rest) = close :: rest := by
        simp [List.dropPrefix?, bracket.2.2]
      simpa [prettyAll] using step first ends comma (by simpa [prettyAll] using ih)
    | cons e' es =>
      have text : (", ".intercalate (prettyAll (e :: e' :: es))).toList ++ close :: rest =
          e.pretty.toList ++ ([',', ' '] ++ ((", ".intercalate (prettyAll (e' :: es))).toList ++ close :: rest)) := by
        simp [prettyAll]
      rw [text]
      exact step first (by simp [Ends]) (by rw [dropPrefix?_append, Option.getD_some]) ih

theorem call {name : String} {args : List Expr} (word : Text.Word name)
    (operands : ∀ e ∈ args, Readable e) (loc : Location) : Readable (.call name args loc) := by
  have text (rest : List Char) : (Expr.call name args loc).pretty.toList ++ rest =
      name.toList ++ '(' :: ((", ".intercalate (prettyAll args)).toList ++ ')' :: rest) := by
    simp [Expr.pretty]
  refine .of_closed (fun d closing rest => ?_) fun rest stops result selects => ?_
  · rw [text]
    exact starts_word word d closing _
  · rw [text]
    refine readExpr_word word (by simp [Text.delimiters]) (eventually_of_succ ?_)
    filter_upwards [all operands (show ')' ∈ [')', '\x7d'] by decide) rest, selects] with fuel operands selects
    simp only [readWord, operands, Option.bind_eq_bind, Option.bind_some]
    exact selects

theorem collection {elements : List Expr} (readable : ∀ e ∈ elements, Readable e) (kind : CollectionKind)
    (loc : Location) : Readable (.collection kind elements loc) := by
  have word : Text.Word kind.text := by
    apply Text.word_of_all
    · cases kind <;> decide
    · cases kind <;> decide +kernel
  have text (rest : List Char) : (Expr.collection kind elements loc).pretty.toList ++ rest =
      kind.text.toList ++ '\x7b' :: ((", ".intercalate (prettyAll elements)).toList ++ '\x7d' :: rest) := by
    simp [Expr.pretty, braced]
  refine .of_closed (fun d closing rest => ?_) fun rest stops result selects => ?_
  · rw [text]
    exact starts_word word d closing _
  · rw [text]
    refine readExpr_word word (by simp [Text.delimiters]) (eventually_of_succ ?_)
    filter_upwards [all readable (show '\x7d' ∈ [')', '\x7d'] by decide) rest, selects] with fuel readable selects
    simp only [readWord, kind.named?_text, readable, Option.bind_eq_bind, Option.bind_some]
    exact selects

theorem method {name : String} {args : List Expr} (source : Readable e) (closed : e.isOpen = false)
    (word : Text.Word name) (operands : ∀ e ∈ args, Readable e) (loc : Location) :
    Readable (.method e name args loc) := by
  let after (rest : List Char) := '(' :: ((", ".intercalate (prettyAll args)).toList ++ ')' :: rest)
  have text (rest : List Char) : (Expr.method e name args loc).pretty.toList ++ rest =
      e.pretty.toList ++ '.' :: (name.toList ++ after rest) := by
    simp [Expr.pretty, after]
  refine .of_closed (fun d closing rest => ?_) fun rest stops result selects => ?_
  · rw [text]
    exact source.starts d closing _
  · have apart : ∀ c ∈ (after rest).head?, c ∈ Text.delimiters := by simp [after, Text.delimiters]
    obtain ⟨same, others⟩ := word.cut apart
    rw [text]
    refine source.leads closed _ (by simp [Stops]) _ (eventually_of_succ ?_)
    filter_upwards [all operands (show ')' ∈ [')', '\x7d'] by decide) rest, selects] with fuel operands selects
    simp only [readSelectors, same, others, String.ofList_toList, after, operands, Option.bind_eq_bind,
      Option.bind_some]
    exact selects

end Readable

/-- Every expression whose selectors are inside can be read back. -/
theorem Expr.Canonical.readable {e : Expr} (canonical : e.Canonical) : Readable e := by
  induction canonical with
  | numeral n loc => exact .numeral n loc
  | reference word free loc => exact .reference word free loc
  | navigation built closed word loc ih => exact ih.navigation closed (Text.word_of_isIdentifier word) loc
  | binary left right op loc ihLeft ihRight => exact ihLeft.binary ihRight op loc
  | unary built op loc ih => exact ih.unary op loc
  | conditional test first second loc ihTest ihFirst ihSecond => exact ihTest.conditional ihFirst ihSecond loc
  | letIn word clear value scope loc ihValue ihScope =>
    exact ihValue.letIn ihScope (Text.word_of_isIdentifier word) clear loc
  | collection built kind loc ih => exact .collection ih kind loc
  | method built closed word operands loc ih ihs => exact ih.method closed (Text.word_of_isIdentifier word) ihs loc
  | call word operands loc ihs => exact .call (Text.word_of_isIdentifier word) ihs loc

theorem Expr.Canonical.eq_of_pretty {e e' : Expr} (canonical : e.Canonical) (canonical' : e'.Canonical)
    (same : e.pretty = e'.pretty) : e.bare = e'.bare := by
  have ends : Ends [] := by simp [Ends]
  have both := (canonical.readable.reads [] ends).and (canonical'.readable.reads [] ends)
  obtain ⟨fuel, read, read'⟩ := both.exists
  rw [same, read'] at read
  exact (congrArg Prod.fst (Option.some.inj read)).symm

/-- The text shows everything but places, empty type tags, and whether a selector behind an open form selects
from the form or from the part at its end. Where no selector selects from an open form, it shows the whole
structure. -/
theorem Expr.pretty_eq_iff {e e' : Expr} (plain : e.Plain) (plain' : e'.Plain) :
    (e.pretty = e'.pretty ↔ e.regrouped.bare = e'.regrouped.bare) ∧
      (e.Canonical → e'.Canonical → (e.pretty = e'.pretty ↔ e.bare = e'.bare)) := by
  have shown : e.pretty = e'.pretty ↔ e.regrouped.bare = e'.regrouped.bare := by
    constructor
    · intro same
      apply plain.canonical.eq_of_pretty plain'.canonical
      rw [plain.pretty_regrouped, plain'.pretty_regrouped, same]
    · intro same
      calc e.pretty = e.regrouped.bare.pretty := by
            rw [plain.canonical.pretty_bare, plain.pretty_regrouped]
        _ = e'.regrouped.bare.pretty := by rw [same]
        _ = e'.pretty := by rw [plain'.canonical.pretty_bare, plain'.pretty_regrouped]
  refine ⟨shown, fun canonical canonical' => ?_⟩
  rw [shown, canonical.regrouped_eq, canonical'.regrouped_eq]

theorem Expr.pretty_eq_iff_let :
    let value : Expr := .unary .neg (.variable "x" {}) {}
    let zero : Expr := .literal (.integer 0) {}
    let whole : Expr := .method (.letIn "n" value (.variable "n" {}) (some "Integer") {}) "max" [zero] {}
    let part : Expr := .letIn "n" value (.method (.variable "n" {}) "max" [zero] {}) (some "Integer") ⟨"m", 1, 1⟩
    whole.Plain ∧ part.Plain ∧ (whole.pretty = part.pretty ↔ whole.regrouped.bare = part.regrouped.bare) ∧
      (whole.Canonical → part.Canonical → (whole.pretty = part.pretty ↔ whole.bare = part.bare)) := by
  intro value zero whole part
  have clear : ∀ t ∈ some "Integer", ¬ bindingSign <:+: t.toList := by decide
  have negated : value.Plain := .unary (.reference (by decide) (by decide) _) .neg _
  have name : (Expr.variable "n" {}).Plain := .reference (by decide) (by decide) _
  have args : ∀ e ∈ [zero], e.Plain := List.forall_mem_singleton.2 (.numeral 0 _)
  have plain : whole.Plain :=
    .method (.letIn (by decide) clear negated name _) trivial (by decide) args _
  have plain' : part.Plain :=
    .letIn (by decide) clear negated (.method name trivial (by decide) args _) _
  exact ⟨plain, plain', pretty_eq_iff plain plain'⟩

/-- One text for two expressions: the sign of the operator may stand before the whole navigation or before its
source, and a type tag may hold the start of another `let`. -/
theorem Expr.pretty_ambiguous :
    let x : Expr := .variable "x" {}
    let whole : Expr := .navigation (.unary .neg x {}) "f" {}
    let part : Expr := .unary .neg (.navigation x "f" {}) {}
    let number (n : Nat) : Expr := .literal (.integer n) {}
    let single (tag : Option String) : Expr := .letIn "x" (number 2) (number 3) tag {}
    let double (tag tag' : Option String) : Expr :=
      .letIn "x" (number 1) (.letIn "y" (number 2) (number 3) tag' {}) tag {}
    whole.Plain ∧ part.Plain ∧ whole.pretty = part.pretty ∧ whole.bare ≠ part.bare ∧
      (single (some "T = 1 in let y : U")).pretty = (double (some "T") (some "U")).pretty ∧
        ∀ tag tag' tag'', (single tag).bare ≠ (double tag' tag'').bare := by
  intro x whole part number single double
  have name : x.Plain := .reference (by decide) (by decide) _
  refine ⟨.navigation (.unary name .neg _) trivial (by decide) _,
    .unary (.navigation name trivial (by decide) _) .neg _, rfl, ?_, ?_, ?_⟩
  · exact nofun
  · decide
  · intro tag tag' tag'' same
    simp [single, double, number, bare] at same

end Metamorph
