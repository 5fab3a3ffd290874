import Metamorph.Operation.Operator
import Metamorph.Proofs.ValueOrder

/-! Comparison of values. Numbers of both types stand in one line and texts in another, and what the operators
say of two values of a line is what is so of their places. Equality goes by keys and order by exact values;
that the two fit together is because both are faithful to the places. -/
namespace Metamorph

namespace Number

theorem aligned_swap (m e n f : Int) : aligned n f m e = (aligned m e n f).swap := by
  simp only [aligned, Prod.swap_prod_mk, min_comm]

theorem aligned_eq_iff {m e n f : Int} :
    (aligned m e n f).1 = (aligned m e n f).2 ↔ (m : ℚ) * 2 ^ e = n * 2 ^ f := by
  have first : (aligned m e n f).1 < (aligned m e n f).2 ↔ _ := aligned_lt_iff
  have second : (aligned n f m e).1 < (aligned n f m e).2 ↔ _ := aligned_lt_iff
  rw [aligned_swap] at second
  simp only [eq_iff_le_not_lt, ← not_lt, first]
  exact and_congr_left' second.not

theorem Exact.eq_iff {x y : Exact} {a b : ℚ ⊕ Bool} (first : x.amount? = some a)
    (second : y.amount? = some b) : x.eq y ↔ level a = level b := by
  rw [level_injective.eq_iff]
  cases x with
  | finite m e =>
    obtain rfl := Option.some.inj first
    cases y with
    | finite n f =>
      obtain rfl := Option.some.inj second
      rw [Sum.inl.injEq, ← aligned_eq_iff]
      simp [Exact.eq]
    | infinite negative =>
      obtain rfl := Option.some.inj second
      simp [Exact.eq]
    | notANumber => cases second
  | infinite negative =>
    obtain rfl := Option.some.inj first
    cases y with
    | finite n f =>
      obtain rfl := Option.some.inj second
      simp [Exact.eq]
    | infinite other =>
      obtain rfl := Option.some.inj second
      simp [Exact.eq]
    | notANumber => cases second
  | notANumber => cases first

theorem Exact.le_iff {x y : Exact} {a b : ℚ ⊕ Bool} (first : x.amount? = some a)
    (second : y.amount? = some b) : x.le y ↔ level a ≤ level b := by
  rw [Exact.le, Bool.or_eq_true, Exact.lt_iff first second, Exact.eq_iff first second, le_iff_lt_or_eq]

end Number

namespace Value
open Number Operation
variable {v w : Value} {a b : Level}

theorem precedesOrEqual_iff_level (first : v.level? = some a) (second : w.level? = some b) :
    precedesOrEqual v w ↔ a ≤ b := by
  obtain ⟨amount, denotes, rfl⟩ := Option.map_eq_some_iff.1 first
  obtain ⟨other, denotes', rfl⟩ := Option.map_eq_some_iff.1 second
  obtain ⟨x, exactly, is⟩ := exactValue?_of_amount denotes
  obtain ⟨y, exactly', is'⟩ := exactValue?_of_amount denotes'
  have compared : precedesOrEqual v w = x.le y := by
    cases v with
    | integer | real => simp only [precedesOrEqual, exactly, exactly']
    | _ => cases denotes
  rw [compared, Exact.le_iff is is']

/-- Integers, and Reals that are numbers. -/
inductive Numeric : Value → Prop
  | integer (n : Int) : Numeric (integer n)
  | real {x : Float} (number : exact x ≠ .notANumber) : Numeric (real x)

theorem Numeric.level (numeric : v.Numeric) : v.level? = some v.numberLevel := by
  have stands : ∃ a, v.level? = some a := by
    cases numeric with
    | integer n => exact ⟨_, rfl⟩
    | @real x number =>
      cases form : exact x with
      | finite m e => exact ⟨_, congrArg (fun is => is.amount?.map Number.level) form⟩
      | infinite negative => exact ⟨_, congrArg (fun is => is.amount?.map Number.level) form⟩
      | notANumber => exact absurd form number
  obtain ⟨a, is⟩ := stands
  rw [is, numberLevel_eq is]

end Value

namespace Operation
open Value
variable {typeOf : Value → String} {v w : Value}

/-- Both are numbers or both are texts. -/
def Together (v w : Value) : Prop :=
  v.isNumber = true ∧ w.isNumber = true ∨ v.isString = true ∧ w.isString = true

instance : Decidable (Together v w) := inferInstanceAs (Decidable (_ ∧ _ ∨ _ ∧ _))

theorem together_iff :
    (v.isOrderable && w.isOrderable && v.isNumber == w.isNumber) = true ↔ Together v w := by
  unfold Together isOrderable
  cases v <;> cases w <;> simp [isNumber, isString]

/-- What a comparison of two values of one line comes to. -/
def compared (op : BinaryOperator) (v w : Value) : Bool :=
  match op with
  | .lt => precedes v w
  | .le => precedesOrEqual v w
  | .gt => precedes w v
  | _ => precedesOrEqual w v

theorem binary_of_comparison {op : BinaryOperator} (comparison : op.isComparison = true) :
    binary typeOf op v w = (compare typeOf op v w).map .boolean := by
  cases op with
  | lt | le | gt | ge => rfl
  | _ => cases comparison

theorem binary_of_together {op : BinaryOperator} (comparison : op.isComparison = true)
    (together : Together v w) : binary typeOf op v w = .ok (.boolean (compared op v w)) := by
  have decided : compare typeOf op v w = .ok (compared op v w) := if_pos (together_iff.2 together)
  rw [binary_of_comparison comparison, decided]
  rfl

theorem binary_of_apart {op : BinaryOperator} (comparison : op.isComparison = true)
    (apart : ¬Together v w) :
    binary typeOf op v w =
      .error (.typeMismatch "two numbers or two Strings" (operandTypes typeOf op v w) (inQuotes op.text)) := by
  have refused : compare typeOf op v w = .error _ := if_neg (together_iff.not.2 apart)
  rw [binary_of_comparison comparison, refused]
  rfl

/-- The operator says that it is so. -/
def Says (typeOf : Value → String) (op : BinaryOperator) (v w : Value) : Prop :=
  binary typeOf op v w = .ok (.boolean true)

theorem says_iff {op : BinaryOperator} {so : Bool} (answers : binary typeOf op v w = .ok (.boolean so)) :
    Says typeOf op v w ↔ so = true := by
  rw [Says, answers, Except.ok.injEq, Value.boolean.injEq]

/-- What the operators say of the values of a family that is in line. -/
structure InLine (typeOf : Value → String) (family : Value → Prop) : Prop where
  -- No comparison fails or gives anything but a Boolean.
  answers : ∀ v w, family v → family w →
    ∀ op : BinaryOperator, op.isComparison = true ∨ op = .eq ∨ op = .ne →
      ∃ so, binary typeOf op v w = .ok (.boolean so)
  trichotomy : ∀ v w, family v → family w →
    Says typeOf .lt v w ∧ ¬Says typeOf .eq v w ∧ ¬Says typeOf .lt w v ∨
      ¬Says typeOf .lt v w ∧ Says typeOf .eq v w ∧ ¬Says typeOf .lt w v ∨
      ¬Says typeOf .lt v w ∧ ¬Says typeOf .eq v w ∧ Says typeOf .lt w v
  le_iff : ∀ v w, family v → family w →
    (Says typeOf .le v w ↔ Says typeOf .lt v w ∨ Says typeOf .eq v w)
  gt_iff : ∀ v w, family v → family w → (Says typeOf .gt v w ↔ Says typeOf .lt w v)
  ge_iff : ∀ v w, family v → family w → (Says typeOf .ge v w ↔ Says typeOf .le w v)
  ne_iff : ∀ v w, family v → family w → (Says typeOf .ne v w ↔ ¬Says typeOf .eq v w)
  trans : ∀ u v w, family u → family v → family w →
    Says typeOf .lt u v → Says typeOf .lt v w → Says typeOf .lt u w
  -- Equal values are before and after the same ones.
  replaces : ∀ u v w, family u → family v → family w → Says typeOf .eq v w →
    (Says typeOf .lt u v ↔ Says typeOf .lt u w) ∧ (Says typeOf .lt v u ↔ Says typeOf .lt w u)

section
variable {α : Type} [LinearOrder α] {family : Value → Prop}

/-- A family is in line if it has places in a linear order, to which the functions behind the operators are
faithful. -/
theorem InLine.of_place (place : Value → α)
    (together : ∀ v w, family v → family w → Together v w)
    (before : ∀ v w, family v → family w → (precedes v w ↔ place v < place w))
    (notAfter : ∀ v w, family v → family w → (precedesOrEqual v w ↔ place v ≤ place w))
    (same : ∀ v w, family v → family w → (v.same w ↔ place v = place w)) :
    InLine typeOf family := by
  have comparison {v w op} (fv : family v) (fw : family w) (compares : op.isComparison = true) :
      Says typeOf op v w ↔ compared op v w = true :=
    says_iff (binary_of_together compares (together v w fv fw))
  have lt {v w} (fv : family v) (fw : family w) : Says typeOf .lt v w ↔ place v < place w :=
    (comparison fv fw rfl).trans (before v w fv fw)
  have le {v w} (fv : family v) (fw : family w) : Says typeOf .le v w ↔ place v ≤ place w :=
    (comparison fv fw rfl).trans (notAfter v w fv fw)
  have gt {v w} (fv : family v) (fw : family w) : Says typeOf .gt v w ↔ place w < place v :=
    (comparison fv fw rfl).trans (before w v fw fv)
  have ge {v w} (fv : family v) (fw : family w) : Says typeOf .ge v w ↔ place w ≤ place v :=
    (comparison fv fw rfl).trans (notAfter w v fw fv)
  have eq {v w} (fv : family v) (fw : family w) : Says typeOf .eq v w ↔ place v = place w :=
    (says_iff rfl).trans (same v w fv fw)
  constructor
  case answers =>
    rintro v w fv fw op (compares | rfl | rfl)
    · exact ⟨_, binary_of_together compares (together v w fv fw)⟩
    · exact ⟨_, rfl⟩
    · exact ⟨_, rfl⟩
  case trichotomy =>
    intro v w fv fw
    rw [lt fv fw, eq fv fw, lt fw fv]
    rcases lt_trichotomy (place v) (place w) with below | level | above
    · exact .inl ⟨below, below.ne, below.asymm⟩
    · exact .inr (.inl ⟨level.not_lt, level, level.not_gt⟩)
    · exact .inr (.inr ⟨above.asymm, above.ne', above⟩)
  case le_iff =>
    intro v w fv fw
    rw [le fv fw, lt fv fw, eq fv fw, le_iff_lt_or_eq]
  case gt_iff =>
    intro v w fv fw
    rw [gt fv fw, lt fw fv]
  case ge_iff =>
    intro v w fv fw
    rw [ge fv fw, le fw fv]
  case ne_iff =>
    intro v w _ _
    rw [says_iff rfl, says_iff rfl, Bool.not_eq_true', Bool.not_eq_true]
  case trans =>
    intro u v w fu fv fw first second
    rw [lt fu fv] at first
    rw [lt fv fw] at second
    exact (lt fu fw).2 (first.trans second)
  case replaces =>
    intro u v w fu fv fw equal
    rw [lt fu fv, lt fu fw, lt fv fu, lt fw fu, (eq fv fw).1 equal]
    exact ⟨Iff.rfl, Iff.rfl⟩

end

theorem numeric_together (first : v.Numeric) (second : w.Numeric) : Together v w :=
  .inl ⟨isNumber_of_level first.level, isNumber_of_level second.level⟩

theorem numeric_inLine : InLine typeOf Numeric := by
  apply InLine.of_place numberLevel
  case together => exact fun _ _ => numeric_together
  all_goals intro v w first second
  · exact precedes_iff_level first.level second.level
  · exact precedesOrEqual_iff_level first.level second.level
  · exact same_iff_level first.level second.level

theorem texts_inLine : InLine typeOf (·.isString = true) := by
  apply InLine.of_place textLevel
  case together =>
    intro v w first second
    exact .inr ⟨first, second⟩
  all_goals
    intro v w first second
    obtain ⟨s, rfl⟩ := eq_string first
    obtain ⟨t, rfl⟩ := eq_string second
  · simp only [precedes, textLevel, codePoints_strictMono.lt_iff_lt, decide_eq_true_iff]
  · simp only [precedesOrEqual, textLevel, codePoints_strictMono.le_iff_le, decide_eq_true_iff]
  · simp only [same, textLevel, codePoints_strictMono.injective.eq_iff, beq_iff_eq]

theorem less_iff_level (first : v.Numeric) (second : w.Numeric) :
    Says typeOf .lt v w ↔ v.numberLevel < w.numberLevel :=
  (says_iff (binary_of_together rfl (numeric_together first second))).trans
    (precedes_iff_level first.level second.level)

theorem equal_iff_amount (first : v.Numeric) (second : w.Numeric) :
    Says typeOf .eq v w ↔ v.amount? = w.amount? := by
  rw [says_iff rfl, same_iff_level first.level second.level, ← Option.some_inj, ← first.level, ← second.level]
  exact (Option.map_injective Number.level_injective).eq_iff

/-- Order and equality fit together. Numbers are in line whatever their types, and so are texts. Numbers are equal
exactly when they denote the same number, and in the order of the numbers that they denote. A comparison of
anything else is an error, and equality never is. -/
theorem order_and_equality (typeOf : Value → String) :
    InLine typeOf Numeric ∧ InLine typeOf (·.isString = true) ∧
      (∀ v w, Numeric v → Numeric w →
        (Says typeOf .eq v w ↔ v.amount? = w.amount?) ∧
        (Says typeOf .lt v w ↔ v.numberLevel < w.numberLevel)) ∧
      (∀ v w, ¬Together v w → ∀ op : BinaryOperator, op.isComparison = true →
        binary typeOf op v w =
          .error (.typeMismatch "two numbers or two Strings" (operandTypes typeOf op v w)
            (inQuotes op.text))) ∧
      ∀ v w, ∃ equal, binary typeOf .eq v w = .ok (.boolean equal) ∧
        binary typeOf .ne v w = .ok (.boolean !equal) := by
  refine ⟨numeric_inLine, texts_inLine, ?_, ?_, ?_⟩
  · intro v w first second
    exact ⟨equal_iff_amount first second, less_iff_level first second⟩
  · intro v w apart op comparison
    exact binary_of_apart comparison apart
  · intro v w
    exact ⟨v.same w, rfl, rfl⟩

/-- The least Integer that is no double comes after the double below it, and is not taken for it. -/
theorem order_and_equality_beyond :
    let typeOf : Value → String := fun _ => ""
    let double : Value := .real (Number.withSign false 0x4340000000000000)
    let next : Value := .integer (2 ^ 53 + 1)
    double.amount? = some (.inl (2 ^ 53)) ∧ Says typeOf .lt double next ∧ ¬Says typeOf .eq double next ∧
      Says typeOf .ge next double ∧
      binary typeOf .lt next (.string "") =
        .error (.typeMismatch "two numbers or two Strings" (operandTypes typeOf .lt next (.string ""))
          "'<'") := by
  intro typeOf double next
  have laws := order_and_equality typeOf
  have form : Number.exact (Number.withSign false 0x4340000000000000) = .finite (2 ^ 52) 1 := rfl
  have first : double.Numeric := .real (by rw [form]; exact Number.Exact.noConfusion)
  have second : next.Numeric := .integer _
  have below : Says typeOf .lt double next := rfl
  refine ⟨?_, below, ?_, ?_, ?_⟩
  · rw [Value.amount?, form]
    norm_num [Number.Exact.amount?]
  · have three := laws.1.trichotomy double next first second
    rcases three with ⟨-, apart, -⟩ | ⟨notBelow, -⟩ | ⟨notBelow, -⟩
    · exact apart
    · exact absurd below notBelow
    · exact absurd below notBelow
  · rw [laws.1.ge_iff next double second first, laws.1.le_iff double next first second]
    exact .inl below
  · exact laws.2.2.2.1 next (.string "") (by decide) .lt rfl

end Operation

end Metamorph
