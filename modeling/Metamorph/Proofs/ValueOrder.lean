import Mathlib.Data.List.Lex
import Mathlib.Data.String.Basic
import Mathlib.Order.WithBot
import Metamorph.Operation.Arithmetic
import Metamorph.Proofs.StructuralEquality

/-! The order of values. Integers and Reals stand in one line, each at the exact number that it denotes and
the infinities at the ends; texts are ordered by their code points. Between a number and a text, and where a
NaN is involved, there is no order. -/
namespace Metamorph

namespace Number

/-- The line of numbers, with the infinities at its ends. -/
abbrev Level := WithBot (WithTop ℚ)

def level : ℚ ⊕ Bool → Level
  | .inl q => ((q : WithTop ℚ) : Level)
  | .inr true => ⊥
  | .inr false => ((⊤ : WithTop ℚ) : Level)

theorem level_injective : Function.Injective level := by
  rintro (q | _ | _) (r | _ | _) same
  all_goals simp_all [level]

/-- Both numbers are divided by the same power of two. -/
theorem aligned_lt_iff {m e n f : Int} :
    (aligned m e n f).1 < (aligned m e n f).2 ↔ (m : ℚ) * 2 ^ e < n * 2 ^ f := by
  have scaled (a x : Int) (above : min e f ≤ x) :
      (a : ℚ) * 2 ^ x = (a * Int.pow 2 (x - min e f).toNat : Int) * 2 ^ min e f := by
    have power : (2 : ℚ) ^ x = 2 ^ (x - min e f) * 2 ^ min e f := by
      rw [← zpow_add₀ two_ne_zero, sub_add_cancel]
    obtain ⟨k, is⟩ := Int.eq_ofNat_of_zero_le (Int.sub_nonneg.2 above)
    rw [power, is, Int.toNat_natCast, zpow_natCast, Int.pow_eq]
    push_cast
    rw [mul_assoc]
  have unit : (0 : ℚ) < 2 ^ min e f := zpow_pos two_pos _
  rw [scaled m e (min_le_left e f), scaled n f (min_le_right e f), mul_lt_mul_iff_left₀ unit,
    Int.cast_lt]
  rfl

theorem level_number_lt {q r : ℚ} : level (.inl q) < level (.inl r) ↔ q < r := by
  exact WithBot.coe_lt_coe.trans WithTop.coe_lt_coe

theorem level_bot_lt (q : ℚ) : level (.inr true) < level (.inl q) := by
  exact WithBot.bot_lt_coe _

theorem level_lt_top (q : ℚ) : level (.inl q) < level (.inr false) := by
  exact WithBot.coe_lt_coe.2 (WithTop.coe_lt_top q)

theorem Exact.lt_iff {x y : Exact} {a b : ℚ ⊕ Bool} (first : x.amount? = some a)
    (second : y.amount? = some b) : x.lt y ↔ level a < level b := by
  cases x with
  | finite m e =>
    obtain rfl := Option.some.inj first
    cases y with
    | finite n f =>
      obtain rfl := Option.some.inj second
      rw [level_number_lt, ← aligned_lt_iff]
      simp [Exact.lt]
    | infinite negative =>
      obtain rfl := Option.some.inj second
      cases negative with
      | false => exact iff_of_true rfl (level_lt_top _)
      | true => exact iff_of_false Bool.false_ne_true (level_bot_lt _).asymm
    | notANumber => cases second
  | infinite negative =>
    obtain rfl := Option.some.inj first
    cases y with
    | finite n f =>
      obtain rfl := Option.some.inj second
      cases negative with
      | false => exact iff_of_false Bool.false_ne_true (level_lt_top _).asymm
      | true => exact iff_of_true rfl (level_bot_lt _)
    | infinite other =>
      obtain rfl := Option.some.inj second
      cases negative <;> cases other <;> simp [Exact.lt, level]
    | notANumber => cases second
  | notANumber => cases first

/-- Only what is no number differs from itself. -/
theorem Exact.eq_self {x : Exact} {a : ℚ ⊕ Bool} (denotes : x.amount? = some a) : x.eq x = true := by
  cases x with
  | finite m e => simp [Exact.eq, aligned]
  | infinite negative => simp [Exact.eq]
  | notANumber => cases denotes

end Number

namespace Value
open Number Operation
variable {v w : Value} {a b : Level}

/-- Where the value stands in the line of numbers. -/
def level? (v : Value) : Option Level := v.amount?.map level

/-- Where a number stands among numbers; what is none stands nowhere and is not asked for. -/
def numberLevel (v : Value) : Level := v.level?.getD ⊥

theorem numberLevel_eq (stands : v.level? = some a) : v.numberLevel = a := by
  simp [numberLevel, stands]

theorem exactValue?_of_amount {a : ℚ ⊕ Bool} (denotes : v.amount? = some a) :
    ∃ x, exactValue? v = some x ∧ x.amount? = some a := by
  cases v with
  | integer n => exact ⟨exactInt n, rfl, by simpa [amount?, Exact.amount?, exactInt] using denotes⟩
  | real x => exact ⟨exact x, rfl, denotes⟩
  | _ => cases denotes

theorem isNumber_of_level (stands : v.level? = some a) : v.isNumber = true := by
  obtain ⟨amount, denotes, -⟩ := Option.map_eq_some_iff.1 stands
  cases v with
  | integer | real => rfl
  | _ => cases denotes

theorem same_iff_level (first : v.level? = some a) (second : w.level? = some b) :
    v.same w ↔ a = b := by
  obtain ⟨amount, denotes, rfl⟩ := Option.map_eq_some_iff.1 first
  obtain ⟨other, denotes', rfl⟩ := Option.map_eq_some_iff.1 second
  rw [same_number denotes denotes', level_injective.eq_iff]

theorem precedes_iff_level (first : v.level? = some a) (second : w.level? = some b) :
    precedes v w ↔ a < b := by
  obtain ⟨amount, denotes, rfl⟩ := Option.map_eq_some_iff.1 first
  obtain ⟨other, denotes', rfl⟩ := Option.map_eq_some_iff.1 second
  obtain ⟨x, exactly, is⟩ := exactValue?_of_amount denotes
  obtain ⟨y, exactly', is'⟩ := exactValue?_of_amount denotes'
  have compared : precedes v w = x.lt y := by
    cases v with
    | integer | real => simp only [precedes, exactly, exactly']
    | _ => cases denotes
  rw [compared, Exact.lt_iff is is']

/-- The code points of a text. -/
def codePoints (s : String) : List ℕ := s.toList.map Char.toNat

theorem codePoints_strictMono : StrictMono codePoints := by
  intro s t before
  apply List.map_lt
  · intro c d
    exact id
  · exact String.lt_iff_toList_lt.1 before

/-- Where a text stands among texts. -/
def textLevel : Value → List ℕ
  | string s => codePoints s
  | _ => []

/-- One value does not come after another: of two numbers the smaller, of two texts the one whose code points
come first. -/
inductive NotAfter : Value → Value → Prop
  | numbers {v w : Value} {a b : Level} (first : v.level? = some a) (second : w.level? = some b)
      (ordered : a ≤ b) : NotAfter v w
  | texts {s t : String} (ordered : codePoints s ≤ codePoints t) : NotAfter (string s) (string t)

theorem eq_string (text : v.isString = true) : ∃ s, v = string s := by
  cases v with
  | string s => exact ⟨s, rfl⟩
  | _ => cases text

end Value

end Metamorph
