import Mathlib.Algebra.Order.Ring.Int
import Metamorph.Operation.OnNumber
import Metamorph.Operation.Operator

/-! Division of Integers. The quotient that is made of absolute values and a sign is the one that is truncated
toward zero, and what it leaves of the dividend is on the side of the dividend. All operators and methods
that divide Integers agree on the two. -/
namespace Metamorph.Operation

/-- The absolute value of the quotient is that of the truncated one, so only the side is in question. -/
theorem quotient_eq_tdiv (a b : Int) : quotient a b = a.tdiv b := by
  have size : ((a.natAbs / b.natAbs : Nat) : Int) = (a.tdiv b).natAbs :=
    congrArg Int.ofNat (Int.natAbs_tdiv a b).symm
  unfold quotient
  rw [size]
  by_cases above : 0 ≤ a
  · by_cases positive : 0 < b
    · have side := Int.tdiv_nonneg above positive.le
      simp only [above, positive, decide_true, beq_self_eq_true, if_true]
      omega
    · have side := Int.tdiv_nonpos_of_nonneg_of_nonpos above (not_lt.1 positive)
      simp only [above, positive, decide_true, decide_false, Bool.true_beq, Bool.false_eq_true, if_false]
      omega
  · by_cases positive : 0 < b
    · have side : 0 ≤ (-a).tdiv b := Int.tdiv_nonneg (by omega) positive.le
      rw [Int.neg_tdiv] at side
      simp only [above, positive, decide_true, decide_false, Bool.false_beq, Bool.not_true,
        Bool.false_eq_true, if_false]
      omega
    · have side := Int.tdiv_nonneg_of_nonpos_of_nonpos (not_le.1 above).le (not_lt.1 positive)
      simp only [above, positive, decide_false, beq_self_eq_true, if_true]
      omega

/-- Negation of either operand turns the quotient over, a quotient of zero as well. -/
theorem quotient_neg_left (a b : Int) : quotient (-a) b = -quotient a b := by
  rw [quotient_eq_tdiv, quotient_eq_tdiv, Int.neg_tdiv]

theorem quotient_neg_right (a b : Int) : quotient a (-b) = -quotient a b := by
  rw [quotient_eq_tdiv, quotient_eq_tdiv, Int.tdiv_neg]

/-- Quotient and remainder of a division toward zero. -/
structure Truncated (a b q r : Int) : Prop where
  whole : a = b * q + r
  size : q.natAbs = a.natAbs / b.natAbs
  side : q = 0 ∨ q.sign = a.sign * b.sign
  rest : r.natAbs < b.natAbs
  restSide : r = 0 ∨ r.sign = a.sign

theorem truncated_quotient {a b : Int} (nonzero : b ≠ 0) :
    Truncated a b (quotient a b) (a - b * quotient a b) := by
  have remainder : a - b * a.tdiv b = a.tmod b := (Int.tmod_def a b).symm
  rw [quotient_eq_tdiv, remainder]
  constructor
  case whole => exact (Int.mul_tdiv_add_tmod a b).symm
  case size => exact Int.natAbs_tdiv a b
  case side =>
    by_cases small : a.natAbs < b.natAbs
    · exact .inl (Int.sign_eq_zero_iff_zero.1 (by rw [Int.sign_tdiv, if_pos small]))
    · exact .inr (by rw [Int.sign_tdiv, if_neg small])
  case rest =>
    rw [Int.natAbs_tmod]
    exact Nat.mod_lt _ (Int.natAbs_pos.2 nonzero)
  case restSide =>
    by_cases divides : b ∣ a
    · exact .inl (Int.tmod_eq_zero_of_dvd divides)
    · exact .inr (by rw [Int.sign_tmod, if_neg divides])

/-- There is no other quotient and no other remainder. -/
theorem Truncated.unique {a b q r q' r' : Int} (first : Truncated a b q r)
    (second : Truncated a b q' r') : q = q' ∧ r = r' := by
  have quotients : q = q' := by
    have sizes : q.natAbs = q'.natAbs := first.size.trans second.size.symm
    rcases first.side with rfl | side
    · exact (Int.natAbs_eq_zero.1 sizes.symm).symm
    · rcases second.side with rfl | side'
      · exact Int.natAbs_eq_zero.1 sizes
      · rw [← Int.sign_mul_natAbs q, ← Int.sign_mul_natAbs q', sizes, side, side']
  refine ⟨quotients, ?_⟩
  have sums := first.whole.symm.trans second.whole
  rw [quotients] at sums
  exact Int.add_left_cancel sums

/-- A number leaves nothing when it is divided by two exactly if it is even. -/
theorem remainder_two_eq_zero {n : Int} : n - 2 * quotient n 2 = 0 ↔ n % 2 = 0 := by
  rw [quotient_eq_tdiv, ← Int.tmod_def]
  exact Int.dvd_iff_tmod_eq_zero.symm.trans Int.dvd_iff_emod_eq_zero

section
variable (typeOf : Value → String) (fresh : Identity) (a b : Int)

/-- What the operators make of two Integers, the sign of division and the word, and the word for the
remainder. -/
theorem binary_of_nonzero {b : Int} (nonzero : b ≠ 0) :
    binary typeOf .div (.integer a) (.integer b) = .ok (.integer (quotient a b)) ∧
      binary typeOf .intDiv (.integer a) (.integer b) = .ok (.integer (quotient a b)) ∧
      binary typeOf .mod (.integer a) (.integer b) = .ok (.integer (a - b * quotient a b)) := by
  refine ⟨?_, ?_, ?_⟩
  all_goals exact if_neg nonzero

/-- The methods are the operators that are words. -/
theorem onNumber_div : onNumber typeOf fresh .div (.integer a) [.integer b] =
    binary typeOf .intDiv (.integer a) (.integer b) := rfl

theorem onNumber_mod : onNumber typeOf fresh .mod (.integer a) [.integer b] =
    binary typeOf .mod (.integer a) (.integer b) := rfl

/-- Every Integer is even or odd, by the remainder that is never negative. -/
theorem parity : ∃ even : Bool,
    onNumber typeOf fresh .isEven (.integer a) [] = .ok (.boolean even) ∧
      onNumber typeOf fresh .isOdd (.integer a) [] = .ok (.boolean !even) ∧
      (even = true ↔ a % 2 = 0) := by
  refine ⟨decide (a % 2 = 0), rfl, ?_, decide_eq_true_iff⟩
  have other : (!decide (a % 2 = 0)) = decide (a % 2 = 1) := by
    rw [← decide_not]
    exact decide_eq_decide.2 (by omega)
  rw [other]
  rfl

/-- Division of Integers. By a number other than zero both operators and the method give one quotient, truncated
toward zero, the operator and the method for the remainder give what it leaves, and a sign of either operand
becomes one of the quotient. Division by zero is the error of that name, which says how it was written. Parity
is that of the remainder by two. -/
theorem integer_division :
    (b ≠ 0 → ∃ q r, Truncated a b q r ∧
      binary typeOf .div (.integer a) (.integer b) = .ok (.integer q) ∧
      binary typeOf .intDiv (.integer a) (.integer b) = .ok (.integer q) ∧
      onNumber typeOf fresh .div (.integer a) [.integer b] = .ok (.integer q) ∧
      binary typeOf .mod (.integer a) (.integer b) = .ok (.integer r) ∧
      onNumber typeOf fresh .mod (.integer a) [.integer b] = .ok (.integer r) ∧
      binary typeOf .intDiv (.integer (-a)) (.integer b) = .ok (.integer (-q)) ∧
      binary typeOf .intDiv (.integer a) (.integer (-b)) = .ok (.integer (-q))) ∧
    (b = 0 →
      binary typeOf .div (.integer a) (.integer b) = .error (.of (.divisionByZero "/")) ∧
      binary typeOf .intDiv (.integer a) (.integer b) = .error (.of (.divisionByZero "div")) ∧
      onNumber typeOf fresh .div (.integer a) [.integer b] = .error (.of (.divisionByZero "div")) ∧
      binary typeOf .mod (.integer a) (.integer b) = .error (.of (.divisionByZero "mod")) ∧
      onNumber typeOf fresh .mod (.integer a) [.integer b] = .error (.of (.divisionByZero "mod"))) ∧
    ∃ even : Bool,
      onNumber typeOf fresh .isEven (.integer a) [] = .ok (.boolean even) ∧
      onNumber typeOf fresh .isOdd (.integer a) [] = .ok (.boolean !even) ∧
      (even = true ↔ binary typeOf .mod (.integer a) (.integer 2) = .ok (.integer 0)) := by
  refine ⟨?_, ?_, ?_⟩
  · intro nonzero
    obtain ⟨slash, word, rest⟩ := binary_of_nonzero typeOf a nonzero
    refine ⟨quotient a b, a - b * quotient a b, truncated_quotient nonzero, slash, word, ?_, rest, ?_, ?_, ?_⟩
    · rw [onNumber_div, word]
    · rw [onNumber_mod, rest]
    · rw [(binary_of_nonzero typeOf (-a) nonzero).2.1, quotient_neg_left]
    · rw [(binary_of_nonzero typeOf a (Int.neg_ne_zero.2 nonzero)).2.1, quotient_neg_right]
  · rintro rfl
    rw [onNumber_div, onNumber_mod]
    exact ⟨rfl, rfl, rfl, rfl, rfl⟩
  · obtain ⟨even, isEven, isOdd, is⟩ := parity typeOf fresh a
    refine ⟨even, isEven, isOdd, ?_⟩
    have rest := (binary_of_nonzero typeOf a (b := 2) (by decide)).2.2
    rw [is, rest, ← remainder_two_eq_zero]
    simp only [Except.ok.injEq, Value.integer.injEq]

end

/-- Seven below zero by two, and by zero. -/
theorem integer_division_seven :
    Truncated (-7) 2 (-3) (-1) ∧
      onNumber (fun _ => "") 0 .div (.integer (-7)) [.integer 2] = .ok (.integer (-3)) ∧
      binary (fun _ => "") .mod (.integer (-7)) (.integer 2) = .ok (.integer (-1)) ∧
      binary (fun _ => "") .mod (.integer (-7)) (.integer 0) = .error (.of (.divisionByZero "mod")) := by
  have seven : Truncated (-7) 2 (-3) (-1) :=
    ⟨by decide, by decide, .inr (by decide), by decide, .inr (by decide)⟩
  obtain ⟨q, r, truncated, -, -, method, rest, -⟩ :=
    (integer_division (fun _ => "") 0 (-7) 2).1 (by decide)
  obtain ⟨rfl, rfl⟩ := truncated.unique seven
  obtain ⟨-, -, -, zero, -⟩ := (integer_division (fun _ => "") 0 (-7) 0).2.1 rfl
  exact ⟨seven, method, rest, zero⟩

end Metamorph.Operation
