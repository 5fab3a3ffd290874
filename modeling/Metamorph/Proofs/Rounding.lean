import Metamorph.Operation.OnNumber
import Metamorph.Proofs.DoubleSum

/-! Rounding of Integers. The floor of an Integer is the Integer itself. Rounding to the nearest goes through a
double to which one half is added, and that keeps an Integer only as far as the digits of doubles go. -/
namespace Metamorph

namespace Number
variable {n m k : Nat}

/-! The neighbours of an even number that a double can be. -/

theorem nearest_le (positive : 0 < n) : nearest n ≤ 2 * n := by
  have bounded := (significand_bounds positive).2
  have below : 2 ^ n.log2 ≤ n := Nat.log2_self_le positive.ne'
  have scaled := significand_scaled n
  have product : nearest n * 2 ^ 52 ≤ 2 * n * 2 ^ 52 := by
    rw [← scaled]
    calc significand n * 2 ^ n.log2 ≤ 2 ^ 53 * n := Nat.mul_le_mul bounded below
      _ = 2 * n * 2 ^ 52 := by ring
  exact Nat.le_of_mul_le_mul_right product (Nat.two_pow_pos 52)

theorem nearest_pos (positive : 0 < n) : 0 < nearest n := by
  have filled := (significand_bounds positive).1
  have product : 0 < nearest n * 2 ^ 52 := by
    rw [← significand_scaled]
    exact Nat.mul_pos (Nat.lt_of_lt_of_le (Nat.two_pow_pos 52) filled) (Nat.two_pow_pos _)
  exact Nat.pos_of_mul_pos_right product

theorem nearest_of_rounds {places r : Nat} (low : 2 ^ 52 * 2 ^ places ≤ n) (high : n < 2 ^ 53 * 2 ^ places)
    (rounds : ∀ b, Rounds n (2 ^ places) b → b = r) : nearest n = r * 2 ^ places := by
  have long : n.log2 = 52 + places := by
    apply log2_of_filled
    · rwa [pow_add]
    · rwa [Nat.add_right_comm, pow_add]
  have digits := leading_rounds n
  unfold nearest
  rw [long, Nat.add_sub_cancel_left] at digits ⊢
  rw [rounds _ digits]

theorem four_le_pow {places : Nat} (deep : 2 ≤ places) : 4 ≤ 2 ^ places :=
  Nat.pow_le_pow_right Nat.two_pos deep

theorem nearest_above {places : Nat} (filled : 2 ^ 52 ≤ m) (bounded : m < 2 ^ 53) (deep : 2 ≤ places) :
    nearest (m * 2 ^ places + 1) = m * 2 ^ places := by
  have unit := four_le_pow deep
  have low : 2 ^ 52 * 2 ^ places ≤ m * 2 ^ places := Nat.mul_le_mul_right _ filled
  have high : (m + 1) * 2 ^ places ≤ 2 ^ 53 * 2 ^ places := Nat.mul_le_mul_right _ bounded
  apply nearest_of_rounds
  · exact Nat.le_succ_of_le low
  · linarith
  · intro b rounds
    apply rounds.unique
    · linarith
    · linarith

/-- Below a power of two the numbers that a double can be stand closer. -/
theorem nearest_below_power {places : Nat} (deep : 2 ≤ places) :
    nearest (2 ^ 52 * 2 ^ places - 1) = 2 ^ 52 * 2 ^ places := by
  obtain ⟨k, rfl⟩ := Nat.exists_eq_add_of_le' deep
  have unit : 0 < 2 ^ k := Nat.two_pow_pos k
  have double : 2 ^ 52 * 2 ^ (k + 2) = 2 ^ 53 * 2 ^ (k + 1) := by
    rw [← pow_add, ← pow_add]
    congr 1
    omega
  have wide : 2 ^ (k + 1) = 2 * 2 ^ k := pow_succ' 2 k
  rw [double]
  apply nearest_of_rounds
  · omega
  · omega
  · intro b rounds
    apply Nat.le_antisymm
    · apply rounds.le
      omega
    · apply rounds.ge_of_even (by decide) (Nat.two_pow_pos _)
      omega

theorem nearest_below {places : Nat} (filled : 2 ^ 52 ≤ m) (bounded : m < 2 ^ 53) (deep : 2 ≤ places) :
    nearest (m * 2 ^ places - 1) = m * 2 ^ places := by
  rcases Nat.eq_or_lt_of_le filled with rfl | longer
  · exact nearest_below_power deep
  · have unit := four_le_pow deep
    have low : (2 ^ 52 + 1) * 2 ^ places ≤ m * 2 ^ places := Nat.mul_le_mul_right _ longer
    have high : (m + 1) * 2 ^ places ≤ 2 ^ 53 * 2 ^ places := Nat.mul_le_mul_right _ bounded
    have one : m * 2 ^ places - 1 + 1 = m * 2 ^ places := by omega
    apply nearest_of_rounds
    · linarith
    · linarith
    · intro b rounds
      apply rounds.unique
      · linarith
      · linarith

/-- From the power of two on at which doubles stop to count in ones, the number that is nearest is even and of full
length. -/
theorem nearest_long (long : 2 ^ 53 ≤ n) :
    ∃ m places, 2 ^ 52 ≤ m ∧ m < 2 ^ 53 ∧ 1 ≤ places ∧ nearest n = m * 2 ^ places := by
  have positive : 0 < n := Nat.lt_of_lt_of_le (by decide) long
  have many : 53 ≤ n.log2 := (Nat.le_log2 positive.ne').2 long
  obtain ⟨filled, bounded⟩ := significand_bounds positive
  have same : significand n = leading n := by
    rw [significand, Nat.sub_eq_zero_of_le (by omega), pow_zero, Nat.mul_one]
  rw [same] at filled bounded
  rcases Nat.lt_or_ge (leading n) (2 ^ 53) with short | carry
  · exact ⟨leading n, n.log2 - 52, filled, short, by omega, rfl⟩
  · refine ⟨2 ^ 52, n.log2 - 51, Nat.le_refl _, by decide, by omega, ?_⟩
    have places : n.log2 - 51 = n.log2 - 52 + 1 := by omega
    rw [nearest, Nat.le_antisymm bounded carry, places, pow_succ (2 : Nat) (n.log2 - 52)]
    ring

/-- The Integer that the double nearest to an Integer stands for. -/
def nearestInt (n : Int) : Int := n.sign * nearest n.natAbs

/-- What half of the nearest number to twice the Integer and one is rounded down to. -/
def halfUp (d : Int) : Int := (2 * d + 1).sign * nearest (2 * d + 1).natAbs / 2

theorem halfUp_of_nonneg {d : Int} (above : 0 ≤ d) : halfUp d = nearest (2 * d.natAbs + 1) / 2 := by
  have size : (2 * d + 1).natAbs = 2 * d.natAbs + 1 := by omega
  rw [halfUp, Int.sign_eq_one_of_pos (by omega), size, Int.one_mul]

theorem halfUp_of_neg {d : Int} (below : d < 0) : halfUp d = -nearest (2 * d.natAbs - 1) / 2 := by
  have size : (2 * d + 1).natAbs = 2 * d.natAbs - 1 := by omega
  rw [halfUp, Int.sign_eq_neg_one_of_neg (by omega), size, Int.neg_one_mul]

/-- Of two doubles that are as near the even one is taken. -/
theorem nearest_odd {q : Nat} (low : 2 ^ 53 ≤ 2 * q + 1) (high : 2 * q + 1 < 2 ^ 54) :
    nearest (2 * q + 1) = 2 * (q + q % 2) := by
  rw [Nat.mul_comm 2 (q + q % 2)]
  exact @nearest_of_rounds (2 * q + 1) 1 _ low high fun b rounds => rounds.half

/-- While doubles count in ones, one half more is cut off again up to where they stop to count in halves. From
there on it goes to the even neighbour. -/
theorem halfUp_of_short {d : Int} (short : d.natAbs < 2 ^ 53) :
    halfUp d = if d.natAbs ≤ 2 ^ 52 then d else d + d % 2 := by
  rcases lt_or_ge d 0 with below | above
  · rw [halfUp_of_neg below]
    obtain ⟨q, size⟩ : ∃ q, d.natAbs = q + 1 := ⟨d.natAbs - 1, by omega⟩
    have odd : 2 * d.natAbs - 1 = 2 * q + 1 := by omega
    rw [odd]
    rcases Nat.lt_or_ge (2 * q + 1) (2 ^ 53) with exactly | rounded
    · rw [nearest_of_short exactly, if_pos (by omega)]
      omega
    · rw [nearest_odd rounded (by omega), if_neg (by omega)]
      omega
  · rw [halfUp_of_nonneg above]
    rcases Nat.lt_or_ge (2 * d.natAbs + 1) (2 ^ 53) with exactly | rounded
    · rw [nearest_of_short exactly, if_pos (by omega)]
      omega
    · rw [nearest_odd rounded (by omega)]
      split
      · omega
      · omega

theorem nearest_beside {n : Int} (long : 2 ^ 53 ≤ n.natAbs) :
    nearest (2 * nearestInt n + 1).natAbs = 2 * nearest n.natAbs := by
  obtain ⟨m, places, filled, bounded, even, is⟩ := nearest_long long
  have double : 2 * (m * 2 ^ places) = m * 2 ^ (places + 1) := by
    rw [pow_succ]
    ring
  have positive : 0 < m * 2 ^ places :=
    Nat.mul_pos (Nat.lt_of_lt_of_le (Nat.two_pow_pos 52) filled) (Nat.two_pow_pos _)
  unfold nearestInt
  rw [is, double]
  rcases lt_or_gt_of_ne (by omega : n ≠ 0) with below | above
  · have size : (2 * (n.sign * ((m * 2 ^ places : Nat) : Int)) + 1).natAbs = m * 2 ^ (places + 1) - 1 := by
      rw [Int.sign_eq_neg_one_of_neg below]
      omega
    rw [size, nearest_below filled bounded (by omega)]
  · have size : (2 * (n.sign * ((m * 2 ^ places : Nat) : Int)) + 1).natAbs = m * 2 ^ (places + 1) + 1 := by
      rw [Int.sign_eq_one_of_pos above]
      omega
    rw [size, nearest_above filled bounded (by omega)]

/-- One half does not lead over to the other side of zero. -/
theorem sign_beside {n : Int} (nonzero : n ≠ 0) : (2 * nearestInt n + 1).sign = n.sign := by
  have positive : 0 < nearest n.natAbs := nearest_pos (Int.natAbs_pos.2 nonzero)
  unfold nearestInt
  rcases lt_or_gt_of_ne nonzero with below | above
  · rw [Int.sign_eq_neg_one_of_neg below, Int.sign_eq_neg_one_of_neg]
    omega
  · rw [Int.sign_eq_one_of_pos above, Int.sign_eq_one_of_pos]
    omega

theorem halfUp_nearestInt {n : Int} (long : 2 ^ 53 ≤ n.natAbs) : halfUp (nearestInt n) = nearestInt n := by
  rw [halfUp, nearest_beside long, sign_beside (by omega), Nat.cast_mul, Int.mul_left_comm]
  exact Int.mul_ediv_cancel_left _ two_ne_zero

/-- What an Integer is rounded to: itself up to a first power of two, the even one of it and the next up to a
second, and from there on the nearest double. -/
def roundedInt (n : Int) : Int :=
  if n.natAbs ≤ 2 ^ 52 then n else if n.natAbs < 2 ^ 53 then n + n % 2 else nearestInt n

theorem nearestInt_of_short {n : Int} (short : n.natAbs < 2 ^ 53) : nearestInt n = n := by
  rw [nearestInt, nearest_of_short short, Int.sign_mul_natAbs]

theorem halfUp_eq_roundedInt (n : Int) : halfUp (nearestInt n) = roundedInt n := by
  unfold roundedInt
  rcases Nat.lt_or_ge n.natAbs (2 ^ 53) with short | long
  · rw [nearestInt_of_short short, halfUp_of_short short, if_pos short]
  · rw [halfUp_nearestInt long, if_neg (by omega), if_neg (by omega)]

/-- A number that has no more digits than a double, but for zeros at its end, is one. -/
theorem nearest_of_digits (bounded : m < 2 ^ 53) : nearest (m * 2 ^ k) = m * 2 ^ k := by
  rcases Nat.eq_zero_or_pos m with rfl | positive
  · rw [Nat.zero_mul]
    rfl
  · have few : (m * 2 ^ k).log2 < 53 + k := by
      apply (Nat.log2_lt (Nat.mul_pos positive (Nat.two_pow_pos k)).ne').2
      rw [pow_add]
      exact Nat.mul_lt_mul_of_pos_right bounded (Nat.two_pow_pos k)
    obtain ⟨more, places⟩ : ∃ more, k = (m * 2 ^ k).log2 - 52 + more :=
      ⟨k - ((m * 2 ^ k).log2 - 52), by omega⟩
    have whole : 2 ^ ((m * 2 ^ k).log2 - 52) * (m * 2 ^ more) = m * 2 ^ k := by
      rw [Nat.mul_left_comm, ← pow_add, ← places]
    have digits := roundHalfEven_multiple (Nat.two_pow_pos ((m * 2 ^ k).log2 - 52)) (m * 2 ^ more)
    rw [whole] at digits
    rw [nearest, leading, digits, Nat.mul_comm, whole]

theorem roundedInt_eq_self_iff {n : Int} :
    roundedInt n = n ↔ n.natAbs ≤ 2 ^ 52 ∨ n % 2 = 0 ∧ ∃ m k, n.natAbs = m * 2 ^ k ∧ m < 2 ^ 53 := by
  unfold roundedInt
  split
  · rename_i small
    exact iff_of_true rfl (.inl small)
  · rename_i large
    rw [or_iff_right large]
    split
    · rename_i short
      constructor
      · intro same
        exact ⟨by omega, n.natAbs, 0, by rw [pow_zero, Nat.mul_one], short⟩
      · rintro ⟨even, -⟩
        omega
    · rename_i long
      have kept : nearestInt n = n ↔ nearest n.natAbs = n.natAbs := by
        have side : n.sign ≠ 0 := fun zero => by rw [Int.sign_eq_zero_iff_zero] at zero; omega
        have whole : n.sign * n.natAbs = n := Int.sign_mul_natAbs n
        constructor
        · intro same
          exact Int.ofNat_inj.1 (Int.eq_of_mul_eq_mul_left side (same.trans whole.symm))
        · intro same
          rw [nearestInt, same, whole]
      rw [kept]
      constructor
      · intro same
        obtain ⟨m, places, -, bounded, even, is⟩ := nearest_long (Nat.le_of_not_lt long)
        rw [same] at is
        refine ⟨?_, m, places, is, bounded⟩
        obtain ⟨k, rfl⟩ := Nat.exists_eq_add_of_le' even
        rw [pow_succ, ← Nat.mul_assoc] at is
        omega
      · rintro ⟨-, m, k, is, bounded⟩
        rw [is]
        exact nearest_of_digits bounded

/-! Doubles of Integers. -/

theorem unpack_exponent_le {bits : Nat} (finite : bits < infinityBits) : (unpack bits).2 ≤ 971 := by
  rw [infinityBits, Nat.pow_eq] at finite
  unfold unpack
  simp only [Nat.pow_eq]
  split
  · dsimp only
    omega
  · dsimp only
    omega

/-- The sum with one half is a double as well. -/
theorem nearest_beside_lt {n : Int} (large : 2 * nearest n.natAbs < 2 ^ 55 * topHalf) :
    nearest (2 * nearestInt n + 1).natAbs < 2 ^ 55 * topHalf := by
  rcases Nat.lt_or_ge n.natAbs (2 ^ 53) with short | long
  · rw [nearestInt_of_short short]
    have bound := nearest_le (by omega : 0 < (2 * n + 1).natAbs)
    have power : 2 ^ 56 ≤ 2 ^ 55 * topHalf := pow_le_topHalf (by omega)
    omega
  · rwa [nearest_beside long]

theorem apply_signOf {n : Int} (nonzero : n ≠ 0) (a : Nat) :
    (signOf (decide (n < 0))).apply a = n.sign * a := by
  rcases lt_or_gt_of_ne nonzero with below | above
  · rw [decide_eq_true below, Int.sign_eq_neg_one_of_neg below, Int.neg_one_mul]
    rfl
  · rw [decide_eq_false (by omega), Int.sign_eq_one_of_pos above, Int.one_mul]
    rfl

/-- The double nearest to an Integer and one half sum up to what is rounded down to a half of the odd number. -/
theorem exact_rounded {n : Int} (nonzero : n ≠ 0) (finite : nearestBits n.natAbs 1 < infinityBits) :
    ∃ m e, exact (withSign (decide (n < 0)) (nearestBits n.natAbs 1) + 0.5) = .finite m e ∧
      floorOf m e = halfUp (nearestInt n) := by
  have halves := unpack_nearestBits (Int.natAbs_pos.2 nonzero) finite
  have denotes : nearestInt n = (signOf (decide (n < 0))).apply (nearest n.natAbs) :=
    (apply_signOf nonzero _).symm
  obtain ⟨m, e, is, result⟩ := exact_add_half halves (decide (n < 0))
    (unpack_withSign halves.filled finite _) denotes
    (nearest_beside_lt (halves.exponent_le_iff.1 (unpack_exponent_le finite)))
  refine ⟨_, e, is, ?_⟩
  rw [floorOf_halves result, apply_signOf nonzero, halfUp, sign_beside nonzero]

end Number

namespace Operation
open Number

theorem rounded_integer (n : Int) :
    rounded (.integer n) =
      if n.natAbs < tooLarge then .ok (.integer (roundedInt n)) else .error (.number .integerTooLarge) := by
  rcases eq_or_ne n 0 with rfl | nonzero
  · have within : (0 : Int).natAbs < tooLarge := Nat.mul_pos (by decide) topHalf_pos
    rw [if_pos within]
    rfl
  · have limit := nearestBits_lt_iff (Int.natAbs_pos.2 nonzero)
    by_cases finite : nearestBits n.natAbs 1 < infinityBits
    · obtain ⟨m, e, is, floor⟩ := exact_rounded nonzero finite
      have double : asReal (.integer n) = .ok (withSign (decide (n < 0)) (nearestBits n.natAbs 1)) := by
        simp only [asReal, ofInt?, finite, if_true]
      have lowered : floorOfReal (withSign (decide (n < 0)) (nearestBits n.natAbs 1) + 0.5) =
          .ok (roundedInt n) := by
        rw [floorOfReal, is, ← halfUp_eq_roundedInt, ← floor]
      unfold rounded
      rw [double, if_pos (limit.1 finite)]
      change (floorOfReal _ >>= _) = _
      rw [lowered]
      rfl
    · have none : asReal (.integer n) = .error (.number .integerTooLarge) := by
        simp only [asReal, ofInt?, finite, if_false]
      unfold rounded
      rw [none, if_neg (limit.not.1 finite)]
      rfl

/-- Rounding of Integers. The floor of an Integer is the Integer itself. Rounding to the nearest keeps it up to a
power of two, and beyond that exactly if it is even and has no more binary digits than a double, but for
zeros at its end. An Integer beyond the doubles is an error. -/
theorem integer_rounding (typeOf : Value → String) (fresh : Identity) (n : Int) :
    onNumber typeOf fresh .floor (.integer n) [] = .ok (.integer n) ∧
      onNumber typeOf fresh .round (.integer n) [] =
        (if n.natAbs < tooLarge then .ok (.integer (roundedInt n))
          else .error (.number .integerTooLarge)) ∧
      (onNumber typeOf fresh .round (.integer n) [] = .ok (.integer n) ↔
        n.natAbs < tooLarge ∧
          (n.natAbs ≤ 2 ^ 52 ∨ n % 2 = 0 ∧ ∃ m k, n.natAbs = m * 2 ^ k ∧ m < 2 ^ 53)) := by
  have round : onNumber typeOf fresh .round (.integer n) [] = _ := rounded_integer n
  refine ⟨rfl, round, ?_⟩
  rw [round, ← roundedInt_eq_self_iff]
  split
  · rename_i within
    simp [within]
  · rename_i beyond
    simp [beyond]

/-- The first odd number beyond those that have a half next to them among the doubles is rounded to the
next. -/
theorem integer_rounding_alters :
    onNumber (fun _ => "") 0 .round (.integer (2 ^ 52 + 1)) [] = .ok (.integer (2 ^ 52 + 2)) ∧
      ¬∀ n, onNumber (fun _ => "") 0 .round (.integer n) [] = .ok (.integer n) := by
  have next : onNumber (fun _ => "") 0 .round (.integer (2 ^ 52 + 1)) [] = .ok (.integer (2 ^ 52 + 2)) := rfl
  refine ⟨next, fun kept => ?_⟩
  have same := next.symm.trans (kept (2 ^ 52 + 1))
  rw [Except.ok.injEq, Value.integer.injEq] at same
  omega

end Operation

end Metamorph
