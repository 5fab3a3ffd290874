import Mathlib.Algebra.Order.Ring.Nat
import Mathlib.Tactic.Linarith
import Mathlib.Tactic.Positivity
import Mathlib.Tactic.Ring
import Metamorph.Number.Nearest

/-! The double nearest to a natural number. Its significand has the leading binary digits of the number, a half
going to the even neighbour, and where rounding carries into one digit more the exponent takes it
up. -/
namespace Metamorph.Number
variable {num den r n : Nat}

/-! Division that rounds. -/

/-- No integer is nearer to the quotient than the rounded one, and only an even one is as near as another. -/
structure Rounds (num den r : Nat) : Prop where
  low : 2 * r * den ≤ 2 * num + den
  high : 2 * num ≤ (2 * r + 1) * den
  even : r % 2 = 1 → 2 * r * den < 2 * num + den ∧ 2 * num < (2 * r + 1) * den

theorem roundHalfEven_rounds (positive : 0 < den) : Rounds num den (roundHalfEven num den) := by
  have whole : den * (num / den) + num % den = num := Nat.div_add_mod num den
  have rest : num % den < den := Nat.mod_lt num positive
  unfold roundHalfEven
  dsimp only
  generalize num / den = q at *
  generalize num % den = t at *
  have doubled : 2 * num = 2 * q * den + 2 * t := by rw [← whole]; ring
  split
  · refine ⟨?_, ?_, fun _ => ⟨?_, ?_⟩⟩ <;> linarith
  · split
    · refine ⟨?_, ?_, fun _ => ⟨?_, ?_⟩⟩ <;> linarith
    · have tie : 2 * t = den := by omega
      rcases Nat.mod_two_eq_zero_or_one q with even | odd
      · rw [even, Nat.add_zero]
        refine ⟨?_, ?_, fun odd => ?_⟩
        · linarith
        · linarith
        · omega
      · rw [odd]
        refine ⟨?_, ?_, fun again => ?_⟩
        · linarith
        · linarith
        · omega

theorem Rounds.le (rounds : Rounds num den r) {b : Nat} (below : 2 * num < (2 * b + 1) * den) : r ≤ b := by
  have bound : r * den < (b + 1) * den := by linarith [rounds.low]
  exact Nat.lt_succ_iff.1 (Nat.lt_of_mul_lt_mul_right bound)

theorem Rounds.ge (rounds : Rounds num den r) {b : Nat} (above : 2 * b * den < 2 * num + den) : b ≤ r := by
  have bound : b * den < (r + 1) * den := by linarith [rounds.high]
  exact Nat.lt_succ_iff.1 (Nat.lt_of_mul_lt_mul_right bound)

/-- An even number that is no farther than another is reached. -/
theorem Rounds.ge_of_even (rounds : Rounds num den r) {b : Nat} (even : b % 2 = 0) (positive : 0 < den)
    (above : 2 * b * den ≤ 2 * num + den) : b ≤ r := by
  have bound : b * den ≤ (r + 1) * den := by linarith [rounds.high]
  have near : b ≤ r + 1 := Nat.le_of_mul_le_mul_right bound positive
  by_contra beyond
  obtain rfl : b = r + 1 := by omega
  have strict := (rounds.even (by omega)).2
  linarith

theorem Rounds.unique (rounds : Rounds num den r) {b : Nat} (above : 2 * b * den < 2 * num + den)
    (below : 2 * num < (2 * b + 1) * den) : r = b :=
  Nat.le_antisymm (rounds.le below) (rounds.ge above)

theorem Rounds.half {q : Nat} (rounds : Rounds (2 * q + 1) 2 r) : r = q + q % 2 := by
  have low := rounds.low
  have high := rounds.high
  have even := rounds.even
  omega

/-- Rounding depends on the quotient alone. -/
theorem roundHalfEven_scale {c : Nat} (positive : 0 < c) (num den : Nat) :
    roundHalfEven (c * num) (c * den) = roundHalfEven num den := by
  have doubled : 2 * (c * (num % den)) = c * (2 * (num % den)) := Nat.mul_left_comm 2 c _
  unfold roundHalfEven
  dsimp only
  rw [Nat.mul_div_mul_left num den positive, Nat.mul_mod_mul_left, doubled]
  simp only [Nat.mul_lt_mul_left positive]

theorem roundHalfEven_one (n : Nat) : roundHalfEven n 1 = n := by
  simp [roundHalfEven, Nat.mod_one]

theorem roundHalfEven_multiple (positive : 0 < den) (q : Nat) : roundHalfEven (den * q) den = q := by
  have scaled := roundHalfEven_scale positive q 1
  rwa [Nat.mul_one, roundHalfEven_one] at scaled

/-! Fifty-three binary digits. -/

/-- The leading digits of a number: what it comes to in units of the last of them. -/
def leading (n : Nat) : Nat := roundHalfEven n (2 ^ (n.log2 - 52))

/-- The number of that many digits that is nearest. -/
def nearest (n : Nat) : Nat := leading n * 2 ^ (n.log2 - 52)

/-- The significand of the double nearest to a number, or twice the least one where rounding carries. -/
def significand (n : Nat) : Nat := leading n * 2 ^ (52 - n.log2)

theorem leading_rounds (n : Nat) : Rounds n (2 ^ (n.log2 - 52)) (leading n) :=
  roundHalfEven_rounds (Nat.two_pow_pos _)

theorem log2_sub_of_short (short : n < 2 ^ 53) : n.log2 - 52 = 0 := by
  by_cases zero : n = 0
  · subst zero
    rfl
  · have := (Nat.log2_lt zero).2 short
    omega

/-- Short numbers are kept. -/
theorem leading_of_short (short : n < 2 ^ 53) : leading n = n := by
  rw [leading, log2_sub_of_short short, pow_zero, roundHalfEven_one]

theorem nearest_of_short (short : n < 2 ^ 53) : nearest n = n := by
  unfold nearest
  rw [leading_of_short short, log2_sub_of_short short, pow_zero, Nat.mul_one]

theorem significand_bounds (positive : 0 < n) : 2 ^ 52 ≤ significand n ∧ significand n ≤ 2 ^ 53 := by
  have below : 2 ^ n.log2 ≤ n := Nat.log2_self_le positive.ne'
  have above : n < 2 ^ (n.log2 + 1) := Nat.lt_log2_self
  unfold significand
  rcases Nat.lt_or_ge n (2 ^ 53) with short | long
  · have few : n.log2 ≤ 52 := Nat.lt_succ_iff.1 ((Nat.log2_lt positive.ne').2 short)
    obtain ⟨k, places⟩ := Nat.exists_eq_add_of_le few
    rw [leading_of_short short, places, Nat.add_sub_cancel_left, pow_add]
    have next : 2 ^ 53 = 2 ^ (n.log2 + 1) * 2 ^ k := by rw [← pow_add]; congr 1; omega
    rw [next]
    exact ⟨Nat.mul_le_mul_right _ below, Nat.mul_le_mul_right _ above.le⟩
  · have many : 53 ≤ n.log2 := (Nat.le_log2 positive.ne').2 long
    obtain ⟨k, places⟩ := Nat.exists_eq_add_of_le (Nat.le_of_succ_le many)
    have rounds := leading_rounds n
    rw [places, Nat.add_sub_cancel_left] at rounds
    rw [Nat.sub_eq_zero_of_le (Nat.le_of_succ_le many), pow_zero, Nat.mul_one]
    rw [places] at below above
    have unit : 0 < 2 ^ k := Nat.two_pow_pos k
    constructor
    · apply rounds.ge
      rw [pow_add] at below
      linarith
    · apply rounds.le
      have next : 52 + k + 1 = 53 + k := by omega
      rw [next, pow_add] at above
      linarith

/-- Both are the leading digits, at different places. -/
theorem significand_scaled (n : Nat) : significand n * 2 ^ n.log2 = nearest n * 2 ^ 52 := by
  unfold significand nearest
  rw [mul_assoc, mul_assoc, ← pow_add, ← pow_add]
  congr 2
  omega

/-- The significand is what the number comes to in units of its own size. -/
theorem significand_eq (n : Nat) : significand n = roundHalfEven (2 ^ 52 * n) (2 ^ n.log2) := by
  unfold significand
  rcases Nat.le_total 52 n.log2 with many | few
  · have unit : 2 ^ n.log2 = 2 ^ 52 * 2 ^ (n.log2 - 52) := by rw [← pow_add, Nat.add_sub_cancel' many]
    rw [Nat.sub_eq_zero_of_le many, pow_zero, Nat.mul_one, unit, roundHalfEven_scale (Nat.two_pow_pos 52)]
    rfl
  · have short : n < 2 ^ 53 := Nat.lt_of_lt_of_le Nat.lt_log2_self
      (Nat.pow_le_pow_right Nat.two_pos (Nat.succ_le_succ few))
    have whole : 2 ^ 52 * n = 2 ^ n.log2 * (n * 2 ^ (52 - n.log2)) := by
      rw [Nat.mul_left_comm, ← pow_add, Nat.add_sub_cancel' few, Nat.mul_comm]
    rw [leading_of_short short, whole, roundHalfEven_multiple (Nat.two_pow_pos _)]

/-! The end of the doubles. -/

/-- Half a unit of the largest doubles. -/
def topHalf : Nat := 2 ^ 970

/-- The least number that is too large for every double: half a unit above the largest one. -/
def tooLarge : Nat := (2 ^ 54 - 1) * topHalf

theorem topHalf_pos : 0 < topHalf := by
  unfold topHalf
  positivity

theorem pow_le_topHalf {places k : Nat} (low : places ≤ k + 970) : 2 ^ places ≤ 2 ^ k * topHalf := by
  rw [topHalf, ← pow_add]
  exact Nat.pow_le_pow_right Nat.two_pos low

theorem topHalf_le_pow {places k : Nat} (high : k + 970 ≤ places) : 2 ^ k * topHalf ≤ 2 ^ places := by
  rw [topHalf, ← pow_add]
  exact Nat.pow_le_pow_right Nat.two_pos high

/-! Doubles as significand and exponent. -/

/-- A significand of full length and an exponent. What they stand for is half of the number. -/
structure Halves (m : Nat) (e : Int) (v : Nat) : Prop where
  filled : 2 ^ 52 ≤ m
  bounded : m < 2 ^ 53
  least : -53 ≤ e
  value : m * 2 ^ (e + 53).toNat = v * 2 ^ 52

theorem Halves.pos {m v : Nat} {e : Int} (halves : Halves m e v) : 0 < v := by
  have filled : 0 < m := Nat.lt_of_lt_of_le (Nat.two_pow_pos 52) halves.filled
  have product : 0 < v * 2 ^ 52 := halves.value ▸ Nat.mul_pos filled (Nat.two_pow_pos _)
  exact Nat.pos_of_mul_pos_right product

/-- Doubles end where the exponent does. -/
theorem Halves.exponent_le_iff {m v : Nat} {e : Int} (halves : Halves m e v) :
    e ≤ 971 ↔ v < 2 ^ 55 * topHalf := by
  have value := halves.value
  constructor
  · intro low
    have unit : 2 ^ (e + 53).toNat ≤ 2 ^ 54 * topHalf := by
      apply pow_le_topHalf
      omega
    have product := Nat.mul_le_mul_left m unit
    have bounded := Nat.mul_lt_mul_of_pos_right halves.bounded (Nat.mul_pos (Nat.two_pow_pos 54) topHalf_pos)
    omega
  · intro bound
    by_contra high
    have unit : 2 ^ 55 * topHalf ≤ 2 ^ (e + 53).toNat := by
      apply topHalf_le_pow
      omega
    have product := Nat.mul_le_mul halves.filled unit
    omega

/-- The significand and the exponent where rounding may have carried. -/
def carried (sig : Nat) (e : Int) : Nat × Int := if sig < 2 ^ 53 then (sig, e) else (2 ^ 52, e + 1)

theorem carried_halves {sig v : Nat} {e : Int} (filled : 2 ^ 52 ≤ sig) (bounded : sig ≤ 2 ^ 53)
    (least : -53 ≤ e) (value : sig * 2 ^ (e + 53).toNat = v * 2 ^ 52) :
    Halves (carried sig e).1 (carried sig e).2 v := by
  unfold carried
  split
  · exact ⟨filled, by assumption, least, value⟩
  · obtain rfl : sig = 2 ^ 53 := by omega
    obtain ⟨k, rfl⟩ : ∃ k : Nat, e = k - 53 := ⟨(e + 53).toNat, by omega⟩
    have here : ((k : Int) - 53 + 53).toNat = k := by omega
    have next : ((k : Int) - 53 + 1 + 53).toNat = k + 1 := by omega
    refine ⟨Nat.le_refl _, Nat.pow_lt_pow_right (by decide) (by decide), by dsimp only; omega, ?_⟩
    rw [here] at value
    dsimp only
    rw [next, ← value, ← pow_add, ← pow_add]
    congr 1
    omega

/-- The exponent field takes up what the significand is too long by. -/
theorem unpack_carried {sig biased : Nat} (filled : 2 ^ 52 ≤ sig) (bounded : sig ≤ 2 ^ 53) :
    unpack (biased * 2 ^ 52 + sig) = carried sig (biased - 1074) := by
  unfold unpack carried
  simp only [Nat.pow_eq]
  split
  · omega
  · split
    · have field : (biased * 2 ^ 52 + sig) / 2 ^ 52 = biased + 1 := by omega
      have fraction : (biased * 2 ^ 52 + sig) % 2 ^ 52 = sig - 2 ^ 52 := by omega
      rw [field, fraction, Nat.sub_add_cancel filled]
      congr 1
      omega
    · have field : (biased * 2 ^ 52 + sig) / 2 ^ 52 = biased + 2 := by omega
      have fraction : (biased * 2 ^ 52 + sig) % 2 ^ 52 = 0 := by omega
      rw [field, fraction, Nat.zero_add]
      congr 1
      omega

theorem binaryExponent_one (positive : 0 < n) : binaryExponent n 1 = n.log2 := by
  have below : 2 ^ n.log2 ≤ n := Nat.log2_self_le positive.ne'
  have one : Nat.log2 1 = 0 := rfl
  unfold binaryExponent
  simp [one, below]

theorem nearestBits_one (positive : 0 < n) :
    nearestBits n 1 = min ((n.log2 + 1022) * 2 ^ 52 + significand n) infinityBits := by
  unfold nearestBits significand leading
  rw [if_neg positive.ne', binaryExponent_one positive]
  have above : max ((n.log2 : Int) - 52) (-1074) = (n.log2 : Int) - 52 := by omega
  have biased : ((n.log2 : Int) - 52 + 1074).toNat = n.log2 + 1022 := by omega
  dsimp only
  rw [above, biased]
  congr 2
  split
  · have up : ((n.log2 : Int) - 52).toNat = n.log2 - 52 := by omega
    have down : 52 - n.log2 = 0 := by omega
    rw [up, down, Nat.one_mul, Nat.pow_eq, pow_zero, Nat.mul_one]
  · have up : n.log2 - 52 = 0 := by omega
    have down : (-((n.log2 : Int) - 52)).toNat = 52 - n.log2 := by omega
    rw [up, down, Nat.pow_eq, pow_zero, roundHalfEven_one, roundHalfEven_one]

theorem nearestBits_lt_iff (positive : 0 < n) : nearestBits n 1 < infinityBits ↔ n < tooLarge := by
  obtain ⟨filled, bounded⟩ := significand_bounds positive
  have below : 2 ^ n.log2 ≤ n := Nat.log2_self_le positive.ne'
  have above : n < 2 ^ (n.log2 + 1) := Nat.lt_log2_self
  have unit := topHalf_pos
  have bits : nearestBits n 1 < infinityBits ↔
      (n.log2 + 1022) * 2 ^ 52 + significand n < 2047 * 2 ^ 52 := by
    rw [nearestBits_one positive, min_lt_iff]
    exact or_iff_left (Nat.lt_irrefl _)
  rw [bits, tooLarge]
  rcases Nat.lt_trichotomy n.log2 1023 with short | last | long
  · have bound : 2 ^ (n.log2 + 1) ≤ 2 ^ 53 * topHalf := pow_le_topHalf (Nat.succ_le_of_lt short)
    exact iff_of_true (by omega) (by omega)
  · -- The last units below the limit decide, by the rounding of the leading digits.
    have rounds := leading_rounds n
    have places : 2 ^ (n.log2 - 52) = 2 * topHalf := by rw [last, topHalf, ← pow_succ']
    rw [places] at rounds
    have same : significand n = leading n := by rw [significand, last, pow_zero, Nat.mul_one]
    rw [same, last]
    constructor
    · intro finite
      by_contra beyond
      have := rounds.ge_of_even (b := 2 ^ 53) (by decide) (by omega) (by omega)
      omega
    · intro finite
      have := rounds.le (b := 2 ^ 53 - 1) (by omega)
      omega
  · have bound : 2 ^ 54 * topHalf ≤ 2 ^ n.log2 := topHalf_le_pow (Nat.succ_le_of_lt long)
    exact iff_of_false (by omega) (by omega)

/-- The double nearest to a number has twice the number of those digits. -/
theorem unpack_nearestBits (positive : 0 < n) (finite : nearestBits n 1 < infinityBits) :
    Halves (unpack (nearestBits n 1)).1 (unpack (nearestBits n 1)).2 (2 * nearest n) := by
  obtain ⟨filled, bounded⟩ := significand_bounds positive
  have bits : nearestBits n 1 = (n.log2 + 1022) * 2 ^ 52 + significand n := by
    rw [nearestBits_one positive] at finite ⊢
    omega
  rw [bits, unpack_carried filled bounded]
  apply carried_halves filled bounded
  · omega
  · have places : (((n.log2 + 1022 : Nat) : Int) - 1074 + 53).toNat = n.log2 + 1 := by omega
    rw [places, pow_succ', Nat.mul_left_comm, significand_scaled, Nat.mul_assoc]

end Metamorph.Number
