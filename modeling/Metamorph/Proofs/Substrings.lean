import Metamorph.Operation.OnText

/-! Parts of a text. What stands from one place to another is what is left of the text when something is taken
away in front and behind; searching finds the first place of a part, and a text starts or ends with its parts
at the first and at the last place. -/
namespace Metamorph.Operation
open Text
variable {typeOf : Value → String} {s t u front back : String} {i j : Int}

theorem slice?_eq_some (is : slice? s i j = some u) :
    ∃ front back, s = front ++ u ++ back ∧ i = front.length + 1 ∧ j = front.length + u.length := by
  unfold slice? at is
  split at is
  · cases is
  · rename_i inside
    obtain rfl := Option.some.inj is
    have characters : s.toList.length = s.length := String.length_toList
    refine ⟨.ofList (s.toList.take (i - 1).toNat),
      .ofList (s.toList.drop ((i - 1).toNat + (j + 1 - i).toNat)), ?_, ?_, ?_⟩
    · rw [← String.toList_inj]
      simp [String.Slice.toList_copy_take, ← List.drop_drop]
    · rw [String.length_ofList, List.length_take]
      omega
    · rw [String.length_ofList, ← String.length_toList]
      simp only [String.Slice.toList_copy_take, String.toList_copy_drop, List.length_take, List.length_drop]
      omega

theorem slice?_append (front u back : String) :
    slice? (front ++ u ++ back) (front.length + 1) (front.length + u.length) = some u := by
  unfold slice?
  rw [if_neg (by simp only [String.length_append]; omega), Option.some_inj, ← String.toList_inj]
  have start : ((front.length : Int) + 1 - 1).toNat = front.toList.length := by
    rw [String.length_toList]
    omega
  have size : ((front.length : Int) + u.length + 1 - (front.length + 1)).toNat = u.toList.length := by
    rw [String.length_toList]
    omega
  simp only [start, size, String.Slice.toList_copy_take, String.toList_copy_drop, String.toList_append,
    List.append_assoc, List.drop_left, List.take_left]

/-- The text has a part from one place to another, both counted from one and included. -/
def Cut (typeOf : Value → String) (s : String) (i j : Int) (u : String) : Prop :=
  onText typeOf .substring s [.integer i, .integer j] = .ok (.string u)

theorem onText_substring {v : Value} (is : onText typeOf .substring s [.integer i, .integer j] = .ok v) :
    ∃ u, v = .string u ∧ slice? s i j = some u := by
  change substring s i j = .ok v at is
  unfold substring at is
  split at is
  · rename_i u found
    exact ⟨u, (Except.ok.inj is).symm, found⟩
  · generalize Collection.indexText i = first, Collection.indexText j = second at is
    cases first <;> cases second <;> cases is

theorem cut_iff : Cut typeOf s i j u ↔
    ∃ front back, s = front ++ u ++ back ∧ i = front.length + 1 ∧ j = front.length + u.length := by
  constructor
  · intro cut
    obtain ⟨_, is, found⟩ := onText_substring cut
    exact slice?_eq_some (Value.string.inj is ▸ found)
  · rintro ⟨front, back, rfl, rfl, rfl⟩
    change substring _ _ _ = _
    rw [substring, slice?_append]

theorem cut_length (cut : Cut typeOf s i j u) : (u.length : Int) = j - i + 1 := by
  obtain ⟨front, back, -, rfl, rfl⟩ := cut_iff.1 cut
  omega

/-- There is a part from one place to another if both are within the text and the second is not before the
first by more than one. -/
theorem exists_substring_iff :
    (∃ v, onText typeOf .substring s [.integer i, .integer j] = .ok v) ↔
      1 ≤ i ∧ j ≤ s.length ∧ i ≤ j + 1 := by
  constructor
  · rintro ⟨v, is⟩
    obtain ⟨u, rfl, -⟩ := onText_substring is
    obtain ⟨front, back, rfl, rfl, rfl⟩ := cut_iff.1 is
    simp only [String.length_append]
    omega
  · intro inside
    refine ⟨.string ((s.drop (i - 1).toNat).take (j + 1 - i).toNat).copy, ?_⟩
    change substring s i j = _
    rw [substring, slice?, if_neg (by omega)]

/-- Every place parts the text in two. -/
theorem exists_halves (typeOf : Value → String) {k : Nat} (within : k ≤ s.length) :
    ∃ front back, Cut typeOf s 1 k front ∧ Cut typeOf s (k + 1) s.length back ∧ front ++ back = s := by
  have whole : String.ofList (s.toList.take k) ++ String.ofList (s.toList.drop k) = s := by
    simp [← String.ofList_append]
  have size : (String.ofList (s.toList.take k)).length = k := by
    rw [String.length_ofList, List.length_take, String.length_toList, Nat.min_eq_left within]
  refine ⟨.ofList (s.toList.take k), .ofList (s.toList.drop k), ?_, ?_, whole⟩
  · refine cut_iff.2 ⟨"", .ofList (s.toList.drop k), ?_, rfl, ?_⟩
    · rw [String.empty_append, whole]
    · rw [size]
      simp
  · refine cut_iff.2 ⟨.ofList (s.toList.take k), "", ?_, ?_, ?_⟩
    · rw [String.append_empty, whole]
    · rw [size]
    · rw [← Int.natCast_add, ← String.length_append, whole]

/-- The text has the other one as a part that starts at the place. -/
def StandsAt (typeOf : Value → String) (s t : String) (p : Int) : Prop :=
  Cut typeOf s p (p + t.length - 1) t

theorem standsAt_iff {p : Int} : StandsAt typeOf s t p ↔
    ∃ front back, s = front ++ t ++ back ∧ p = front.length + 1 := by
  rw [StandsAt, cut_iff]
  refine exists_congr fun front => exists_congr fun back => and_congr_right fun _ => ?_
  omega

/-- The first place where the other text stands; zero if there is none. -/
def FirstPlace (typeOf : Value → String) (s t : String) (p : Nat) : Prop :=
  (1 ≤ p ∧ StandsAt typeOf s t p ∧ ∀ q, StandsAt typeOf s t q → p ≤ q) ∨
    p = 0 ∧ ∀ q, ¬ StandsAt typeOf s t q

theorem firstPlace_indexIn : FirstPlace typeOf s t (indexIn t s) := by
  unfold indexIn
  cases found : occurrence? t s with
  | none =>
    refine .inr ⟨rfl, fun q stands => ?_⟩
    obtain ⟨front, back, is, -⟩ := standsAt_iff.1 stands
    exact occurrence?_eq_none_iff.1 found ⟨front, back, is⟩
  | some n =>
    obtain ⟨⟨front, back, is, size⟩, least⟩ := occurrence?_eq_some_iff.1 found
    refine .inl ⟨Nat.succ_pos n, standsAt_iff.2 ⟨front, back, is, by simp [size]⟩, fun q stands => ?_⟩
    obtain ⟨other, rest, is', rfl⟩ := standsAt_iff.1 stands
    have := least other rest is'
    dsimp only
    omega

theorem indexIn_eq_one_iff (typeOf : Value → String) : indexIn t s = 1 ↔ StandsAt typeOf s t 1 := by
  have first : FirstPlace typeOf s t (indexIn t s) := firstPlace_indexIn
  rcases first with ⟨positive, stands, least⟩ | ⟨zero, nowhere⟩
  · constructor
    · intro one
      rw [one] at stands
      exact stands
    · intro stands
      have := least 1 stands
      omega
  · refine iff_of_false ?_ (nowhere 1)
    rw [zero]
    exact Nat.zero_ne_one

theorem startsWith_iff : s.startsWith t = true ↔ StandsAt typeOf s t 1 := by
  rw [String.startsWith_string_iff, standsAt_iff]
  constructor
  · rintro ⟨rest, is⟩
    refine ⟨"", .ofList rest, ?_, rfl⟩
    rw [← String.toList_inj]
    simp [is]
  · rintro ⟨front, back, rfl, start⟩
    obtain rfl : front = "" := String.length_eq_zero_iff.1 (by omega)
    simp

theorem endsWith_iff : s.endsWith t = true ↔
    t.length ≤ s.length ∧ Cut typeOf s (s.length - t.length + 1) s.length t := by
  rw [String.endsWith_eq_endsWith_toSlice, String.Slice.endsWith_string_iff, cut_iff]
  constructor
  · rintro ⟨rest, is⟩
    have parted : s = String.ofList rest ++ t ++ "" := by
      rw [← String.toList_inj]
      simpa using is.symm
    have size := congrArg String.length parted
    simp only [String.length_append, String.length_empty] at size
    exact ⟨by omega, .ofList rest, "", parted, by omega, by omega⟩
  · rintro ⟨-, front, back, rfl, -, stop⟩
    obtain rfl : back = "" := by
      simp only [String.length_append] at stop
      exact String.length_eq_zero_iff.1 (by omega)
    simp

/-- Texts joined one after the other. -/
def joined (typeOf : Value → String) (text : String) (parts : List Value) : Result String :=
  parts.foldlM (fun joined part => do
    requireText typeOf "concat" (← onText typeOf .concat joined [part])) text

theorem joined_strings (typeOf : Value → String) (text : String) (chars : List Char) :
    joined typeOf text (chars.map fun c => .string c.toString) = .ok (text ++ .ofList chars) := by
  unfold joined
  induction chars generalizing text with
  | nil => simp [pure, Except.pure]
  | cons c rest ih =>
    rw [List.map_cons, List.foldlM_cons]
    refine (ih (text ++ c.toString)).trans ?_
    rw [Char.toString_eq_singleton, String.ofList_cons, String.append_assoc]

/-- The parts of a text fit together. There is one from one place to another if both are in range, with as many
characters as there are places; the parts up to a place and behind it make up the text. The place of another
text is the first one where it stands, so that one it starts with is at the first place of all and one it ends
with at the last; and the text is its characters joined in their order. -/
theorem parts_cohere (typeOf : Value → String) (s t : String) :
    onText typeOf .size s [] = .ok (.integer s.length) ∧
    (∀ i j : Int,
      ((∃ v, onText typeOf .substring s [.integer i, .integer j] = .ok v) ↔
        1 ≤ i ∧ j ≤ s.length ∧ i ≤ j + 1) ∧
      ∀ v, onText typeOf .substring s [.integer i, .integer j] = .ok v →
        ∃ u, v = .string u ∧ (u.length : Int) = j - i + 1) ∧
    (∀ k ≤ s.length, ∃ front back, Cut typeOf s 1 k front ∧ Cut typeOf s (k + 1) s.length back ∧
      onText typeOf .concat front [.string back] = .ok (.string s)) ∧
    (∃ p : Nat, onText typeOf .indexOf s [.string t] = .ok (.integer p) ∧ FirstPlace typeOf s t p ∧
      onText typeOf .startsWith s [.string t] = .ok (.boolean (p == 1))) ∧
    (∃ ends, onText typeOf .endsWith s [.string t] = .ok (.boolean ends) ∧
      (ends = true ↔ t.length ≤ s.length ∧ Cut typeOf s (s.length - t.length + 1) s.length t)) ∧
    ∃ parts, onText typeOf .toSequence s [] = .ok (.sequence parts) ∧
      joined typeOf "" parts = .ok s := by
  refine ⟨rfl, fun i j => ⟨exists_substring_iff, ?_⟩, ?_, ?_, ?_, ?_⟩
  · intro v is
    obtain ⟨u, rfl, -⟩ := onText_substring is
    exact ⟨u, rfl, cut_length is⟩
  · intro k within
    obtain ⟨front, back, first, second, whole⟩ := exists_halves typeOf within
    refine ⟨front, back, first, second, ?_⟩
    rw [← whole]
    rfl
  · refine ⟨indexIn t s, rfl, firstPlace_indexIn, ?_⟩
    have starts : s.startsWith t = (indexIn t s == 1) := by
      rw [Bool.eq_iff_iff, beq_iff_eq, indexIn_eq_one_iff typeOf]
      exact startsWith_iff
    rw [← starts]
    rfl
  · exact ⟨s.endsWith t, rfl, endsWith_iff⟩
  · refine ⟨_, rfl, ?_⟩
    rw [joined_strings, String.ofList_toList, String.empty_append]

/-- A text in halves, an empty part of it, and a range that ends too far before it starts. -/
theorem parts_cohere_banana :
    let typeOf (_ : Value) := ""
    (∃ front back, Cut typeOf "banana" 1 3 front ∧ Cut typeOf "banana" 4 6 back ∧
      onText typeOf .concat front [.string back] = .ok (.string "banana")) ∧
    Cut typeOf "banana" 7 6 "" ∧
    ¬ ∃ v, onText typeOf .substring "banana" [.integer 4, .integer 2] = .ok v := by
  intro typeOf
  obtain ⟨-, ranges, halves, -⟩ := parts_cohere typeOf "banana" "an"
  refine ⟨halves 3 (by decide), ?_, ?_⟩
  · obtain ⟨v, is⟩ := (ranges 7 6).1.2 (by decide)
    obtain ⟨u, rfl, size⟩ := (ranges 7 6).2 v is
    obtain rfl : u = "" := String.length_eq_zero_iff.1 (by omega)
    exact is
  · intro found
    exact absurd ((ranges 4 2).1.1 found) (by decide)

end Metamorph.Operation
