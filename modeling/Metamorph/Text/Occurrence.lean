/-! Where one text occurs in another. The search takes time in proportion to both;
`occurrence?_eq_some_iff` and `occurrence?_eq_none_iff` say what it finds. -/
namespace Metamorph.Text

/-- Number of characters before the first occurrence of `t` in `s`. -/
def occurrence? (t s : String) : Option Nat :=
  if t.isEmpty then some 0
  else (s.toSlice.find? t.toSlice).map fun p => (s.toSlice.sliceTo p).copy.length

open String.Slice Pattern.Model

theorem find?_eq_some_iff {t s : String} (nonempty : t ≠ "") {p : s.toSlice.Pos} :
    s.toSlice.find? t.toSlice = some p ↔
      (∃ front back, p.Splits front (t ++ back)) ∧
        ∀ q < p, ¬ ∃ front back, q.Splits front (t ++ back) := by
  have isEmpty : t.toSlice.isEmpty = false := by simpa using nonempty
  have := ForwardSliceSearcher.strictPatternModel isEmpty
  have := ForwardSliceSearcher.lawfulToForwardSearcherModel isEmpty
  simp [Pattern.Model.find?_eq_some_iff, ForwardSliceSearcher.matchesAt_iff_splits]

theorem find?_eq_none_iff {t s : String} (nonempty : t ≠ "") :
    s.toSlice.find? t.toSlice = none ↔ ¬ ∃ front back, s = front ++ t ++ back := by
  have isEmpty : t.toSlice.isEmpty = false := by simpa using nonempty
  have := ForwardSliceSearcher.strictPatternModel isEmpty
  have := ForwardSliceSearcher.lawfulToForwardSearcherModel isEmpty
  rw [Pattern.Model.find?_eq_none_iff, ← not_exists,
    ForwardSliceSearcher.exists_matchesAt_iff_eq_append]
  simp

/-- A part of a text stands behind as many characters as there are in front of it. -/
theorem exists_splits {t s front back : String} (h : s = front ++ t ++ back) :
    ∃ p : s.toSlice.Pos, p.Splits front (t ++ back) := by
  have h : s = front ++ (t ++ back) := by rw [h, String.append_assoc]
  exact ⟨_, String.Pos.splits_toSlice_iff.2 (String.Pos.splits_ofEqAppend h)⟩

theorem occurrence?_eq_none_iff {t s : String} :
    occurrence? t s = none ↔ ¬ ∃ front back, s = front ++ t ++ back := by
  by_cases empty : t = ""
  · subst empty
    simpa [occurrence?] using ⟨"", s, by simp⟩
  · simp [occurrence?, empty, find?_eq_none_iff empty]

theorem occurrence?_eq_some {t s : String} {n : Nat} (h : occurrence? t s = some n) :
    (∃ front back, s = front ++ t ++ back ∧ front.length = n) ∧
      ∀ front back, s = front ++ t ++ back → n ≤ front.length := by
  by_cases empty : t = ""
  · subst empty
    obtain rfl : 0 = n := by simpa [occurrence?] using h
    exact ⟨⟨"", s, by simp⟩, by simp⟩
  · obtain ⟨p, found, rfl⟩ : ∃ p, s.toSlice.find? t.toSlice = some p ∧
        (s.toSlice.sliceTo p).copy.length = n := by simpa [occurrence?, empty] using h
    obtain ⟨⟨front, back, splits⟩, least⟩ := (find?_eq_some_iff empty).1 found
    rw [splits.copy_sliceTo_eq]
    refine ⟨⟨front, back, ?_, rfl⟩, fun other rest h => ?_⟩
    · simpa [String.append_assoc] using splits.eq_append
    · obtain ⟨q, splits'⟩ := exists_splits h
      have le : p ≤ q := Std.not_lt.1 fun lt => least q lt ⟨other, rest, splits'⟩
      obtain ⟨more, rfl, -⟩ := (splits.le_iff_exists_eq_append splits').1 le
      simp

theorem occurrence?_eq_some_iff {t s : String} {n : Nat} :
    occurrence? t s = some n ↔
      (∃ front back, s = front ++ t ++ back ∧ front.length = n) ∧
        ∀ front back, s = front ++ t ++ back → n ≤ front.length := by
  refine ⟨occurrence?_eq_some, fun ⟨⟨front, back, h, count⟩, least⟩ => ?_⟩
  cases found : occurrence? t s with
  | none => exact absurd ⟨front, back, h⟩ (occurrence?_eq_none_iff.1 found)
  | some m =>
    obtain ⟨⟨other, rest, h', count'⟩, least'⟩ := occurrence?_eq_some found
    have := least other rest h'
    have := least' front back h
    rw [show m = n by omega]

end Metamorph.Text
