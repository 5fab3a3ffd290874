import Mathlib.Algebra.Order.Field.Rat
import Mathlib.Data.Prod.Lex
import Mathlib.Data.String.Basic
import Metamorph.Text.CloseMatch

/-! The names that a hint proposes depend on which names there are, not on their order: they are ranked by
how alike they are, and equally alike ones by their texts. -/
namespace Metamorph.Text
variable {word : String} {names others : List String}

theorem likeness_total_pos (word name : String) : 0 < (likeness word name).total := by
  unfold likeness
  dsimp only
  split
  · exact Nat.one_pos
  · rename_i some
    exact Nat.pos_of_ne_zero some

def Likeness.ratio (l : Likeness) : ℚ := l.matched / l.total

theorem Likeness.lt_iff {l r : Likeness} (left : 0 < l.total) (right : 0 < r.total) :
    l.lt r = true ↔ l.ratio < r.ratio := by
  rw [lt, decide_eq_true_iff, ratio, ratio, div_lt_div_iff₀ (by exact_mod_cast left) (by exact_mod_cast right)]
  exact_mod_cast Iff.rfl

/-- Where a name stands among the names that are like the word. -/
def rank (word name : String) : ℚ ×ₗ String := toLex ((likeness word name).ratio, name)

theorem rank_injective (word : String) : Function.Injective (rank word) := by
  intro name other same
  exact congrArg (fun place => (ofLex place).2) same

/-- Of two names the one of the greater rank goes first. -/
theorem ranked_iff (word name other : String) :
    ((likeness word other).lt (likeness word name) ||
      (!(likeness word name).lt (likeness word other) && decide (other ≤ name))) =
        decide (rank word other ≤ rank word name) := by
  rw [Bool.eq_iff_iff, Bool.or_eq_true, Bool.and_eq_true, Bool.not_eq_true', ← Bool.not_eq_true,
    Likeness.lt_iff (likeness_total_pos ..) (likeness_total_pos ..),
    Likeness.lt_iff (likeness_total_pos ..) (likeness_total_pos ..), decide_eq_true_iff,
    decide_eq_true_iff, rank, rank, Prod.Lex.toLex_le_toLex, not_lt]
  constructor
  · rintro (less | ⟨notLess, before⟩)
    · exact .inl less
    · rcases lt_or_eq_of_le notLess with less | same
      · exact .inl less
      · exact .inr ⟨same, before⟩
  · rintro (less | ⟨same, before⟩)
    · exact .inl less
    · exact .inr ⟨same.le, before⟩

/-- The close names, the most alike first. -/
theorem closeMatches_eq (word : String) (names : List String) (limit : Nat) :
    closeMatches word names limit =
      (((names.filter (mayBeClose word)).filter fun name => (likeness word name).isClose).mergeSort
        fun name other => decide (rank word other ≤ rank word name)).take limit := by
  unfold closeMatches
  dsimp only
  rw [List.filter_map, ← List.map_mergeSort fun name _ other _ => (ranked_iff word name other).symm,
    ← List.map_take, List.map_map]
  exact List.map_id _

theorem closeMatches_perm (same : names.Perm others) (limit : Nat) :
    closeMatches word names limit = closeMatches word others limit := by
  rw [closeMatches_eq, closeMatches_eq]
  congr 1
  have trans (a b c : String) (first : decide (rank word b ≤ rank word a) = true)
      (second : decide (rank word c ≤ rank word b) = true) : decide (rank word c ≤ rank word a) = true := by
    rw [decide_eq_true_iff] at first second ⊢
    exact second.trans first
  have total (a b : String) :
      (decide (rank word b ≤ rank word a) || decide (rank word a ≤ rank word b)) = true := by
    rw [← Bool.decide_or, decide_eq_true_iff]
    exact le_total _ _
  apply List.Perm.eq_of_pairwise _ (List.pairwise_mergeSort trans total _) (List.pairwise_mergeSort trans total _)
  · apply (List.mergeSort_perm _ _).trans
    exact ((same.filter _).filter _).trans (List.mergeSort_perm _ _).symm
  · intro a b _ _ before behind
    rw [decide_eq_true_iff] at before behind
    exact rank_injective word (behind.antisymm before)

end Metamorph.Text
