import Metamorph.Proofs.Multiplicity
import Metamorph.Proofs.StructuralEquality

/-! Union, intersection and difference of two collections. How often a value is in the outcome is decided by
how often it is in either operand: the numbers are added, the smaller one is taken, or the value goes
altogether, and a kind without repeats keeps one of each. Items stay in the order they had. -/
namespace Metamorph

namespace CollectionKind

theorem rank_richer (kind other : CollectionKind) :
    (kind.richer other).rank = max kind.rank other.rank := by
  cases kind <;> cases other <;> rfl

theorem richer_comm (kind other : CollectionKind) : kind.richer other = other.richer kind := by
  cases kind <;> cases other <;> rfl

/-- How many of so many equal items a collection of the kind has. -/
def capped (kind : CollectionKind) (n : Nat) : Nat := if kind.unique then min 1 n else n

theorem capped_pos_iff {kind : CollectionKind} {n : Nat} : 0 < kind.capped n ↔ 0 < n := by
  unfold capped
  split <;> omega

/-- Which of the items a collection of the kind has. -/
def kept (kind : CollectionKind) (items : List Value) : List Value :=
  if kind.unique then Value.distinct items else items

theorem kept_sublist (kind : CollectionKind) (items : List Value) :
    (kind.kept items).Sublist items := by
  unfold kept
  split
  · exact Value.distinct_sublist items
  · exact .refl items

end CollectionKind

namespace Collection
open Operation
variable {typeOf : Value → String} {kind otherKind : CollectionKind} {items others : List Value}

theorem multiplicity_kept (kind : CollectionKind) (items : List Value) (x : Value) :
    multiplicity x (kind.kept items) = kind.capped (multiplicity x items) := by
  unfold CollectionKind.kept CollectionKind.capped
  split
  · exact multiplicity_distinct items x
  · rfl

theorem shared_sublist (items others : List Value) : (shared items others).Sublist items :=
  paired_sublist _ items

theorem multiplicity_shared (items others : List Value) (x : Value) :
    multiplicity x (shared items others) = min (multiplicity x items) (multiplicity x others) := by
  rw [shared, multiplicity_paired, Key.getD_counts, ← multiplicity_eq_count]

theorem without_sublist (items removed : List Value) : (without items removed).Sublist items :=
  List.filter_sublist

theorem multiplicity_without (items removed : List Value) (x : Value) :
    multiplicity x (without items removed) =
      if 0 < multiplicity x removed then 0 else multiplicity x items := by
  -- Whether an item stays depends on its key alone.
  have stays (v : Value) : (Std.TreeSet.ofList (removed.map Value.key)).contains v.key =
      decide (0 < multiplicity v removed) := by
    rw [Std.TreeSet.contains_ofList, Bool.eq_iff_iff, List.contains_iff_mem, decide_eq_true_iff,
      multiplicity_pos_iff]
  induction items with
  | nil => simp [without]
  | cons y rest ih =>
    unfold without at ih ⊢
    dsimp only at ih ⊢
    rw [List.filter_cons, stays]
    by_cases same : y.key = x.key
    · have equal : multiplicity y removed = multiplicity x removed := by
        rw [multiplicity_eq_count, multiplicity_eq_count, same]
      by_cases gone : 0 < multiplicity x removed
      · simpa [equal, gone] using ih
      · simpa [equal, gone, same] using ih
    · split
      · simpa [same] using ih
      · simpa [same] using ih

/-- Where only membership or only numbers count, items of the same multiplicities make equal collections. -/
theorem same_of_multiplicity (unordered : kind = .set ∨ kind = .bag)
    (alike : ∀ x, multiplicity x items = multiplicity x others) :
    (Value.collection kind items).same (.collection kind others) := by
  rcases unordered with rfl | rfl
  · apply Value.same_sets.2
    have within {some all : List Value} (alike : ∀ x, multiplicity x some = multiplicity x all) :
        ∀ v ∈ some, ∃ w ∈ all, v.same w := by
      intro v member
      have present : 0 < multiplicity v all := by
        rw [← alike, multiplicity_pos_iff]
        exact List.mem_map_of_mem member
      obtain ⟨w, inside, equal⟩ := List.mem_map.1 (multiplicity_pos_iff.1 present)
      exact ⟨w, inside, Value.same_iff.2 equal.symm⟩
    exact ⟨within alike, within fun x => (alike x).symm⟩
  · apply Value.same_bags.2
    intro x
    rw [Value.countP_same, Value.countP_same, ← multiplicity_eq_count, ← multiplicity_eq_count]
    exact alike x

/-- Two joins that give the same multiplicities make equal Sets and equal Bags. -/
theorem same_kept {join joined : List Value} (unordered : kind = .set ∨ kind = .bag)
    (alike : ∀ x, multiplicity x join = multiplicity x joined) :
    (Value.collection kind (kind.kept join)).same (.collection kind (kind.kept joined)) := by
  apply same_of_multiplicity unordered
  intro x
  rw [multiplicity_kept, multiplicity_kept, alike]

/-- The algebra of collections is one of multiplicities. Between two collections of any kinds each operation
answers with a collection of the richer kind. A value is in the union as often as in both operands together,
in the intersection as often as in the one that has it less often, in the difference not at all if the
second operand has it and otherwise as often as in the first; at most once where the kind keeps no
repeats. The items are some of those of the operands, in their order. So Sets and Bags may trade places
in a union or an intersection, and `includes` makes `or` of the one and `and` of the other. -/
theorem set_algebra (typeOf : Value → String) (kind otherKind : CollectionKind)
    (items others : List Value) :
    ∃ (k : CollectionKind) (united common left : List Value),
      k.rank = max kind.rank otherKind.rank ∧
      combine typeOf .union kind items (.collection otherKind others) = .ok (.collection k united) ∧
      combine typeOf .intersection kind items (.collection otherKind others) =
        .ok (.collection k common) ∧
      combine typeOf .difference kind items (.collection otherKind others) =
        .ok (.collection k left) ∧
      (∀ x, multiplicity x united = k.capped (multiplicity x items + multiplicity x others)) ∧
      (∀ x, multiplicity x common = k.capped (min (multiplicity x items) (multiplicity x others))) ∧
      (∀ x, multiplicity x left =
        k.capped (if 0 < multiplicity x others then 0 else multiplicity x items)) ∧
      united.Sublist (items ++ others) ∧ common.Sublist items ∧ left.Sublist items ∧
      (k = .set ∨ k = .bag → ∃ united' common' : Value,
        combine typeOf .union otherKind others (.collection kind items) = .ok united' ∧
        combine typeOf .intersection otherKind others (.collection kind items) = .ok common' ∧
        (Value.collection k united).same united' ∧ (Value.collection k common).same common') ∧
      (∀ x, includes united x = (includes items x || includes others x)) ∧
      ∀ x, includes common x = (includes items x && includes others x) := by
  let k := kind.richer otherKind
  have joined (xs ys : List Value) (x : Value) :
      multiplicity x (k.kept (xs ++ ys)) = k.capped (multiplicity x xs + multiplicity x ys) := by
    rw [multiplicity_kept, multiplicity_append]
  have paired (xs ys : List Value) (x : Value) :
      multiplicity x (k.kept (shared xs ys)) =
        k.capped (min (multiplicity x xs) (multiplicity x ys)) := by
    rw [multiplicity_kept, multiplicity_shared]
  refine ⟨k, k.kept (items ++ others), k.kept (shared items others), k.kept (without items others),
    kind.rank_richer otherKind, rfl, rfl, rfl, joined items others, paired items others, ?_,
    k.kept_sublist _, (k.kept_sublist _).trans (shared_sublist items others),
    (k.kept_sublist _).trans (without_sublist items others), ?_, ?_, ?_⟩
  · intro x
    rw [multiplicity_kept, multiplicity_without]
  · intro unordered
    have turned : otherKind.richer kind = k := CollectionKind.richer_comm otherKind kind
    refine ⟨.collection k (k.kept (others ++ items)), .collection k (k.kept (shared others items)),
      ?_, ?_, ?_, ?_⟩
    · simp only [combine, algebra, turned]
      rfl
    · simp only [combine, algebra, turned]
      rfl
    · apply same_kept unordered
      intro x
      rw [multiplicity_append, multiplicity_append, Nat.add_comm]
    · apply same_kept unordered
      intro x
      rw [multiplicity_shared, multiplicity_shared, Nat.min_comm]
  · intro x
    simp only [includes_eq, joined, CollectionKind.capped_pos_iff, ← Bool.decide_or, decide_eq_decide]
    omega
  · intro x
    simp only [includes_eq, paired, CollectionKind.capped_pos_iff, ← Bool.decide_and, decide_eq_decide]
    omega

end Collection

end Metamorph
