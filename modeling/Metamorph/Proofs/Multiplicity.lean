import Metamorph.Collection.Algebra
import Metamorph.Proofs.Keys

/-! How often a value stands in a list, and what is left of the list when repeats are dropped: items in their
order, no two of them equal, and one of each. -/
namespace Metamorph

namespace Collection
variable {items others : List Value}

theorem multiplicity_eq_count (x : Value) (items : List Value) :
    multiplicity x items = (items.map Value.key).count x.key := by
  simp only [multiplicity, List.count, List.countP_map, Function.comp_def]

@[simp]
theorem multiplicity_nil (x : Value) : multiplicity x [] = 0 := by
  simp [multiplicity]

@[simp]
theorem multiplicity_cons (x y : Value) (items : List Value) :
    multiplicity x (y :: items) = multiplicity x items + if y.key = x.key then 1 else 0 := by
  simp [multiplicity, List.countP_cons]

@[simp]
theorem multiplicity_append (x : Value) (items others : List Value) :
    multiplicity x (items ++ others) = multiplicity x items + multiplicity x others := by
  simp [multiplicity, List.countP_append]

theorem multiplicity_pos_iff {x : Value} :
    0 < multiplicity x items ↔ x.key ∈ items.map Value.key := by
  rw [multiplicity_eq_count, List.count_pos_iff]

theorem includes_eq (items : List Value) (x : Value) :
    includes items x = decide (0 < multiplicity x items) := by
  rw [Bool.eq_iff_iff, decide_eq_true_iff, multiplicity_pos_iff]
  simp [includes, Value.isIn]

end Collection

namespace Value
variable {items : List Value} {seen met : Std.TreeSet Key}

theorem unseen_sublist (seen : Std.TreeSet Key) (items : List Value) :
    (unseen seen items).Sublist items := by
  induction items generalizing seen with
  | nil => exact .slnil
  | cons v rest ih =>
    rw [unseen]
    split
    · exact (ih _).cons v
    · exact (ih _).cons_cons v

theorem distinct_sublist (items : List Value) : (distinct items).Sublist items :=
  unseen_sublist ∅ items

theorem same_comm (v w : Value) : v.same w = w.same v := by
  rw [same_eq_key, same_eq_key, Bool.beq_comm]

/-- No two of the items are equal, and none of them was seen. -/
def Unmet (seen : Std.TreeSet Key) (items : List Value) : Prop :=
  (items.Pairwise fun v w => v.same w = false) ∧ ∀ v ∈ items, v.key ∉ seen

instance (seen : Std.TreeSet Key) (items : List Value) : Decidable (Unmet seen items) :=
  inferInstanceAs (Decidable (_ ∧ _))

theorem unmet_nil (seen : Std.TreeSet Key) : Unmet seen [] := by
  simp [Unmet]

theorem unmet_cons {v : Value} :
    Unmet seen (v :: items) ↔ v.key ∉ seen ∧ Unmet (seen.insert v.key) items := by
  simp only [Unmet, List.pairwise_cons, List.forall_mem_cons, not_same_iff, Std.TreeSet.mem_insert,
    Std.compare_eq_iff_eq, not_or, forall_and]
  tauto

theorem unmet_empty : Unmet ∅ items ↔ items.Pairwise fun v w => v.same w = false := by
  simp [Unmet]

theorem unseen_pairwise (seen : Std.TreeSet Key) (items : List Value) :
    Unmet seen (unseen seen items) := by
  induction items generalizing seen with
  | nil => exact unmet_nil seen
  | cons v rest ih =>
    rw [unseen]
    split
    · exact ih seen
    · rename_i new
      rw [Std.TreeSet.contains_iff_mem] at new
      exact unmet_cons.2 ⟨new, ih _⟩

/-- Where nothing repeats there is nothing to drop. -/
theorem unseen_of_unmet (unmet : Unmet seen items) : unseen seen items = items := by
  induction items generalizing seen with
  | nil => rfl
  | cons v rest ih =>
    obtain ⟨new, later⟩ := unmet_cons.1 unmet
    rw [← Std.TreeSet.contains_iff_mem] at new
    rw [unseen, if_neg new, ih later]

/-- Only what is among the keys that were seen counts, not how they came together. -/
theorem unseen_congr (same : ∀ k, k ∈ seen ↔ k ∈ met) : unseen seen items = unseen met items := by
  induction items generalizing seen met with
  | nil => rfl
  | cons v rest ih =>
    have known : seen.contains v.key = met.contains v.key := by
      rw [Bool.eq_iff_iff, Std.TreeSet.contains_iff_mem, Std.TreeSet.contains_iff_mem, same]
    have inserted (k : Key) : k ∈ seen.insert v.key ↔ k ∈ met.insert v.key := by
      rw [Std.TreeSet.mem_insert, Std.TreeSet.mem_insert, same]
    rw [unseen, unseen, known, ih same, ih inserted]

/-- Behind other items, the keys of those are seen as well. -/
theorem exists_unseen_append (seen : Std.TreeSet Key) (items : List Value) :
    ∃ met : Std.TreeSet Key, (∀ k, k ∈ met ↔ k ∈ seen ∨ k ∈ items.map key) ∧
      ∀ later, unseen seen (items ++ later) = unseen seen items ++ unseen met later := by
  induction items generalizing seen with
  | nil => exact ⟨seen, by simp, fun _ => rfl⟩
  | cons v rest ih =>
    by_cases known : seen.contains v.key
    · obtain ⟨met, keys, append⟩ := ih seen
      have already : v.key ∈ seen := Std.TreeSet.contains_iff_mem.1 known
      refine ⟨met, fun k => ?_, fun later => ?_⟩
      · rw [keys, List.map_cons, List.mem_cons]
        by_cases is : k = v.key
        · simp [is, already]
        · simp [is]
      · rw [List.cons_append, unseen, unseen, if_pos known, if_pos known, append]
    · obtain ⟨met, keys, append⟩ := ih (seen.insert v.key)
      refine ⟨met, fun k => ?_, fun later => ?_⟩
      · rw [keys, Std.TreeSet.mem_insert, Std.compare_eq_iff_eq, List.map_cons, List.mem_cons]
        tauto
      · rw [List.cons_append, unseen, unseen, if_neg known, if_neg known, append, List.cons_append]

/-- Nothing is met twice that was dropped before already. -/
theorem unseen_unseen (within : ∀ k ∈ met, k ∈ seen) :
    unseen seen (unseen met items) = unseen seen items := by
  induction items generalizing seen met with
  | nil => rfl
  | cons v rest ih =>
    rw [unseen]
    split
    · rename_i known
      have already := within _ (Std.TreeSet.contains_iff_mem.1 known)
      rw [ih within, unseen, if_pos (Std.TreeSet.contains_iff_mem.2 already)]
    · rw [unseen, unseen]
      split
      · rename_i known
        refine ih fun k member => ?_
        rw [Std.TreeSet.mem_insert, Std.compare_eq_iff_eq] at member
        rcases member with rfl | member
        · exact Std.TreeSet.contains_iff_mem.1 known
        · exact within k member
      · rw [ih fun k member => ?_]
        rw [Std.TreeSet.mem_insert] at member ⊢
        exact member.imp_right (within k)

theorem distinct_pairwise (items : List Value) : (distinct items).Pairwise fun v w => v.same w = false :=
  unmet_empty.1 (unseen_pairwise ∅ items)

theorem distinct_of_pairwise (unrepeated : items.Pairwise fun v w => v.same w = false) :
    distinct items = items :=
  unseen_of_unmet (unmet_empty.2 unrepeated)

/-- One more item at the end is dropped if it was met before. -/
theorem distinct_append_singleton (items : List Value) (x : Value) :
    distinct (items ++ [x]) = distinct items ++ if x.key ∈ items.map key then [] else [x] := by
  obtain ⟨met, keys, append⟩ := exists_unseen_append ∅ items
  rw [distinct, append]
  simp only [unseen, Std.TreeSet.contains_iff_mem, keys, Std.TreeSet.not_mem_emptyc, false_or]
  rfl

theorem distinct_of_nodup_keys (once : (items.map key).Nodup) : distinct items = items :=
  distinct_of_pairwise ((List.pairwise_map.1 once).imp not_same_iff.2)

end Value

namespace Collection
open Value

/-- What was seen does not come again, and anything else comes once. -/
theorem multiplicity_unseen (seen : Std.TreeSet Key) (items : List Value) (x : Value) :
    multiplicity x (unseen seen items) =
      if x.key ∈ seen then 0 else min 1 (multiplicity x items) := by
  induction items generalizing seen with
  | nil => simp [unseen]
  | cons v rest ih =>
    rw [unseen]
    split
    · rename_i known
      rw [ih, multiplicity_cons]
      by_cases same : v.key = x.key
      · have met : x.key ∈ seen := same ▸ Std.TreeSet.contains_iff_mem.1 known
        simp [met]
      · simp [same]
    · rename_i new
      rw [multiplicity_cons, multiplicity_cons, ih]
      by_cases same : v.key = x.key
      · have unmet : x.key ∉ seen := by
          intro met
          exact new (Std.TreeSet.contains_iff_mem.2 (same ▸ met))
        simp [same, unmet]
      · simp [same, Std.TreeSet.mem_insert]

theorem multiplicity_distinct (items : List Value) (x : Value) :
    multiplicity x (distinct items) = min 1 (multiplicity x items) := by
  rw [distinct, multiplicity_unseen]
  simp

theorem paired_sublist (available : Std.TreeMap Key Nat) (items : List Value) :
    (paired available items).Sublist items := by
  induction items generalizing available with
  | nil => exact .slnil
  | cons x rest ih =>
    rw [paired]
    split
    · exact (ih _).cons x
    · exact (ih _).cons_cons x

/-- Every item takes one of those that are left, until none is. -/
theorem multiplicity_paired (available : Std.TreeMap Key Nat) (items : List Value) (x : Value) :
    multiplicity x (paired available items) =
      min (multiplicity x items) (available.getD x.key 0) := by
  induction items generalizing available with
  | nil => simp [paired]
  | cons y rest ih =>
    rw [paired]
    split
    · rename_i none
      rw [ih, multiplicity_cons]
      by_cases same : y.key = x.key
      · rw [same] at none
        simp [none]
      · simp [same]
    · rename_i left some
      rw [multiplicity_cons, multiplicity_cons, ih, Std.TreeMap.getD_insert]
      by_cases same : y.key = x.key
      · rw [same] at some
        simp [same, some]
      · simp [same, Std.LawfulEqCmp.compare_eq_iff_eq]

end Collection

namespace Value
variable {items : List Value}

theorem mem_keys_distinct (items : List Value) (k : Key) :
    k ∈ (distinct items).map key ↔ k ∈ items.map key := by
  constructor
  · exact fun member => ((distinct_sublist items).map key).subset member
  · intro member
    obtain ⟨v, -, rfl⟩ := List.mem_map.1 member
    rw [← Collection.multiplicity_pos_iff] at member ⊢
    rw [Collection.multiplicity_distinct]
    omega

end Value

end Metamorph
