import Mathlib.Data.Set.Card
import Metamorph.Proofs.SetAlgebra

/-! Dropping repeats, and the conversion of a collection to another kind. What is left of a list when repeats are
dropped are its first occurrences. A conversion drops them or keeps the items as they are, so what a collection
comes to on a way of several conversions is decided by whether one of the kinds on the way has no repeats. -/
namespace Metamorph

namespace Value
variable {items : List Value}

/-- The items that equal none of those before them. -/
def firstOccurrences (items : List Value) : List Value :=
  (items.zipIdx.filter fun (v, i) => (items.take i).all fun w => !w.same v).map (·.1)

/-- Whether an item is a first occurrence does not depend on what comes behind it. -/
theorem firstOccurrences_append_singleton (items : List Value) (x : Value) :
    firstOccurrences (items ++ [x]) =
      firstOccurrences items ++ if items.any (·.same x) then [] else [x] := by
  have before : ∀ entry ∈ items.zipIdx,
      ((items ++ [x]).take entry.2).all (fun w => !w.same entry.1) =
        (items.take entry.2).all fun w => !w.same entry.1 := by
    intro entry member
    have inside : entry.2 ≤ items.length := by
      have := List.snd_lt_of_mem_zipIdx member
      omega
    rw [List.take_append_of_le_length inside]
  unfold firstOccurrences
  rw [List.zipIdx_append, List.filter_append, List.map_append, List.filter_congr before]
  congr 1
  cases met : items.any (·.same x) <;> simp_all

theorem distinct_eq_firstOccurrences (items : List Value) : distinct items = firstOccurrences items := by
  induction items using List.reverseRecOn with
  | nil => rfl
  | append_singleton items x ih =>
    have met : items.any (·.same x) = true ↔ x.key ∈ items.map key := by
      simp [same_iff]
    rw [distinct_append_singleton, firstOccurrences_append_singleton, ih]
    simp only [met]

theorem distinct_distinct (items : List Value) : distinct (distinct items) = distinct items :=
  distinct_of_pairwise (distinct_pairwise items)

theorem exists_same_of_mem {v : Value} (member : v ∈ items) : ∃ w ∈ distinct items, w.same v = true := by
  have known : v.key ∈ (distinct items).map key := (mem_keys_distinct items v.key).2 (List.mem_map_of_mem member)
  obtain ⟨w, left, equal⟩ := List.mem_map.1 known
  exact ⟨w, left, same_iff.2 equal⟩

/-- Values up to equality. -/
def setoid : Setoid Value := ⟨fun v w => v.same w = true, same_equivalence⟩

/-- How many values the items are if equal ones are taken for one. -/
noncomputable def variety (items : List Value) : Nat :=
  (Quotient.mk setoid '' {v | v ∈ items}).ncard

theorem variety_congr {others : List Value} (alike : ∀ k, k ∈ items.map key ↔ k ∈ others.map key) :
    variety items = variety others := by
  have within {some all : List Value} (alike : ∀ k, k ∈ some.map key ↔ k ∈ all.map key) :
      Quotient.mk setoid '' {v | v ∈ some} ⊆ Quotient.mk setoid '' {v | v ∈ all} := by
    rintro _ ⟨v, member, rfl⟩
    obtain ⟨w, present, equal⟩ := List.mem_map.1 ((alike v.key).1 (List.mem_map_of_mem member))
    exact ⟨w, present, Quotient.sound (same_iff.2 equal)⟩
  rw [variety, variety, (within alike).antisymm (within fun k => (alike k).symm)]

theorem length_of_pairwise (unrepeated : items.Pairwise fun v w => v.same w = false) :
    items.length = variety items := by
  classical
  have once : (items.map (Quotient.mk setoid)).Nodup := by
    refine List.pairwise_map.2 (unrepeated.imp fun apart equal => ?_)
    have same : _ = true := Quotient.exact equal
    rw [apart] at same
    cases same
  have members : Quotient.mk setoid '' {v | v ∈ items} = (items.map (Quotient.mk setoid)).toFinset := by
    ext q
    simp
  rw [variety, members, Set.ncard_coe_finset, List.toFinset_card_of_nodup once, List.length_map]

theorem length_distinct (items : List Value) : (distinct items).length = variety items := by
  rw [length_of_pairwise (distinct_pairwise items), variety_congr (mem_keys_distinct items)]

end Value

namespace CollectionKind
open Value
variable {kind next : CollectionKind} {items : List Value}

theorem kept_of_unrepeated (unrepeated : kind.unique = true → items.Pairwise fun v w => v.same w = false) :
    kind.kept items = items := by
  unfold kept
  split
  · rename_i unique
    exact distinct_of_pairwise (unrepeated unique)
  · rfl

theorem kept_pairwise (unique : kind.unique = true) (items : List Value) :
    (kind.kept items).Pairwise fun v w => v.same w = false := by
  rw [kept, if_pos unique]
  exact distinct_pairwise items

/-- Repeats are dropped if either kind has none. -/
theorem kept_kept (kind next : CollectionKind) (items : List Value) :
    next.kept (kind.kept items) = if kind.unique || next.unique then distinct items else items := by
  unfold kept
  cases kind.unique <;> cases next.unique <;> simp [distinct_distinct]

end CollectionKind

namespace Collection
open Value
variable {typeOf : Value → String} {kind target : CollectionKind} {items : List Value}

/-- A collection that is of the kind already has no repeats to drop. -/
theorem query_convert (unrepeated : kind.unique = true → items.Pairwise fun v w => v.same w = false) :
    query typeOf (.convert target) kind items = .ok (.collection target (target.kept items)) := by
  rw [query, convert]
  split
  · rename_i same
    rw [same, CollectionKind.kept_of_unrepeated unrepeated]
  · rfl

/-- Dropping repeats leaves the first occurrences: some of the items in their order, no two of them equal, and
for each item one that equals it; what is left stays when repeats are dropped again. So of two conversions the
second alone comes to the same, unless the first kind has no repeats and the second may have some; from a kind
without repeats to any other and back nothing is lost; and as a Set the collection has as many items as it
has different values. -/
theorem conversions_cohere (typeOf : Value → String) (items : List Value) :
    (distinct items = firstOccurrences items ∧ (distinct items).Sublist items ∧
      ((distinct items).Pairwise fun v w => v.same w = false) ∧
      (∀ v ∈ items, ∃ w ∈ distinct items, w.same v = true) ∧
      distinct (distinct items) = distinct items) ∧
    ∀ kind : CollectionKind, (kind.unique = true → items.Pairwise fun v w => v.same w = false) →
      (∀ k₁ k₂ : CollectionKind, ∃ between twice once,
        query typeOf (.convert k₁) kind items = .ok (.collection k₁ between) ∧
        query typeOf (.convert k₂) k₁ between = .ok (.collection k₂ twice) ∧
        query typeOf (.convert k₂) kind items = .ok (.collection k₂ once) ∧
        (k₁.unique = false ∨ k₂.unique = true → twice = once)) ∧
      (kind.unique = true → ∀ k : CollectionKind, ∃ between back,
        query typeOf (.convert k) kind items = .ok (.collection k between) ∧
        query typeOf (.convert kind) k between = .ok (.collection kind back) ∧
        (Value.collection kind back).same (.collection kind items) = true) ∧
      ∃ set, query typeOf (.convert .set) kind items = .ok (.collection .set set) ∧
        query typeOf .size .set set = .ok (.integer (variety items)) := by
  refine ⟨⟨distinct_eq_firstOccurrences items, distinct_sublist items, distinct_pairwise items,
    fun v member => exists_same_of_mem member, distinct_distinct items⟩, fun kind unrepeated => ⟨?_, ?_, ?_⟩⟩
  · intro k₁ k₂
    refine ⟨k₁.kept items, k₂.kept (k₁.kept items), k₂.kept items, query_convert unrepeated,
      query_convert fun unique => k₁.kept_pairwise unique items, query_convert unrepeated, ?_⟩
    intro either
    rw [CollectionKind.kept_kept]
    rcases either with repeats | unique
    · simp [repeats, CollectionKind.kept]
    · simp [unique, CollectionKind.kept]
  · intro unique k
    refine ⟨k.kept items, kind.kept (k.kept items), query_convert unrepeated,
      query_convert fun unique => k.kept_pairwise unique items, ?_⟩
    rw [CollectionKind.kept_kept, unique, Bool.or_true, if_pos rfl, distinct_of_pairwise (unrepeated unique)]
    exact same_equivalence.refl _
  · refine ⟨distinct items, query_convert unrepeated, ?_⟩
    rw [query, length_distinct]

end Collection

end Metamorph
