import Metamorph.Proofs.Multiplicity
import Metamorph.Proofs.Naturality
import Metamorph.Proofs.StructuralEquality

/-! Flattening of nested collections. Inner collections without repeats drop theirs on the way up, and what they
drop would be dropped again further out or is there still, so that nothing is lost: what is left has the order
of the leaves, and where the outermost collection has no repeats it is their first occurrences. -/
namespace Metamorph

namespace Value
variable {items others : List Value}

/-- The lists have the same first occurrences, whatever comes before. -/
def SameFirsts (items others : List Value) : Prop := ∀ seen, unseen seen items = unseen seen others

namespace SameFirsts

theorem distinct_left (same : SameFirsts items others) : SameFirsts (distinct items) others := by
  intro seen
  rw [distinct, unseen_unseen fun k member => absurd member Std.TreeSet.not_mem_emptyc, same]

theorem mem_keys_iff (same : SameFirsts items others) (k : Key) :
    k ∈ items.map key ↔ k ∈ others.map key := by
  rw [← mem_keys_distinct items, ← mem_keys_distinct others, distinct, distinct, same]

theorem append (first : SameFirsts items others) {more rest : List Value} (second : SameFirsts more rest) :
    SameFirsts (items ++ more) (others ++ rest) := by
  intro seen
  obtain ⟨met, keys, append⟩ := exists_unseen_append seen items
  obtain ⟨met', keys', append'⟩ := exists_unseen_append seen others
  rw [append, append', first, second]
  congr 1
  exact unseen_congr fun k => by rw [keys, keys', first.mem_keys_iff]

end SameFirsts

end Value

namespace Collection
open Value
variable {kind : CollectionKind} {items : List Value} {v : Value}

/-- The value is an item of the collection, or of a collection that is somewhere within it. -/
inductive Occurs (v : Value) : Value → Prop
  | item (kind : CollectionKind) (items : List Value) (member : v ∈ items) : Occurs v (.collection kind items)
  | deeper (kind : CollectionKind) (items : List Value) (inner : Value) (member : inner ∈ items)
      (within : Occurs v inner) : Occurs v (.collection kind items)

mutual

/-- The leaves of a nested collection from left to right, each of them as often as it occurs. -/
def frontier : Value → List Value
  | .collection _ items => frontierOfAll items
  | v => [v]

def frontierOfAll : List Value → List Value
  | [] => []
  | v :: rest => frontier v ++ frontierOfAll rest

end

theorem frontier_single (single : isSingle v = true) : frontier v = [v] := by
  cases v <;> first | (simp [isSingle] at single; done) | simp [frontier]

theorem isSingle_iff : isSingle v = true ↔ ∀ kind, v.family ≠ .collection kind := by
  cases v <;> simp [isSingle, family]

theorem isSingle_of_same {w : Value} (equal : v.same w = true) (single : isSingle v = true) :
    isSingle w = true := by
  rw [isSingle_iff, ← family_of_same equal]
  exact isSingle_iff.1 single

theorem mem_frontierOfAll {u : Value} : u ∈ frontierOfAll items ↔ ∃ v ∈ items, u ∈ frontier v := by
  induction items with
  | nil => simp [frontierOfAll]
  | cons v rest ih => simp [frontierOfAll, ih]

theorem frontier_isSingle (v : Value) : ∀ u ∈ frontier v, isSingle u = true := by
  induction v using nested_induction with
  | single v is =>
    rw [frontier_single is]
    exact List.forall_mem_singleton.2 is
  | nested kind items each =>
    intro u member
    rw [frontier] at member
    obtain ⟨v, inside, here⟩ := mem_frontierOfAll.1 member
    exact each v inside u here

theorem occurs_collection {u : Value} :
    Occurs u (.collection kind items) ↔ ∃ v ∈ items, u = v ∨ Occurs u v := by
  constructor
  · rintro (⟨_, _, member⟩ | ⟨_, _, inner, member, within⟩)
    · exact ⟨u, member, .inl rfl⟩
    · exact ⟨inner, member, .inr within⟩
  · rintro ⟨v, member, rfl | within⟩
    · exact .item kind items member
    · exact .deeper kind items v member within

theorem mem_frontier_iff {u : Value} (leaf : isSingle u = true) (v : Value) :
    u ∈ frontier v ↔ u = v ∨ Occurs u v := by
  induction v using nested_induction with
  | single v is =>
    have nothing : ¬ Occurs u v := by rintro (_ | _) <;> cases is
    rw [frontier_single is, List.mem_singleton, or_iff_left nothing]
  | nested kind items each =>
    have other : u ≠ .collection kind items := by rintro rfl; cases leaf
    rw [frontier, mem_frontierOfAll, or_iff_right other, occurs_collection]
    exact exists_congr fun v => and_congr_right fun member => each v member

/-- The leaves of a collection are the values that occur in it and are no collections. -/
theorem mem_frontier_iff_occurs {u : Value} (leaf : isSingle u = true) :
    u ∈ frontier (.collection kind items) ↔ Occurs u (.collection kind items) := by
  rw [mem_frontier_iff leaf, or_iff_right]
  rintro rfl
  cases leaf

section
variable {related : List Value → List Value → Prop} (refl : ∀ all, related all all)
  (append : ∀ {some all more rest}, related some all → related more rest → related (some ++ more) (all ++ rest))

include refl append

theorem leavesOfAll_related (each : ∀ v ∈ items, related (leaves v) (frontier v)) :
    related (leavesOfAll items) (frontierOfAll items) := by
  induction items with
  | nil => exact refl []
  | cons v rest ih =>
    obtain ⟨first, others⟩ := List.forall_mem_cons.1 each
    exact append first (ih others)

/-- A relation that every list has to itself, that joined lists inherit and that dropping repeats on the left
does not end, holds between what is left of the leaves and all of them. -/
theorem leaves_related (dropped : ∀ {some all}, related some all → related (distinct some) all) (v : Value) :
    related (leaves v) (frontier v) := by
  induction v using nested_induction with
  | single v is =>
    rw [leaves_single is, frontier_single is]
    exact refl [v]
  | nested kind items each =>
    have inner := leavesOfAll_related refl append each
    rw [leaves, frontier]
    split
    · exact dropped inner
    · exact inner

end

theorem leaves_sublist (v : Value) : (leaves v).Sublist (frontier v) :=
  leaves_related .refl .append (distinct_sublist _).trans v

/-- Dropping repeats early on changes nothing about which values come first. -/
theorem leaves_sameFirsts (v : Value) : SameFirsts (leaves v) (frontier v) :=
  leaves_related (fun _ _ => rfl) (fun first => first.append) (fun same => same.distinct_left) v

theorem leaves_once (unique : kind.unique = true) :
    (leaves (.collection kind items)).Pairwise fun v w => v.same w = false := by
  rw [leaves, if_pos unique]
  exact distinct_pairwise _

/-- None of the collections that occur drops repeats. -/
def KeepsAll (c : Value) : Prop := ∀ kind items, Occurs (.collection kind items) c → kind.unique = false

theorem leaves_of_keepsAll (v : Value) (own : ∀ kind items, v = .collection kind items → kind.unique = false)
    (keeps : KeepsAll v) : leaves v = frontier v := by
  induction v using nested_induction with
  | single v is => rw [leaves_single is, frontier_single is]
  | nested kind items each =>
    rw [leaves, frontier, if_neg (by simp [own kind items rfl])]
    refine leavesOfAll_related (fun _ => rfl) (by rintro _ _ _ _ rfl rfl; rfl) fun v member => ?_
    refine each v member ?_ ?_
    · rintro k inner rfl
      exact keeps k inner (.item kind items member)
    · exact fun k inner occurs => keeps k inner (.deeper kind items v member occurs)

theorem leavesOfAll_of_single (single : ∀ v ∈ items, isSingle v = true) : leavesOfAll items = items := by
  induction items with
  | nil => rfl
  | cons v rest ih =>
    obtain ⟨first, others⟩ := List.forall_mem_cons.1 single
    rw [leavesOfAll, leaves_single first, ih others, List.singleton_append]

theorem includes_iff {x : Value} : includes items x = true ↔ x.key ∈ items.map key := by
  rw [includes_eq, decide_eq_true_iff, multiplicity_pos_iff]

/-- What is left of a collection when it is flat: of its leaves no value is lost and none is added. -/
structure Flattened (kind : CollectionKind) (items result : List Value) : Prop where
  single : ∀ v ∈ result, isSingle v = true
  complete : ∀ v, isSingle v = true →
    (includes result v = true ↔ ∃ w, Occurs w (.collection kind items) ∧ v.same w = true)
  sublist : result.Sublist (frontier (.collection kind items))
  once : kind.unique = true → result.Pairwise fun v w => v.same w = false
  -- Where repeats are dropped the first occurrence of a value stays,
  firsts : kind.unique = true → result = distinct (frontier (.collection kind items))
  -- and where no collection drops them, each one does.
  all : kind.unique = false → KeepsAll (.collection kind items) → result = frontier (.collection kind items)

theorem leaves_flattened (kind : CollectionKind) (items : List Value) :
    Flattened kind items (leaves (.collection kind items)) where
  single v member := frontier_isSingle _ v ((leaves_sublist _).subset member)
  complete v leaf := by
    rw [includes_iff, (leaves_sameFirsts _).mem_keys_iff, List.mem_map]
    refine exists_congr fun w => ?_
    have equal_iff : w.key = v.key ↔ v.same w = true := by rw [same_iff, eq_comm]
    rw [equal_iff]
    exact and_congr_left fun equal => mem_frontier_iff_occurs (isSingle_of_same equal leaf)
  sublist := leaves_sublist _
  once := leaves_once
  firsts unique := by
    rw [distinct, ← leaves_sameFirsts]
    exact (distinct_of_pairwise (leaves_once unique)).symm
  all repeats := leaves_of_keepsAll _ (by rintro _ _ ⟨⟩; exact repeats)

/-- Flattening loses no value and adds none, at whatever depth it is: the kind stays, no item is a collection
any more, and flattening once more changes nothing. -/
theorem flatten_flattened (typeOf : Value → String) (kind : CollectionKind) (items : List Value) :
    ∃ result, query typeOf .flatten kind items = .ok (.collection kind result) ∧
      Flattened kind items result ∧ query typeOf .flatten kind result = .ok (.collection kind result) := by
  have flat := leaves_flattened kind items
  have is : query typeOf .flatten kind items = .ok (.collection kind (leaves (.collection kind items))) := by
    rw [leaves]
    rfl
  generalize leaves (.collection kind items) = result at flat is
  refine ⟨result, is, flat, ?_⟩
  change Except.ok (collectionOf kind (leavesOfAll result)) = _
  rw [leavesOfAll_of_single flat.single, collectionOf]
  split
  · rename_i unique
    rw [distinct_of_pairwise (flat.once unique)]
  · rfl

example :
    let inner : Value := .collection .set [.integer 1, .collection .bag [.integer 1, .string "a"]]
    flatten .sequence [.integer 2, inner, .integer 2] =
      .collection .sequence [.integer 2, .integer 1, .string "a", .integer 2] := by
  rfl

end Collection
end Metamorph
