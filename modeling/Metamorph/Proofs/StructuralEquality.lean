import Metamorph.Proofs.Keys
import Metamorph.Value.Equality
import Mathlib.Algebra.Order.Field.Rat
import Mathlib.Data.Rat.Cast.Order
import Mathlib.Tactic.FieldSimp
import Mathlib.Tactic.Linarith

/-! Equality of values is structural. It is an equivalence, values of different families are never
equal, and for two values of one family it is decided by their parts, each kind of collection in its
own way. Numbers are equal as exact numbers, whatever their types. -/
namespace Metamorph

namespace Number

/-- The rational number that is meant, or the sign of an infinity. -/
def Exact.amount? : Exact → Option (ℚ ⊕ Bool)
  | .finite m e => some (.inl (m * 2 ^ e))
  | .infinite negative => some (.inr negative)
  | .notANumber => none

/-- As large as a significand gets, and no smaller than it has to be above the least exponent. -/
structure Normal (m e : Int) : Prop where
  bounded : m.natAbs < 2 ^ 53
  least : -1074 ≤ e
  filled : e = -1074 ∨ 2 ^ 52 ≤ m.natAbs

theorem unpack_normal (magnitude : Nat) :
    Normal (unpack magnitude).1 (unpack magnitude).2 := by
  have small : magnitude % 2 ^ 52 < 2 ^ 52 := Nat.mod_lt _ (by decide)
  simp only [unpack, Nat.pow_eq]
  split
  · exact ⟨by simp only; omega, Int.le_refl _, .inl rfl⟩
  · exact ⟨by simp only; omega, by simp only; omega, .inr (by simp only; omega)⟩

theorem Normal.neg {m e : Int} (normal : Normal m e) : Normal (-m) e where
  bounded := by simpa using normal.bounded
  least := normal.least
  filled := by simpa using normal.filled

theorem exact_normal {x : Float} {m e : Int} (is : exact x = .finite m e) : Normal m e := by
  unfold exact at is
  split at is
  · obtain ⟨rfl, rfl⟩ := Exact.finite.inj is
    split
    · exact (unpack_normal _).neg
    · exact unpack_normal _
  · split at is <;> cases is

/-- Of two forms of one number the one with the smaller exponent has too large a significand. -/
theorem Normal.le {m e n f : Int} (first : Normal m e) (second : Normal n f)
    (same : (m : ℚ) * 2 ^ e = n * 2 ^ f) : f ≤ e := by
  by_contra above
  have apart : 1 ≤ (f - e).toNat := by omega
  have whole : m = n * 2 ^ (f - e).toNat := by
    have scaled : (m : ℚ) = n * 2 ^ (f - e) := by
      rw [zpow_sub₀ two_ne_zero, mul_div_assoc', eq_div_iff (zpow_ne_zero e two_ne_zero), same]
    rw [← Int.toNat_of_nonneg (by omega : 0 ≤ f - e), zpow_natCast] at scaled
    exact_mod_cast scaled
  have filled : 2 ^ 52 ≤ n.natAbs := second.filled.resolve_left (by have := first.least; omega)
  have doubled : n.natAbs * 2 ≤ m.natAbs := by
    rw [whole, Int.natAbs_mul, Int.natAbs_pow]
    exact Nat.mul_le_mul_left _ (Nat.le_self_pow (by omega) 2)
  have bounded := first.bounded
  omega

theorem Normal.unique {m e n f : Int} (first : Normal m e) (second : Normal n f)
    (same : (m : ℚ) * 2 ^ e = n * 2 ^ f) : m = n ∧ e = f := by
  obtain rfl : e = f := Int.le_antisymm (second.le first same.symm) (first.le second same)
  refine ⟨?_, rfl⟩
  have cancelled : (m : ℚ) = n := mul_right_cancel₀ (zpow_ne_zero e two_ne_zero) same
  exact_mod_cast cancelled

/-- The form that Integers and Reals have: no other form of a fraction is in use. -/
def Exact.Lowest : Exact → Prop
  | .finite m e => e = 0 ∨ Normal m e
  | _ => True

theorem exactInt_lowest (n : Int) : (exactInt n).Lowest := .inl rfl

theorem exact_lowest (x : Float) : (exact x).Lowest := by
  cases form : exact x with
  | finite m e => exact .inr (exact_normal form)
  | _ => trivial

theorem Exact.Lowest.normal {m e : Int} (lowest : (Exact.finite m e).Lowest)
    (broken : ∀ a : Int, (m : ℚ) * 2 ^ e ≠ a) : Normal m e := by
  rcases lowest with rfl | normal
  · exact absurd (by simp) (broken m)
  · exact normal

end Number

namespace Key
open Number

theorem ofNumber_whole {m e a : Int} :
    ofNumber (.finite m e) = [2, a] ↔ (m : ℚ) * 2 ^ e = a := by
  simp only [ofNumber]
  split
  next above =>
    obtain ⟨k, rfl⟩ := Int.eq_ofNat_of_zero_le above
    simp only [Int.toNat_natCast, Int.pow_eq, zpow_natCast, List.cons.injEq, true_and, and_true]
    exact_mod_cast Iff.rfl
  next below =>
    have divided : (m : ℚ) * 2 ^ e = a ↔ m = a * 2 ^ (-e).toNat := by
      obtain ⟨k, rfl⟩ : ∃ k : Nat, e = -k := ⟨(-e).toNat, by omega⟩
      rw [zpow_neg, zpow_natCast, neg_neg, Int.toNat_natCast, ← div_eq_mul_inv,
        div_eq_iff (by positivity)]
      exact_mod_cast Iff.rfl
    rw [divided]
    have unit : (2 : Int) ^ (-e).toNat ≠ 0 := by positivity
    split
    next exactly =>
      simp only [Int.pow_eq] at exactly ⊢
      simp only [List.cons.injEq, true_and, and_true]
      rw [Int.ediv_eq_iff_eq_mul_left unit (Int.dvd_of_emod_eq_zero exactly)]
    next rest =>
      simp only [List.cons.injEq, reduceCtorEq, and_false, false_iff]
      rintro rfl
      exact rest (Int.mul_emod_left _ _)

/-- A number between the integers keeps its form. -/
theorem ofNumber_broken {m e : Int} (broken : ∀ a : Int, (m : ℚ) * 2 ^ e ≠ a) :
    ofNumber (.finite m e) = [3, m, e] := by
  have not_whole (a : Int) : ofNumber (.finite m e) ≠ [2, a] :=
    fun same => broken a (ofNumber_whole.1 same)
  simp only [ofNumber] at not_whole ⊢
  split
  · exact absurd (by simp_all) (not_whole (m * Int.pow 2 e.toNat))
  · split
    · exact absurd (by simp_all) (not_whole (m / Int.pow 2 (-e).toNat))
    · rfl

theorem ofNumber_finite_inj {m e n f : Int} (first : (Exact.finite m e).Lowest)
    (second : (Exact.finite n f).Lowest) :
    ofNumber (.finite m e) = ofNumber (.finite n f) ↔ (m : ℚ) * 2 ^ e = n * 2 ^ f := by
  by_cases whole : ∃ a : Int, (n : ℚ) * 2 ^ f = a
  · obtain ⟨a, is⟩ := whole
    rw [is, ofNumber_whole.2 is, ofNumber_whole]
  · have between (a : Int) : (n : ℚ) * 2 ^ f ≠ a := fun is => whole ⟨a, is⟩
    rw [ofNumber_broken between]
    constructor
    · intro same
      have broken (a : Int) : (m : ℚ) * 2 ^ e ≠ a := by
        intro is
        rw [ofNumber_whole.2 is] at same
        cases same
      rw [ofNumber_broken broken] at same
      cases same
      rfl
    · intro same
      have broken (a : Int) : (m : ℚ) * 2 ^ e ≠ a := same ▸ between a
      obtain ⟨rfl, rfl⟩ := (first.normal broken).unique (second.normal between) same
      rw [ofNumber_broken broken]

theorem ofNumber_inj {x y : Exact} (first : x.Lowest) (second : y.Lowest) :
    ofNumber x = ofNumber y ↔ x.amount? = y.amount? := by
  have finite_ne (m e : Int) (a : Int) : ofNumber (.finite m e) ≠ [4, a] := by
    intro same
    by_cases whole : ∃ b : Int, (m : ℚ) * 2 ^ e = b
    · obtain ⟨b, is⟩ := whole
      rw [ofNumber_whole.2 is] at same
      cases same
    · rw [ofNumber_broken fun b is => whole ⟨b, is⟩] at same
      cases same
  cases x with
  | finite m e =>
    cases y with
    | finite n f => simpa [Exact.amount?] using ofNumber_finite_inj first second
    | infinite negative => exact iff_of_false (finite_ne m e _) (by simp [Exact.amount?])
    | notANumber => exact iff_of_false (finite_ne m e 2) (by simp [Exact.amount?])
  | infinite negative =>
    cases y with
    | finite n f => exact iff_of_false (finite_ne n f _).symm (by simp [Exact.amount?])
    | infinite other => cases negative <;> cases other <;> decide
    | notANumber => cases negative <;> decide
  | notANumber =>
    cases y with
    | finite n f => exact iff_of_false (finite_ne n f 2).symm (by simp [Exact.amount?])
    | infinite other => cases other <;> decide
    | notANumber => decide

end Key

namespace Value
open Number

/-- Equality never crosses from one family to another. What belongs to the host is told apart by
identity, as objects are. -/
inductive Family where
  | undefined | boolean | number | string | collection (kind : CollectionKind) | tuple | type
  | object | hostList | hostComplex | module
  deriving DecidableEq

def family : Value → Family
  | undefined => .undefined
  | boolean _ => .boolean
  | integer _ | real _ => .number
  | string _ => .string
  | collection kind _ => .collection kind
  | tuple _ => .tuple
  | type _ => .type
  | object _ => .object
  | list _ _ => .hostList
  | complex _ _ _ => .hostComplex
  | thisModule _ => .module

/-- The number that an Integer or a Real denotes. -/
def amount? : Value → Option (ℚ ⊕ Bool)
  | integer n => some (.inl n)
  | real x => (exact x).amount?
  | _ => none

/-- What makes a relation the structural equality of values. -/
structure Structural (equal : Value → Value → Bool) : Prop where
  equivalence : Equivalence fun v w => equal v w = true
  -- Equal items may take each other's place in a collection as it stands,
  items : ∀ kind items others, List.Forall₂ (equal · ·) items others →
    equal (collection kind items) (collection kind others)
  -- and where repeats are dropped when it is made.
  made : ∀ kind items others, List.Forall₂ (equal · ·) items others →
    equal (collectionOf kind items) (collectionOf kind others)
  fieldValues : ∀ fields others,
    List.Forall₂ (fun field other => field.1 = other.1 ∧ equal field.2 other.2) fields others →
      equal (tuple fields) (tuple others)
  families : ∀ v w, equal v w → v.family = w.family
  undefined : equal undefined undefined
  booleans : ∀ b c, equal (boolean b) (boolean c) ↔ b = c
  numbers : ∀ v w a b, v.amount? = some a → w.amount? = some b → (equal v w ↔ a = b)
  strings : ∀ s t, equal (string s) (string t) ↔ s = t
  sequences : ∀ items others, equal (collection .sequence items) (collection .sequence others) ↔
    List.Forall₂ (equal · ·) items others
  orderedSets : ∀ items others,
    equal (collection .orderedSet items) (collection .orderedSet others) ↔
      List.Forall₂ (equal · ·) items others
  sets : ∀ items others, equal (collection .set items) (collection .set others) ↔
    (∀ v ∈ items, ∃ w ∈ others, equal v w) ∧ ∀ w ∈ others, ∃ v ∈ items, equal w v
  bags : ∀ items others, equal (collection .bag items) (collection .bag others) ↔
    ∀ u, items.countP (equal · u) = others.countP (equal · u)
  tuples : ∀ fields others, equal (tuple fields) (tuple others) ↔
    List.Forall₂ (fun field other => field.1 = other.1 ∧ equal field.2 other.2) fields others
  types : ∀ s t, equal (type s) (type t) ↔ s = t
  objects : ∀ g h, equal (object g) (object h) ↔ g = h
  lists : ∀ i j items others, equal (list i items) (list j others) ↔ i = j
  complexes : ∀ i j re im re' im', equal (complex i re im) (complex j re' im') ↔ i = j
  modules : ∀ s t, equal (thisModule s) (thisModule t)

theorem same_equivalence : Equivalence fun v w : Value => v.same w = true where
  refl _ := same_iff.2 rfl
  symm first := same_iff.2 (same_iff.1 first).symm
  trans first second := same_iff.2 ((same_iff.1 first).trans (same_iff.1 second))

/-- The family of the values whose keys start with the tag. -/
def Family.ofTag : Int → Family
  | 0 => .undefined
  | 1 => .boolean
  | 2 | 3 | 4 => .number
  | 5 => .string
  | 6 => .collection .sequence
  | 7 => .collection .orderedSet
  | 8 => .collection .set
  | 9 => .collection .bag
  | 10 => .tuple
  | 11 => .type
  | 12 => .hostList
  | 13 => .hostComplex
  | 14 => .object
  | _ => .module

theorem family_of_tag {v : Value} {tag : Int} (own : tag ∈ v.tags) :
    v.family = Family.ofTag tag := by
  cases v with
  | integer n | real x =>
    simp only [tags, List.mem_cons, List.not_mem_nil, or_false] at own
    rcases own with rfl | rfl | rfl <;> rfl
  | collection kind items => cases kind <;> obtain rfl := List.mem_singleton.1 own <;> rfl
  | _ => obtain rfl := List.mem_singleton.1 own; rfl

theorem family_of_same {v w : Value} (equal : v.same w) : v.family = w.family := by
  obtain ⟨tag, first, second⟩ := tags_of_key (same_iff.1 equal)
  rw [family_of_tag first, family_of_tag second]

theorem key_of_amount {v : Value} {a : ℚ ⊕ Bool} (denotes : v.amount? = some a) :
    ∃ x : Exact, v.key = Key.ofNumber x ∧ x.Lowest ∧ x.amount? = some a := by
  cases v with
  | integer n =>
    refine ⟨exactInt n, (Key.ofNumber_exactInt n).symm, exactInt_lowest n, ?_⟩
    simpa [amount?, Exact.amount?, exactInt] using denotes
  | real x => exact ⟨exact x, rfl, exact_lowest x, denotes⟩
  | _ => cases denotes

theorem same_number {v w : Value} {a b : ℚ ⊕ Bool} (first : v.amount? = some a)
    (second : w.amount? = some b) : v.same w ↔ a = b := by
  obtain ⟨x, key, lowest, is⟩ := key_of_amount first
  obtain ⟨y, key', lowest', is'⟩ := key_of_amount second
  rw [same_iff, key, key', Key.ofNumber_inj lowest lowest', is, is', Option.some_inj]

theorem forall₂_same {items others : List Value} :
    List.Forall₂ (fun v w : Value => v.same w) items others ↔ items.map key = others.map key := by
  simp only [same_iff, ← List.forall₂_eq_eq_eq, List.forall₂_map_left_iff, List.forall₂_map_right_iff]

theorem forall₂_fields {fields others : List (String × Value)} :
    List.Forall₂ (fun field other => field.1 = other.1 ∧ field.2.same other.2) fields others ↔
      fields.map (fun field => (field.1, field.2.key)) =
        others.map fun field => (field.1, field.2.key) := by
  simp only [same_iff, ← List.forall₂_eq_eq_eq, List.forall₂_map_left_iff, List.forall₂_map_right_iff,
    Prod.mk.injEq]

/-- Which items are kept is decided by the keys. -/
theorem unseen_keys {seen : Std.TreeSet Key} {items others : List Value}
    (same : items.map key = others.map key) :
    (unseen seen items).map key = (unseen seen others).map key := by
  induction items generalizing others seen with
  | nil => obtain rfl := List.map_eq_nil_iff.1 same.symm; rfl
  | cons v rest ih =>
    obtain ⟨w, more, rfl, head, tail⟩ := List.map_eq_cons_iff.1 same.symm
    rw [unseen, unseen, head]
    split
    · exact ih tail.symm
    · rw [List.map_cons, List.map_cons, head, ih tail.symm]

theorem same_collection {kind : CollectionKind} {items others : List Value}
    (same : items.map key = others.map key) : (collection kind items).same (collection kind others) := by
  rw [same_iff]
  cases kind with
  | sequence => exact key_sequence_inj.2 same
  | orderedSet => exact key_orderedSet_inj.2 same
  | set => exact key_set_inj.2 fun k => by rw [same]
  | bag => exact key_bag_inj.2 fun k => by rw [same]

theorem same_made {kind : CollectionKind} {items others : List Value}
    (same : items.map key = others.map key) :
    (collectionOf kind items).same (collectionOf kind others) := by
  unfold collectionOf
  apply same_collection
  split
  · exact unseen_keys same
  · exact same

theorem same_sets {items others : List Value} :
    (collection .set items).same (collection .set others) ↔
      (∀ v ∈ items, ∃ w ∈ others, v.same w) ∧ ∀ w ∈ others, ∃ v ∈ items, w.same v := by
  have within (some all : List Value) : (∀ v ∈ some, ∃ w ∈ all, v.same w) ↔
      ∀ k, k ∈ some.map key → k ∈ all.map key := by
    simp only [same_iff, List.mem_map, forall_exists_index, and_imp, forall_apply_eq_imp_iff₂]
    exact forall₂_congr fun v _ => exists_congr fun w => and_congr_right fun _ => eq_comm
  rw [within, within, same_iff, key_set_inj]
  exact ⟨fun same => ⟨fun k => (same k).1, fun k => (same k).2⟩,
    fun both k => ⟨both.1 k, both.2 k⟩⟩

/-- How often a value is in a list is how often its key is among the keys. -/
theorem countP_same (items : List Value) (u : Value) :
    items.countP (·.same u) = (items.map key).count u.key := by
  rw [List.count, List.countP_map]
  refine List.countP_congr fun v _ => ?_
  rw [same_iff, Function.comp_apply, beq_iff_eq]

theorem same_bags {items others : List Value} :
    (collection .bag items).same (collection .bag others) ↔
      ∀ u : Value, items.countP (·.same u) = others.countP (·.same u) := by
  simp only [countP_same]
  rw [same_iff, key_bag_inj]
  constructor
  · intro counts u
    exact counts u.key
  · intro counts k
    by_cases own : ∃ u ∈ items ++ others, u.key = k
    · obtain ⟨u, -, rfl⟩ := own
      exact counts u
    · have absent (some : List Value) (part : some ⊆ items ++ others) : (some.map key).count k = 0 := by
        refine List.count_eq_zero_of_not_mem fun found => own ?_
        obtain ⟨u, inside, is⟩ := List.mem_map.1 found
        exact ⟨u, part inside, is⟩
      rw [absent items (List.subset_append_left _ _), absent others (List.subset_append_right _ _)]

/-- Two values are the same exactly if they are structurally equal. -/
theorem same_structural : Structural same where
  equivalence := same_equivalence
  items _ _ _ each := same_collection (forall₂_same.1 each)
  made _ _ _ each := same_made (forall₂_same.1 each)
  fieldValues _ _ each := same_iff.2 (key_tuple_inj.2 (forall₂_fields.1 each))
  families _ _ := family_of_same
  undefined := rfl
  booleans b c := by cases b <;> cases c <;> decide
  numbers _ _ _ _ := same_number
  strings _ _ := beq_iff_eq
  sequences _ _ := by rw [same_iff, key_sequence_inj, forall₂_same]
  orderedSets _ _ := by rw [same_iff, key_orderedSet_inj, forall₂_same]
  sets _ _ := same_sets
  bags _ _ := same_bags
  tuples _ _ := by rw [same_iff, key_tuple_inj, forall₂_fields]
  types s t := by rw [same_iff, key, key, List.cons_inj_right, Key.ofText_inj]
  objects g h := by simp [same_iff, key]
  lists i j _ _ := by simp [same_iff, key]
  complexes i j _ _ _ _ := by simp [same_iff, key]
  modules _ _ := rfl

end Value
end Metamorph
