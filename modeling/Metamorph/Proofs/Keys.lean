import Metamorph.Value.Equality
import Mathlib.Algebra.Group.Basic
import Mathlib.Algebra.Ring.Int.Defs
import Mathlib.Data.List.Forall2

/-! What equality of keys says. No key is the beginning of another one, so a key that is made of others
can be taken apart again: two collections have one key exactly if their items agree by their own keys,
one by one, as members or in their numbers, as the kind asks for it. -/
namespace Metamorph

namespace Key

/-- Where one of the keys comes in front, the other one cannot but be the same. -/
def Apart (k l : Key) : Prop := ∀ s t, k ++ s = l ++ t → k = l ∧ s = t

theorem Apart.cons {k l : Key} (apart : Apart k l) (tag : Int) : Apart (tag :: k) (tag :: l) := by
  intro s t same
  obtain ⟨rfl, rfl⟩ := apart s t (List.cons.inj same).2
  exact ⟨rfl, rfl⟩

theorem Apart.of_tags {k l : Key} {tag other : Int} (differ : tag ≠ other) :
    Apart (tag :: k) (other :: l) :=
  fun _ _ same => absurd (List.cons.inj same).1 differ

theorem Apart.append {k l k' l' : Key} (first : Apart k l) (second : Apart k' l') :
    Apart (k ++ k') (l ++ l') := by
  intro s t same
  rw [List.append_assoc, List.append_assoc] at same
  obtain ⟨rfl, rest⟩ := first _ _ same
  obtain ⟨rfl, rfl⟩ := second _ _ rest
  exact ⟨rfl, rfl⟩

theorem Apart.of_length {k l : Key} (same : k.length = l.length) : Apart k l :=
  fun _ _ joined => List.append_inj joined same

/-- The length comes first, so what follows has the same length. -/
theorem Apart.counted (k l : Key) : Apart (k.length :: k) (l.length :: l) := by
  intro s t same
  obtain ⟨length, rest⟩ := List.cons.inj same
  obtain ⟨rfl, rfl⟩ := Apart.of_length (Int.ofNat.inj length) s t rest
  exact ⟨rfl, rfl⟩

theorem ofText_apart (s t : String) : Apart (ofText s) (ofText t) := by
  have counted := Apart.counted (s.toList.map fun c => (c.toNat : Int))
    (t.toList.map fun c => (c.toNat : Int))
  simpa [ofText, String.length_toList] using counted

theorem flatten_apart {keys others : List Key} (length : keys.length = others.length)
    (apart : ∀ k ∈ keys, ∀ l ∈ others, Apart k l) {s t : Key}
    (same : keys.flatten ++ s = others.flatten ++ t) : keys = others ∧ s = t := by
  induction keys generalizing others with
  | nil =>
    obtain rfl := List.eq_nil_of_length_eq_zero length.symm
    exact ⟨rfl, by simpa using same⟩
  | cons k rest ih =>
    cases others with
    | nil => simp at length
    | cons l more =>
      rw [List.flatten_cons, List.flatten_cons, List.append_assoc, List.append_assoc] at same
      obtain ⟨rfl, follow⟩ := apart k (by simp) l (by simp) _ _ same
      obtain ⟨rfl, rfl⟩ := ih (by simpa using length)
        (fun k inside l found => apart k (by simp [inside]) l (by simp [found])) follow
      exact ⟨rfl, rfl⟩

section
variable {keys others : List Key} (apart : ∀ k ∈ keys, ∀ l ∈ others, Apart k l)
include apart

theorem joined_inj : joined keys = joined others ↔ keys = others := by
  refine ⟨fun same => ?_, fun same => same ▸ rfl⟩
  obtain ⟨length, flat⟩ := List.cons.inj same
  have added : keys.flatten ++ [] = others.flatten ++ [] := by rw [flat]
  exact (flatten_apart (Int.ofNat.inj length) apart added).1

theorem joined_apart : Apart (joined keys) (joined others) := by
  intro s t same
  obtain ⟨length, rest⟩ := List.cons.inj same
  obtain ⟨rfl, rfl⟩ := flatten_apart (Int.ofNat.inj length) apart rest
  exact ⟨rfl, rfl⟩

end

theorem ofNumber_shape (x : Number.Exact) : (∃ a, ofNumber x = [2, a]) ∨
    (∃ a b, ofNumber x = [3, a, b]) ∨ ∃ a, ofNumber x = [4, a] := by
  cases x with
  | finite m e =>
    simp only [ofNumber]
    split
    · exact .inl ⟨_, rfl⟩
    · split
      · exact .inl ⟨_, rfl⟩
      · exact .inr (.inl ⟨_, _, rfl⟩)
  | infinite => exact .inr (.inr ⟨_, rfl⟩)
  | notANumber => exact .inr (.inr ⟨_, rfl⟩)

theorem ofNumber_apart (x y : Number.Exact) : Apart (ofNumber x) (ofNumber y) := by
  rcases ofNumber_shape x with ⟨a, hx⟩ | ⟨a, b, hx⟩ | ⟨a, hx⟩ <;>
    rcases ofNumber_shape y with ⟨c, hy⟩ | ⟨c, d, hy⟩ | ⟨c, hy⟩ <;> rw [hx, hy]
  all_goals first
    | exact .of_length rfl
    | exact .of_tags (by decide)

theorem ofNumber_exactInt (n : Int) : ofNumber (Number.exactInt n) = [2, n] := by
  simp [ofNumber, Number.exactInt]

theorem ofNumber_apart_tag (x : Number.Exact) {tag : Int} (k : Key) (other : tag < 2 ∨ 4 < tag) :
    Apart (ofNumber x) (tag :: k) := by
  rcases ofNumber_shape x with ⟨a, shape⟩ | ⟨a, b, shape⟩ | ⟨a, shape⟩ <;> rw [shape]
  all_goals exact .of_tags (by omega)

/-! Sets and counts of keys. -/

theorem toList_ofList_inj {keys others : List Key} :
    (Std.TreeSet.ofList keys).toList = (Std.TreeSet.ofList others).toList ↔
      ∀ k, k ∈ keys ↔ k ∈ others := by
  constructor
  · intro same k
    have members : k ∈ (Std.TreeSet.ofList keys).toList ↔
        k ∈ (Std.TreeSet.ofList others).toList := by rw [same]
    simpa [Std.TreeSet.mem_toList, Std.TreeSet.mem_ofList] using members
  · intro same
    refine (Std.TreeSet.Equiv.of_forall_mem_iff fun k => ?_).toList_eq
    simpa [Std.TreeSet.mem_ofList] using same k

/-- A key is counted as often as it stands in the list, and not entered if it does not. -/
theorem getElem?_counts (keys : List Key) (k : Key) :
    (counts keys)[k]? = if k ∈ keys then some (keys.count k) else none := by
  suffices counted : ∀ found : Std.TreeMap Key Nat,
      (keys.foldl (fun found key => found.insert key (found.getD key 0 + 1)) found)[k]? =
        if k ∈ keys then some (found.getD k 0 + keys.count k) else found[k]? by
    simpa [counts] using counted ∅
  induction keys with
  | nil => simp
  | cons x rest ih =>
    intro found
    rw [List.foldl_cons, ih]
    by_cases same : x = k
    · subst same
      by_cases again : x ∈ rest
      · simp [again]
        omega
      · simp [again, List.count_eq_zero_of_not_mem again]
    · have other : compare x k ≠ .eq := fun equal => same (Std.LawfulEqOrd.eq_of_compare equal)
      simp [same, Ne.symm same, Std.TreeMap.getD_insert, Std.TreeMap.getElem?_insert, other]

theorem getD_counts (keys : List Key) (k : Key) : (counts keys).getD k 0 = keys.count k := by
  rw [Std.TreeMap.getD_eq_getD_getElem?, getElem?_counts]
  split
  · rfl
  · exact (List.count_eq_zero_of_not_mem ‹_›).symm

theorem toList_counts_inj {keys others : List Key} :
    (counts keys).toList = (counts others).toList ↔ ∀ k, keys.count k = others.count k := by
  have lookups : (counts keys).toList = (counts others).toList ↔
      ∀ k : Key, (counts keys)[k]? = (counts others)[k]? := by
    constructor
    · intro same k
      have alike : (counts keys).Equiv (counts others) := Std.TreeMap.equiv_iff_toList_eq.2 same
      exact alike.getElem?_eq
    · intro same
      exact (Std.TreeMap.Equiv.of_forall_constGet?_eq same).toList_eq
  rw [lookups]
  refine forall_congr' fun k => ?_
  rw [getElem?_counts, getElem?_counts]
  by_cases first : k ∈ keys <;> by_cases second : k ∈ others
  · simp [first, second]
  · simpa [first, second, List.count_eq_zero_of_not_mem second] using
      Nat.ne_of_gt (List.count_pos_iff.2 first)
  · simpa [first, second, List.count_eq_zero_of_not_mem first] using
      (Nat.ne_of_gt (List.count_pos_iff.2 second)).symm
  · simp [first, second, List.count_eq_zero_of_not_mem]

end Key

open Key

theorem keysOnto_eq (keys : List Key) (items : List Value) :
    keysOnto keys items = (items.map Value.key).reverse ++ keys := by
  induction items generalizing keys with
  | nil => rfl
  | cons v rest ih => rw [keysOnto, ih]; simp

theorem fieldKeysOnto_eq (keys : List Key) (fields : List (String × Value)) :
    fieldKeysOnto keys fields =
      (fields.map fun field => ofText field.1 ++ field.2.key).reverse ++ keys := by
  induction fields generalizing keys with
  | nil => rfl
  | cons field rest ih => rw [fieldKeysOnto, ih]; simp

namespace Value

/-- The key is apart from the keys of all values. -/
def Separate (v : Value) : Prop := ∀ u : Value, Apart v.key u.key

section
variable {items others : List Value}

theorem apart_members (separate : ∀ v ∈ items, v.Separate) :
    ∀ k ∈ items.map key, ∀ l ∈ others.map key, Apart k l := by
  intro k inside l found
  obtain ⟨v, member, rfl⟩ := List.mem_map.1 inside
  obtain ⟨u, -, rfl⟩ := List.mem_map.1 found
  exact separate v member u

theorem apart_onto (separate : ∀ v ∈ items, v.Separate) :
    ∀ k ∈ keysOnto [] items, ∀ l ∈ keysOnto [] others, Apart k l := by
  simpa [keysOnto_eq] using apart_members separate

/-- The keys of a Set, each once. -/
def memberKeys (items : List Value) : List Key := (Std.TreeSet.ofList (keysOnto [] items)).toList

theorem key_set : (collection .set items).key = 8 :: joined (memberKeys items) := by
  rw [key, memberKeys]

theorem apart_members_once (separate : ∀ v ∈ items, v.Separate) :
    ∀ k ∈ memberKeys items, ∀ l ∈ memberKeys others, Apart k l := by
  intro k inside l found
  rw [memberKeys, Std.TreeSet.mem_toList, Std.TreeSet.mem_ofList, List.contains_iff_mem] at inside found
  exact apart_onto separate k inside l found

/-- The keys of a Bag, each after its number. -/
def countedKeys (items : List Value) : List Key :=
  (counts (keysOnto [] items)).toList.map fun (key, n) => (n : Int) :: key

theorem key_bag : (collection .bag items).key = 9 :: joined (countedKeys items) := by
  rw [key, countedKeys]

theorem mem_of_mem_countedKeys {k : Key} (inside : k ∈ countedKeys items) :
    ∃ n : Nat, ∃ l ∈ items.map key, k = (n : Int) :: l := by
  obtain ⟨⟨l, n⟩, entry, rfl⟩ := List.mem_map.1 inside
  refine ⟨n, l, ?_, rfl⟩
  have found := Std.TreeMap.mem_toList_iff_getElem?_eq_some.1 entry
  rw [getElem?_counts] at found
  by_cases member : l ∈ keysOnto [] items
  · simpa [keysOnto_eq] using member
  · rw [if_neg member] at found
    cases found

theorem apart_counted (separate : ∀ v ∈ items, v.Separate) :
    ∀ k ∈ countedKeys items, ∀ l ∈ countedKeys others, Apart k l := by
  intro k inside l found
  obtain ⟨n, key, member, rfl⟩ := mem_of_mem_countedKeys inside
  obtain ⟨n', key', member', rfl⟩ := mem_of_mem_countedKeys found
  exact (Apart.of_length (k := [(n : Int)]) (l := [(n' : Int)]) rfl).append
    (apart_members separate key member key' member')

end

theorem apart_fields {fields others : List (String × Value)}
    (separate : ∀ field ∈ fields, field.2.Separate) :
    ∀ k ∈ fieldKeysOnto [] fields, ∀ l ∈ fieldKeysOnto [] others, Apart k l := by
  intro k inside l found
  simp only [fieldKeysOnto_eq, List.append_nil, List.mem_reverse, List.mem_map] at inside found
  obtain ⟨field, member, rfl⟩ := inside
  obtain ⟨other, -, rfl⟩ := found
  exact (ofText_apart _ _).append (separate field member other.2)

theorem key_cons (u : Value) : ∃ tag k, u.key = tag :: k := by
  cases u with
  | real x =>
    rcases ofNumber_shape (Number.exact x) with ⟨a, shape⟩ | ⟨a, b, shape⟩ | ⟨a, shape⟩
    all_goals exact ⟨_, _, shape⟩
  | collection kind items => cases kind <;> exact ⟨_, _, rfl⟩
  | _ => exact ⟨_, _, rfl⟩

theorem separate_number {v : Value} {x : Number.Exact} (is : v.key = ofNumber x) : v.Separate := by
  intro u
  rw [is]
  cases u with
  | integer n =>
    rw [key, ← ofNumber_exactInt]
    exact ofNumber_apart _ _
  | real y => exact ofNumber_apart _ _
  | collection kind items => cases kind <;> exact ofNumber_apart_tag x _ (by decide)
  | _ => exact ofNumber_apart_tag x _ (by decide)

/-- Only what has the same tag can have the same key. -/
theorem separate_tagged {v : Value} {tag : Int} {k : Key} (is : v.key = tag :: k)
    (tails : ∀ (u : Value) l, u.key = tag :: l → Apart k l) : v.Separate := by
  intro u
  rw [is]
  obtain ⟨other, l, shape⟩ := key_cons u
  rw [shape]
  by_cases same : tag = other
  · subst same
    exact (tails u l shape).cons tag
  · exact .of_tags same

/-- The tags that the keys of values of that form start with. -/
def tags : Value → List Int
  | undefined => [0]
  | boolean _ => [1]
  | integer _ | real _ => [2, 3, 4]
  | string _ => [5]
  | collection .sequence _ => [6]
  | collection .orderedSet _ => [7]
  | collection .set _ => [8]
  | collection .bag _ => [9]
  | tuple _ => [10]
  | type _ => [11]
  | list _ _ => [12]
  | complex _ _ _ => [13]
  | object _ => [14]
  | thisModule _ => [15]

theorem tag_mem {u : Value} {tag : Int} {l : Key} (is : u.key = tag :: l) : tag ∈ u.tags := by
  cases u with
  | real x =>
    rw [key] at is
    rcases ofNumber_shape (Number.exact x) with ⟨a, shape⟩ | ⟨a, b, shape⟩ | ⟨a, shape⟩
    all_goals
      rw [shape] at is
      obtain rfl := (List.cons.inj is).1
      simp [tags]
  | collection kind items => cases kind <;> exact List.mem_singleton.2 (List.cons.inj is).1.symm
  | integer n => simp [key, tags] at is ⊢; exact .inl is.1.symm
  | _ => exact List.mem_singleton.2 (List.cons.inj is).1.symm

/-- A value of another form has a key with another tag. -/
theorem separate_form {v : Value} {tag : Int} {k : Key} (is : v.key = tag :: k)
    (tails : ∀ (u : Value) l, tag ∈ u.tags → u.key = tag :: l → Apart k l) : v.Separate :=
  separate_tagged is fun u l shape => tails u l (tag_mem shape) shape

theorem form_of_tag {u : Value} {kind : CollectionKind} {tag : Int}
    (own : tag ∈ (collection kind []).tags) (tagged : tag ∈ u.tags) :
    ∃ others, u = collection kind others := by
  cases u with
  | collection other items => cases kind <;> cases other <;> simp_all [tags]
  | _ => cases kind <;> simp [tags] at own tagged <;> omega

theorem separate_collection {kind : CollectionKind} {items : List Value}
    (inner : ∀ v ∈ items, v.Separate) : (collection kind items).Separate := by
  have of_keys (keys : List Value → List Key) (tag : Int)
      (is : ∀ items, (collection kind items).key = tag :: joined (keys items))
      (apart : ∀ others, ∀ k ∈ keys items, ∀ l ∈ keys others, Apart k l)
      (own : tag ∈ (collection kind []).tags) : (collection kind items).Separate := by
    refine separate_form (is items) fun u l tagged shape => ?_
    obtain ⟨others, rfl⟩ := form_of_tag own tagged
    obtain rfl := (List.cons.inj ((is others).symm.trans shape)).2
    exact joined_apart (apart others)
  cases kind with
  | sequence =>
    exact of_keys (keysOnto []) 6 (fun _ => by rw [key]) (fun _ => apart_onto inner) (by simp [tags])
  | orderedSet =>
    exact of_keys (keysOnto []) 7 (fun _ => by rw [key]) (fun _ => apart_onto inner) (by simp [tags])
  | set =>
    exact of_keys memberKeys 8 (fun _ => key_set) (fun _ => apart_members_once inner) (by simp [tags])
  | bag => exact of_keys countedKeys 9 (fun _ => key_bag) (fun _ => apart_counted inner) (by simp [tags])

theorem separate_tuple {fields : List (String × Value)}
    (inner : ∀ field ∈ fields, field.2.Separate) : (tuple fields).Separate := by
  refine separate_form rfl fun u l tagged shape => ?_
  cases u with
  | tuple others =>
    obtain rfl := (List.cons.inj shape).2
    exact joined_apart (apart_fields inner)
  | collection kind items => cases kind <;> simp [tags] at tagged
  | _ => simp [tags] at tagged

/-- A value whose key is followed by a text. -/
theorem separate_text {v : Value} {tag : Int} {s : String} (is : v.key = tag :: ofText s)
    (own : ∀ u : Value, tag ∈ u.tags → ∃ t, u.key = tag :: ofText t) : v.Separate := by
  refine separate_form is fun u l tagged shape => ?_
  obtain ⟨t, same⟩ := own u tagged
  obtain rfl := (List.cons.inj (same.symm.trans shape)).2
  exact ofText_apart s t

/-- A value whose key has a fixed length. -/
theorem separate_short {v : Value} {tag : Int} {k : Key} (is : v.key = tag :: k)
    (own : ∀ (u : Value) l, tag ∈ u.tags → u.key = tag :: l → k.length = l.length) : v.Separate :=
  separate_form is fun u l tagged shape => .of_length (own u l tagged shape)

mutual

/-- No key is the beginning of another. -/
theorem separate : ∀ v : Value, v.Separate
  | .real _ => separate_number rfl
  | .integer n => separate_number (ofNumber_exactInt n).symm
  | .collection _ items => separate_collection (separate_all items)
  | .tuple fields => separate_tuple (separate_fields fields)
  | .string _ => separate_text rfl fun u tagged => by
    cases u with
    | string t => exact ⟨t, rfl⟩
    | collection kind items => cases kind <;> simp [tags] at tagged
    | _ => simp [tags] at tagged
  | .type _ => separate_text rfl fun u tagged => by
    cases u with
    | type t => exact ⟨t, rfl⟩
    | collection kind items => cases kind <;> simp [tags] at tagged
    | _ => simp [tags] at tagged
  | .undefined | .boolean _ | .object _ | .complex _ _ _ | .thisModule _ | .list _ _ =>
    separate_short rfl fun u l tagged shape => by
      cases u with
      | collection kind items => cases kind <;> simp [tags] at tagged
      | _ => first | (obtain rfl := (List.cons.inj shape).2; rfl) | simp [tags] at tagged

theorem separate_all : ∀ items : List Value, ∀ v ∈ items, v.Separate
  | [], _, absent => nomatch absent
  | v :: rest, u, member => by
    rcases List.mem_cons.1 member with same | later
    · exact same ▸ separate v
    · exact separate_all rest u later

theorem separate_fields : ∀ fields : List (String × Value), ∀ field ∈ fields, field.2.Separate
  | [], _, absent => nomatch absent
  | (name, v) :: rest, field, member => by
    rcases List.mem_cons.1 member with same | later
    · exact same ▸ separate v
    · exact separate_fields rest field later

end

/-! What it takes for two values to have one key. -/

theorem key_onto_inj {items others : List Value} :
    joined (keysOnto [] items) = joined (keysOnto [] others) ↔ items.map key = others.map key := by
  rw [joined_inj (apart_onto fun v _ => separate v)]
  simp [keysOnto_eq]

theorem key_sequence_inj {items others : List Value} :
    (collection .sequence items).key = (collection .sequence others).key ↔
      items.map key = others.map key := by
  rw [key, key, List.cons_inj_right, key_onto_inj]

theorem key_orderedSet_inj {items others : List Value} :
    (collection .orderedSet items).key = (collection .orderedSet others).key ↔
      items.map key = others.map key := by
  rw [key, key, List.cons_inj_right, key_onto_inj]

theorem key_set_inj {items others : List Value} :
    (collection .set items).key = (collection .set others).key ↔
      ∀ k, k ∈ items.map key ↔ k ∈ others.map key := by
  rw [key_set, key_set, List.cons_inj_right, joined_inj (apart_members_once fun v _ => separate v),
    memberKeys, memberKeys, toList_ofList_inj]
  simp [keysOnto_eq]

theorem key_bag_inj {items others : List Value} :
    (collection .bag items).key = (collection .bag others).key ↔
      ∀ k, (items.map key).count k = (others.map key).count k := by
  have injective : Function.Injective fun entry : Key × Nat => (entry.2 : Int) :: entry.1 := by
    rintro ⟨k, n⟩ ⟨l, m⟩ same
    obtain ⟨number, rest⟩ := List.cons.inj same
    exact Prod.ext rest (Int.ofNat.inj number)
  rw [key_bag, key_bag, List.cons_inj_right, joined_inj (apart_counted fun v _ => separate v), countedKeys,
    countedKeys, List.map_inj_right injective, toList_counts_inj]
  simp [keysOnto_eq]

theorem key_tuple_inj {fields others : List (String × Value)} :
    (tuple fields).key = (tuple others).key ↔
      fields.map (fun field => (field.1, field.2.key)) =
        others.map fun field => (field.1, field.2.key) := by
  have injective : Function.Injective fun field : String × Key => ofText field.1 ++ field.2 := by
    rintro ⟨name, k⟩ ⟨other, l⟩ same
    obtain ⟨texts, keys⟩ := ofText_apart name other k l same
    exact Prod.ext (ofText_inj.1 texts) keys
  have onto (fields : List (String × Value)) : fieldKeysOnto [] fields =
      ((fields.map fun field => (field.1, field.2.key)).map
        fun field => ofText field.1 ++ field.2).reverse := by
    simp [fieldKeysOnto_eq, Function.comp_def]
  rw [key, key, List.cons_inj_right, joined_inj (apart_fields fun field _ => separate field.2), onto,
    onto, List.reverse_inj, List.map_inj_right injective]

/-- Values of one key have the same form. -/
theorem tags_of_key {v u : Value} (same : v.key = u.key) : ∃ tag, tag ∈ v.tags ∧ tag ∈ u.tags := by
  obtain ⟨tag, k, shape⟩ := key_cons v
  exact ⟨tag, tag_mem shape, tag_mem (same.symm.trans shape)⟩

end Value

end Metamorph
