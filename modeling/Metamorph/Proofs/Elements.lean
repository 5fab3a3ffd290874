import Mathlib.Data.List.Nodup
import Metamorph.Proofs.Multiplicity
import Metamorph.Proofs.StructuralEquality

/-! Single values in a collection. Whether a value is there, how often, where first, and what there is at a
place all tell the same; putting a value in and taking it out concern the items equal to it and leave all
others, how often they are there and their order, as they were. -/
namespace Metamorph

namespace Collection
open Operation
variable {typeOf : Value → String} {kind : CollectionKind} {items : List Value} {x y : Value}

theorem at_eq_ok {i : Int} {v : Value} : combine typeOf .at kind items (.integer i) = .ok v ↔
    1 ≤ i ∧ items[(i - 1).toNat]? = some v := by
  rw [combine, at?]
  by_cases inside : 1 ≤ i
  · simp only [inside, true_and]
    cases items[(i - 1).toNat]? with
    | some w => simp
    | none => cases indexText i <;> simp [bind, Except.bind]
  · simp only [inside, if_false, false_and, iff_false]
    cases indexText i <;> simp [bind, Except.bind]

/-- At a place counted from one there is an item if and only if the place is within the collection. -/
theorem exists_at_iff (i : Int) : (∃ v, combine typeOf .at kind items (.integer i) = .ok v) ↔
    1 ≤ i ∧ i ≤ items.length := by
  simp only [at_eq_ok, exists_and_left, ← Option.isSome_iff_exists, isSome_getElem?]
  omega

/-- The value is at the place, and at none before it; or the place is zero and the value is nowhere. -/
def FirstAt (typeOf : Value → String) (kind : CollectionKind) (items : List Value) (x : Value)
    (i : Nat) : Prop :=
  (i = 0 ∨ ∃ v, combine typeOf .at kind items (.integer i) = .ok v ∧ v.same x = true) ∧
    ∀ (j : Nat) v, combine typeOf .at kind items (.integer j) = .ok v → v.same x = true → 0 < i ∧ i ≤ j

theorem position_eq (items : List Value) (x : Value) : position items x =
    ((items.findIdx? fun item => item.key == x.key).map (· + 1)).getD 0 := by
  unfold position
  cases searched : items.findIdx? fun item => item.key == x.key <;> simp [searched]

theorem firstAt_position (typeOf : Value → String) (kind : CollectionKind) (items : List Value)
    (x : Value) : FirstAt typeOf kind items x (position items x) := by
  have place {j : Nat} {v : Value} (found : combine typeOf .at kind items (.integer j) = .ok v) :
      0 < j ∧ items[j - 1]? = some v := by
    obtain ⟨inside, known⟩ := at_eq_ok.1 found
    have index : ((j : Int) - 1).toNat = j - 1 := by omega
    exact ⟨by omega, index ▸ known⟩
  rw [position_eq]
  cases searched : items.findIdx? fun item => item.key == x.key with
  | none =>
    refine ⟨.inl rfl, fun j v found same => ?_⟩
    have differs := List.findIdx?_eq_none_iff.1 searched v (List.mem_of_getElem? (place found).2)
    rw [Value.same_eq_key, differs] at same
    cases same
  | some i =>
    obtain ⟨inside, equal, before⟩ := List.findIdx?_eq_some_iff_getElem.1 searched
    rw [Option.map_some, Option.getD_some]
    refine ⟨.inr ⟨items[i], at_eq_ok.2 ⟨by omega, by simp [inside]⟩, ?_⟩, fun j v found same => ?_⟩
    · rw [Value.same_eq_key, equal]
    · obtain ⟨positive, known⟩ := place found
      obtain ⟨within, rfl⟩ := List.getElem?_eq_some_iff.1 known
      refine ⟨Nat.succ_pos i, Nat.le_of_not_lt fun earlier => ?_⟩
      have differs := before (j - 1) (by omega)
      rw [← Value.same_eq_key] at differs
      exact differs same

theorem position_pos_iff : 0 < position items x ↔ 0 < multiplicity x items := by
  rw [multiplicity_pos_iff, List.mem_map, position_eq]
  cases searched : items.findIdx? fun item => item.key == x.key with
  | none => simpa using List.findIdx?_eq_none_iff.1 searched
  | some i =>
    obtain ⟨inside, equal, -⟩ := List.findIdx?_eq_some_iff_getElem.1 searched
    simpa using ⟨items[i], List.getElem_mem inside, by simpa using equal⟩

/-- The items that are not equal to the value, in their order. -/
def besides (x : Value) (items : List Value) : List Value := items.filter fun v => !v.same x

theorem excluding_eq_besides (items : List Value) (x : Value) : excluding items x = besides x items := by
  unfold excluding besides
  simp only [Value.same_eq_key]
  rfl

@[simp]
theorem besides_append (x : Value) (items more : List Value) :
    besides x (items ++ more) = besides x items ++ besides x more :=
  List.filter_append ..

theorem besides_self (x : Value) : besides x [x] = [] := by
  simp [besides, Value.same_eq_key]

@[simp]
theorem besides_besides (x : Value) (items : List Value) : besides x (besides x items) = besides x items := by
  simp [besides, List.filter_filter]

theorem multiplicity_besides_self (x : Value) (items : List Value) :
    multiplicity x (besides x items) = 0 := by
  refine Nat.eq_zero_of_not_pos fun present => ?_
  obtain ⟨v, member, same⟩ := List.mem_map.1 (multiplicity_pos_iff.1 present)
  have apart := (List.mem_filter.1 member).2
  rw [Value.same_iff.2 same] at apart
  cases apart

/-- Other values are among the other items as often as among all. -/
theorem multiplicity_besides (apart : y.same x = false) (items : List Value) :
    multiplicity y (besides x items) = multiplicity y items := by
  induction items with
  | nil => rfl
  | cons v rest ih =>
    unfold besides at ih ⊢
    rw [List.filter_cons, multiplicity_cons]
    split
    · rw [multiplicity_cons, ih]
    · rename_i same
      have differs : v.key ≠ y.key := by
        intro equal
        rw [Value.not_same_iff, ← equal] at apart
        simp [Value.same_eq_key, apart] at same
      rw [ih, if_neg differs, Nat.add_zero]

theorem length_besides_add (x : Value) (items : List Value) :
    (besides x items).length + multiplicity x items = items.length := by
  have parts := List.length_eq_countP_add_countP (fun v : Value => v.same x) (l := items)
  have own : items.countP (·.same x) = multiplicity x items := by
    rw [Value.countP_same, multiplicity_eq_count]
  have rest : (besides x items).length = items.countP fun v => ¬ v.same x = true := by
    simp [besides, List.countP_eq_length_filter]
  omega

/-- The operation with the value answers with a collection of the same kind, in which the value is so many
times. Other values are there as often as before, and their items in the order in which they were. -/
structure Alters (typeOf : Value → String) (op : Combination) (kind : CollectionKind)
    (items : List Value) (x : Value) (n : Nat) (altered : List Value) : Prop where
  answer : combine typeOf op kind items x = .ok (.collection kind altered)
  counted : combine typeOf .count kind altered x = .ok (.integer n)
  besides : besides x altered = besides x items
  elsewhere : ∀ y : Value, y.same x = false →
    combine typeOf .count kind altered y = combine typeOf .count kind items y

theorem Alters.of_besides {op : Combination} {altered : List Value}
    (answer : combine typeOf op kind items x = .ok (.collection kind altered))
    (same : Collection.besides x altered = Collection.besides x items) :
    Alters typeOf op kind items x (multiplicity x altered) altered where
  answer
  counted := rfl
  besides := same
  elsewhere y apart := by
    simp only [combine]
    rw [← multiplicity_besides apart altered, same, multiplicity_besides apart]

/-- What a kind without repeats has when one more item is put in behind. -/
theorem kept_snoc (unrepeated : kind.unique = true → items.Pairwise fun v w => v.same w = false)
    (x : Value) : (if kind.unique then Value.distinct (items ++ [x]) else items ++ [x]) =
      if kind.unique = true ∧ 0 < multiplicity x items then items else items ++ [x] := by
  by_cases unique : kind.unique = true
  · rw [if_pos unique, Value.distinct_append_singleton,
      Value.distinct_of_pairwise (unrepeated unique)]
    by_cases present : 0 < multiplicity x items
    · rw [if_pos (multiplicity_pos_iff.1 present), if_pos ⟨unique, present⟩, List.append_nil]
    · rw [if_neg (mt multiplicity_pos_iff.2 present), if_neg (mt And.right present)]
  · rw [if_neg unique, if_neg (mt And.left unique)]

/-- A value that no two items of the collection are equal to is there at most once. -/
theorem multiplicity_le_one (unrepeated : items.Pairwise fun v w => v.same w = false) (x : Value) :
    multiplicity x items ≤ 1 := by
  rw [multiplicity_eq_count]
  apply List.nodup_iff_count_le_one.1
  apply List.pairwise_map.2
  exact unrepeated.imp Value.not_same_iff.1

/-- Operations with a single value cohere. It is in a collection if it is counted there, or if it has a
position, which is the first place with an equal item; there is an item at the places from one to the
size. Put in behind or in front it is there once more, or once in a kind without repeats, where an equal
item that is there keeps its place when the value is put in behind; in front it is the first item. Taken
out it is gone, and there are so many items fewer. The kind, all other items and their order stay. -/
theorem element_operations_cohere (typeOf : Value → String) (kind : CollectionKind)
    (items : List Value) (x : Value)
    (unrepeated : kind.unique = true → items.Pairwise fun v w => v.same w = false) :
    ∃ (n i : Nat) (behind front out : List Value),
      n = items.countP (·.same x) ∧
      combine typeOf .count kind items x = .ok (.integer n) ∧
      combine typeOf .includes kind items x = .ok (.boolean (decide (0 < n))) ∧
      combine typeOf .indexOf kind items x = .ok (.integer i) ∧
      (0 < i ↔ 0 < n) ∧ FirstAt typeOf kind items x i ∧
      (∀ j : Int, (∃ v, combine typeOf .at kind items (.integer j) = .ok v) ↔
        1 ≤ j ∧ j ≤ items.length) ∧
      Alters typeOf .including kind items x (if kind.unique then 1 else n + 1) behind ∧
      Alters typeOf .append kind items x (if kind.unique then 1 else n + 1) behind ∧
      behind = (if kind.unique = true ∧ 0 < n then items else items ++ [x]) ∧
      Alters typeOf .prepend kind items x (if kind.unique then 1 else n + 1) front ∧
      combine typeOf .at kind front (.integer 1) = .ok x ∧
      Alters typeOf .excluding kind items x 0 out ∧
      combine typeOf .includes kind out x = .ok (.boolean false) ∧
      out.length + n = items.length := by
  let n := multiplicity x items
  let behind := if kind.unique = true ∧ 0 < n then items else items ++ [x]
  let front := if kind.unique then x :: besides x items else x :: items
  have own : multiplicity x [x] = 1 := by simp
  have bound (unique : kind.unique = true) : n ≤ 1 := multiplicity_le_one (unrepeated unique) x
  have putBehind : combine typeOf .including kind items x = .ok (.collection kind behind) := by
    simp only [combine, Value.collectionOf, kept_snoc unrepeated]
    rfl
  have putInFront : combine typeOf .prepend kind items x = .ok (.collection kind front) := by
    simp only [combine, prepend, excluding_eq_besides]
    rfl
  have takenOut : combine typeOf .excluding kind items x =
      .ok (.collection kind (besides x items)) := by
    simp only [combine, excluding_eq_besides]
  have countBehind : multiplicity x behind = if kind.unique then 1 else n + 1 := by
    by_cases unique : kind.unique = true
    · have := bound unique
      by_cases present : 0 < n
      · simp only [behind, unique, present, and_self, if_true]
        omega
      · simp only [behind, unique, present, and_false, if_false, multiplicity_append, own, if_true]
        omega
    · simp [behind, unique, n]
  have countInFront : multiplicity x front = if kind.unique then 1 else n + 1 := by
    by_cases unique : kind.unique = true
    · simp [front, unique, multiplicity_besides_self]
    · simp [front, unique, n]
  have restBehind : besides x behind = besides x items := by
    simp only [behind]
    split
    · rfl
    · rw [besides_append, besides_self, List.append_nil]
  have restInFront : besides x front = besides x items := by
    have first (rest : List Value) : besides x (x :: rest) = besides x rest := by
      rw [← List.singleton_append, besides_append, besides_self, List.nil_append]
    simp only [front]
    split <;> simp [first]
  refine ⟨n, position items x, behind, front, besides x items, ?_, rfl, ?_, rfl, position_pos_iff,
    firstAt_position typeOf kind items x, exists_at_iff, ?_, ?_, rfl, ?_, ?_, ?_, ?_,
    length_besides_add x items⟩
  · rw [Value.countP_same, ← multiplicity_eq_count]
  · rw [combine, includes_eq]
  · exact countBehind ▸ .of_besides putBehind restBehind
  · exact countBehind ▸ .of_besides putBehind restBehind
  · exact countInFront ▸ .of_besides putInFront restInFront
  · apply at_eq_ok.2
    simp only [front]
    split <;> simp
  · exact multiplicity_besides_self x items ▸ .of_besides takenOut (besides_besides x items)
  · rw [combine, includes_eq, multiplicity_besides_self]
    rfl

/-- A Set of two numbers, the second of which is put in once more as a Real. -/
theorem element_operations_cohere_numbers :
    ([.integer 1, .integer 2] : List Value).Pairwise (fun v w => v.same w = false) ∧
      ∃ behind front out,
        Alters (fun _ => "") .including .set [.integer 1, .integer 2] (.real 2.0) 1 behind ∧
        behind = [.integer 1, .integer 2] ∧
        Alters (fun _ => "") .prepend .set [.integer 1, .integer 2] (.real 2.0) 1 front ∧
        Alters (fun _ => "") .excluding .set [.integer 1, .integer 2] (.real 2.0) 0 out := by
  have unrepeated : ([.integer 1, .integer 2] : List Value).Pairwise fun v w => v.same w = false := by
    decide +kernel
  obtain ⟨n, i, behind, front, out, count, -, -, -, -, -, -, including, -, kept, prepend, -, excluding, -⟩ :=
    element_operations_cohere (fun _ => "") .set [.integer 1, .integer 2] (.real 2.0) fun _ => unrepeated
  have once : n = 1 := count.trans (by decide +kernel)
  refine ⟨unrepeated, behind, front, out, including, ?_, prepend, excluding⟩
  rw [kept, if_pos ⟨rfl, by omega⟩]

end Collection

end Metamorph
