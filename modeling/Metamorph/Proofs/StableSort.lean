import Metamorph.Collection.Iteration
import Metamorph.Proofs.Run
import Metamorph.Proofs.SortingPermutation
import Metamorph.Proofs.ValueOrder

/-! Sorting by keys that have an order, all numbers or all texts, is stable: the items come in the order of
their keys, and those of equal keys stay in the order in which they were. -/
namespace Metamorph

/-- The items in the order of a measure. Any of them that have one measure stay in the order in which they
were. -/
structure StablySorted {α β : Type} [LinearOrder β] (measure : α → β) (items sorted : List α) : Prop where
  perm : sorted.Perm items
  ordered : sorted.Pairwise fun x y => measure x ≤ measure y
  stable : ∀ p : α → Bool, (∀ x ∈ items, ∀ y ∈ items, p x → p y → measure x = measure y) →
    sorted.filter p = items.filter p

namespace Sorting
variable {α β : Type} [LinearOrder β]

theorem mergeSort_stablySorted (measure : α → β) (items : List α) :
    StablySorted measure items (items.mergeSort fun x y => decide (measure x ≤ measure y)) := by
  have trans (x y z : α) (first : decide (measure x ≤ measure y) = true)
      (second : decide (measure y ≤ measure z) = true) : decide (measure x ≤ measure z) = true := by
    rw [decide_eq_true_iff] at first second ⊢
    exact first.trans second
  have total (x y : α) : (decide (measure x ≤ measure y) || decide (measure y ≤ measure x)) = true := by
    rw [← Bool.decide_or, decide_eq_true_iff]
    exact le_total _ _
  have perm := List.mergeSort_perm items fun x y => decide (measure x ≤ measure y)
  refine ⟨perm, ?_, ?_⟩
  · apply (List.pairwise_mergeSort trans total items).imp
    intro x y before
    exact of_decide_eq_true before
  · intro p level
    -- Items of one measure are in order as they stand, so sorting leaves them in that order.
    have ordered : (items.filter p).Pairwise fun x y => decide (measure x ≤ measure y) = true := by
      apply List.pairwise_of_forall_mem_list
      intro x inside y found
      obtain ⟨member, own⟩ := List.mem_filter.1 inside
      obtain ⟨member', own'⟩ := List.mem_filter.1 found
      rw [decide_eq_true_iff]
      exact (level x member y member' own own').le
    have kept := (List.sublist_mergeSort trans total ordered List.filter_sublist).filter p
    rw [List.filter_filter] at kept
    simp only [Bool.and_self] at kept
    exact (kept.eq_of_length (perm.filter p).length_eq.symm).symm

/-- Where all items have their place and stand as their measures do, sorting is stable. -/
theorem sort_stablySorted {before : α → α → Bool} {placed : α → Bool} {items : List α}
    (measure : α → β) (all : ∀ x ∈ items, placed x = true)
    (measured : ∀ x ∈ items, ∀ y ∈ items, before x y = decide (measure x < measure y)) :
    StablySorted measure items (sort before placed items) := by
  have relation : items.mergeSort (fun x y => !before y x) =
      items.mergeSort fun x y => decide (measure x ≤ measure y) := by
    have agree : ∀ x ∈ items, ∀ y ∈ items, (!before y x) = decide (measure x ≤ measure y) := by
      intro x inside y found
      rw [measured y found x inside, ← decide_not, decide_eq_decide]
      exact not_lt
    simpa using List.map_mergeSort (f := id) agree
  rw [sort, if_pos (List.all_eq_true.2 all), relation]
  exact mergeSort_stablySorted measure items

end Sorting

namespace Collection
open Operation Value
variable {σ : Type} {f : Value → Run σ Value} {items keys : List Value} {pairs : List (Value × Value)}
  {s t : σ}

/-- The function answers the items with the values, one after the other, each in the state that the one in
front of it has left. -/
inductive Answers (f : Value → Run σ Value) : List Value → σ → List Value → σ → Prop
  | nil (s : σ) : Answers f [] s [] s
  | cons {x v : Value} {items values : List Value} {s t u : σ} (first : f x s = .value v t)
      (rest : Answers f items t values u) : Answers f (x :: items) s (v :: values) u

theorem Answers.length_eq (answers : Answers f items s keys t) : keys.length = items.length := by
  induction answers with
  | nil => rfl
  | cons _ _ ih => exact congrArg (· + 1) ih

theorem Answers.keyed (answers : Answers f items s keys t) :
    keyed f items s = .value (keys.zip items) t := by
  induction answers with
  | nil => rfl
  | cons first _ ih =>
    rw [Collection.keyed, Run.bind_of_value first, Run.bind_of_value ih]
    rfl

/-- Pairs in the order of their keys, those of equal keys in the order in which they were. -/
structure KeySorted (pairs sorted : List (Value × Value)) : Prop where
  perm : sorted.Perm pairs
  ordered : sorted.Pairwise fun pair next => pair.1.NotAfter next.1
  stable : ∀ key : Value, sorted.filter (fun pair => pair.1.same key) =
    pairs.filter fun pair => pair.1.same key

/-- A measure puts keys into their order if it is one for equal keys. -/
theorem keySorted_of_measure {β : Type} [LinearOrder β] {sorted : List (Value × Value)}
    (measure : Value → β) (sorting : StablySorted (fun pair => measure pair.1) pairs sorted)
    (orders : ∀ pair ∈ pairs, ∀ next ∈ pairs,
      measure pair.1 ≤ measure next.1 → pair.1.NotAfter next.1)
    (agrees : ∀ pair ∈ pairs, ∀ next ∈ pairs,
      pair.1.same next.1 → measure pair.1 = measure next.1) :
    KeySorted pairs sorted := by
  refine ⟨sorting.perm, ?_, ?_⟩
  · apply sorting.ordered.imp_of_mem
    intro pair next first second before
    exact orders pair (sorting.perm.mem_iff.1 first) next (sorting.perm.mem_iff.1 second) before
  · intro key
    apply sorting.stable
    intro pair first next second equal equal'
    apply agrees pair first next second
    exact same_equivalence.trans equal (same_equivalence.symm equal')

theorem hasPlace_of_level {v : Value} {a : Number.Level} (stands : v.level? = some a) :
    hasPlace v = true := by
  obtain ⟨amount, denotes, -⟩ := Option.map_eq_some_iff.1 stands
  cases v with
  | real x => exact Number.Exact.eq_self denotes
  | _ => rfl

theorem sortByKeys_numbers (numbers : ∀ pair ∈ pairs, ∃ a, pair.1.level? = some a) :
    ∃ sorted, sortByKeys pairs = sorted.map (·.2) ∧ KeySorted pairs sorted := by
  refine ⟨_, rfl, keySorted_of_measure numberLevel (Sorting.sort_stablySorted _ ?_ ?_) ?_ ?_⟩
  · intro pair member
    obtain ⟨a, own⟩ := numbers pair member
    exact hasPlace_of_level own
  · intro pair member next member'
    obtain ⟨a, own⟩ := numbers pair member
    obtain ⟨b, own'⟩ := numbers next member'
    rw [Bool.eq_iff_iff, decide_eq_true_iff, precedes_iff_level own own', numberLevel_eq own,
      numberLevel_eq own']
  · intro pair member next member' before
    obtain ⟨a, own⟩ := numbers pair member
    obtain ⟨b, own'⟩ := numbers next member'
    rw [numberLevel_eq own, numberLevel_eq own'] at before
    exact .numbers own own' before
  · intro pair member next member' equal
    obtain ⟨a, own⟩ := numbers pair member
    obtain ⟨b, own'⟩ := numbers next member'
    rw [numberLevel_eq own, numberLevel_eq own', (same_iff_level own own').1 equal]

theorem sortByKeys_texts (texts : ∀ pair ∈ pairs, pair.1.isString = true) :
    ∃ sorted, sortByKeys pairs = sorted.map (·.2) ∧ KeySorted pairs sorted := by
  refine ⟨_, rfl, keySorted_of_measure textLevel (Sorting.sort_stablySorted _ ?_ ?_) ?_ ?_⟩
  · intro pair member
    obtain ⟨s, is⟩ := eq_string (texts pair member)
    rw [is]
    rfl
  · intro pair member next member'
    obtain ⟨s, is⟩ := eq_string (texts pair member)
    obtain ⟨t, is'⟩ := eq_string (texts next member')
    simp only [is, is', precedes, textLevel, codePoints_strictMono.lt_iff_lt]
  · intro pair member next member' before
    obtain ⟨s, is⟩ := eq_string (texts pair member)
    obtain ⟨t, is'⟩ := eq_string (texts next member')
    rw [is, is'] at before ⊢
    exact .texts before
  · intro pair member next member' equal
    obtain ⟨s, is⟩ := eq_string (texts pair member)
    obtain ⟨t, is'⟩ := eq_string (texts next member')
    rw [is, is'] at equal ⊢
    rw [(same_structural.strings s t).1 equal]

/-- Keys are refused if they are neither all numbers nor all texts, for one of them. -/
theorem unsortable?_eq_none_iff : unsortable? keys = none ↔
    (∀ key ∈ keys, key.isNumber = true) ∨ ∀ key ∈ keys, key.isString = true := by
  unfold unsortable?
  split
  · rename_i sortable
    simpa using sortable
  · rename_i mixed
    have some : keys ≠ [] := by
      rintro rfl
      exact mixed rfl
    have last : keys.getLast? ≠ none := fun none => some (List.getLast?_eq_none_iff.1 none)
    simp only [Bool.or_eq_true, List.all_eq_true] at mixed
    simp [mixed, last]

theorem mem_of_unsortable? {key : Value} (refused : unsortable? keys = some key) : key ∈ keys := by
  unfold unsortable? at refused
  split at refused
  · cases refused
  · cases odd : keys.find? fun k => !k.isOrderable with
    | some found =>
      rw [odd] at refused
      cases refused
      exact List.mem_of_find?_eq_some odd
    | none =>
      rw [odd] at refused
      exact List.mem_of_getLast? refused

section
variable {typeOf : Value → String} {kind : CollectionKind} (answers : Answers f items s keys t)
include answers

theorem sortedBy_of_sortable (sortable : unsortable? keys = none) :
    iterate typeOf .sortedBy kind items f s =
      .value (.collection (sortKind kind) (sortByKeys (keys.zip items))) t := by
  simp only [iterate]
  rw [Run.bind_of_value answers.keyed, List.map_fst_zip answers.length_eq.le]
  simp only [sortable]
  rfl

theorem sortedBy_of_refused {key : Value} (refused : unsortable? keys = some key) :
    iterate typeOf .sortedBy kind items f s =
      .failure (.typeMismatch "Integer, Real or String keys of one kind" (typeOf key) "'sortedBy'") t := by
  simp only [iterate]
  rw [Run.bind_of_value answers.keyed, List.map_fst_zip answers.length_eq.le]
  simp only [refused]
  rfl

theorem sortedBy_fails_iff : (∃ fault u, iterate typeOf .sortedBy kind items f s = .failure fault u) ↔
    ¬(∀ key ∈ keys, key.isNumber = true) ∧ ¬∀ key ∈ keys, key.isString = true := by
  rw [← not_or, ← unsortable?_eq_none_iff]
  cases refused : unsortable? keys with
  | none => simp [sortedBy_of_sortable answers refused]
  | some key => simp [sortedBy_of_refused answers refused]

end

/-- Sorting is stable. Where a body gives every item a key, and these are all numbers or all texts, the
items come in the order of their keys, exact numbers by size and texts by code points, and items of equal
keys in the order in which they were; none is lost or added. Any other keys are refused as being of the
wrong type, unless there are none at all. -/
theorem sortedBy_stable (typeOf : Value → String) (kind : CollectionKind)
    (answers : Answers f items s keys t) :
    ((∀ key ∈ keys, ∃ a, key.level? = some a) ∨ (∀ key ∈ keys, key.isString = true) →
      ∃ sorted : List (Value × Value),
        iterate typeOf .sortedBy kind items f s =
          .value (.collection (if kind = .set ∨ kind = .orderedSet then .orderedSet else .sequence)
            (sorted.map (·.2))) t ∧
        (sorted.map (·.2)).Perm items ∧ KeySorted (keys.zip items) sorted) ∧
    ((∃ fault u, iterate typeOf .sortedBy kind items f s = .failure fault u) ↔
      items ≠ [] ∧ ¬(∀ key ∈ keys, key.isNumber = true) ∧ ¬∀ key ∈ keys, key.isString = true) ∧
    ∀ fault u, iterate typeOf .sortedBy kind items f s = .failure fault u →
      u = t ∧ fault.kind = "TypeMismatchError" ∧ ∃ key ∈ keys,
        fault = .typeMismatch "Integer, Real or String keys of one kind" (typeOf key) "'sortedBy'" := by
  have length := answers.length_eq
  have kinds : (if kind = .set ∨ kind = .orderedSet then CollectionKind.orderedSet else .sequence) =
      sortKind kind := by
    cases kind <;> rfl
  have key_mem {pair : Value × Value} (member : pair ∈ keys.zip items) : pair.1 ∈ keys :=
    (List.of_mem_zip member).1
  refine ⟨?_, ?_, ?_⟩
  · intro ordered
    have sortable : unsortable? keys = none := by
      apply unsortable?_eq_none_iff.2
      rcases ordered with numbers | texts
      · refine .inl fun key member => ?_
        obtain ⟨a, own⟩ := numbers key member
        exact isNumber_of_level own
      · exact .inr texts
    obtain ⟨sorted, outcome, sorting⟩ :
        ∃ sorted, sortByKeys (keys.zip items) = sorted.map (·.2) ∧ KeySorted (keys.zip items) sorted := by
      rcases ordered with numbers | texts
      · exact sortByKeys_numbers fun pair member => numbers pair.1 (key_mem member)
      · exact sortByKeys_texts fun pair member => texts pair.1 (key_mem member)
    refine ⟨sorted, ?_, ?_, sorting⟩
    · rw [sortedBy_of_sortable answers sortable, outcome, kinds]
    · have items_eq : (keys.zip items).map (·.2) = items := List.map_snd_zip length.ge
      exact items_eq ▸ sorting.perm.map (·.2)
  · refine (sortedBy_fails_iff answers).trans (and_iff_right_of_imp ?_).symm
    rintro ⟨numbers, -⟩ rfl
    obtain rfl := List.eq_nil_of_length_eq_zero length
    exact numbers (List.forall_mem_nil _)
  · intro fault u failed
    cases refused : unsortable? keys with
    | none =>
      rw [sortedBy_of_sortable answers refused] at failed
      cases failed
    | some key =>
      rw [sortedBy_of_refused answers refused] at failed
      cases failed
      exact ⟨rfl, rfl, key, mem_of_unsortable? refused, rfl⟩

/-- A body that is the item itself, over a Bag of Integers and Reals two of which are equal, and over one
in which a text stands beside a number. -/
theorem sortedBy_stable_mixed :
    let own (v : Value) : Run Nat Value := fun calls => .value v (calls + 1)
    let mixed : List Value := [.integer 2, .real 1.5, .real 2.0, .integer 1]
    (∃ sorted : List (Value × Value),
      iterate (fun _ => "") .sortedBy .bag mixed own 0 = .value (.collection .sequence (sorted.map (·.2))) 4 ∧
      (sorted.map (·.2)).Perm mixed ∧ KeySorted (mixed.zip mixed) sorted) ∧
    ∃ fault u, iterate (fun _ => "") .sortedBy .set [.integer 1, .string "a"] own 0 = .failure fault u := by
  intro own mixed
  have answers (items : List Value) (calls : Nat) : Answers own items calls items (calls + items.length) := by
    induction items generalizing calls with
    | nil => exact .nil calls
    | cons x rest ih =>
      rw [List.length_cons, Nat.add_comm rest.length, ← Nat.add_assoc]
      exact .cons rfl (ih (calls + 1))
  refine ⟨(sortedBy_stable (fun _ => "") .bag (answers mixed 0)).1 (.inl ?_), ?_⟩
  · simp only [mixed, List.forall_mem_cons]
    exact ⟨⟨_, rfl⟩, ⟨_, rfl⟩, ⟨_, rfl⟩, ⟨_, rfl⟩, List.forall_mem_nil _⟩
  · apply (sortedBy_stable (fun _ => "") .set (answers [.integer 1, .string "a"] 0)).2.1.2
    decide

end Collection

end Metamorph
