import Metamorph.Proofs.BodyRelation
import Metamorph.Proofs.Multiplicity
import Metamorph.Proofs.Run

/-! What the iterators say about one condition fits together: they all speak of the items that satisfy it and
of those that do not. An iterator that needs the rest of the items fails at the first one for which the
condition does; one that has its answer by then does not come to it. -/
namespace Metamorph

namespace Run
variable {σ α β : Type} {calm : σ → Prop}

/-- From a calm state the run has this result, whatever the state is, and leaves a calm one. -/
def Gives (calm : σ → Prop) (run : Run σ α) (result : Result α) : Prop :=
  ∀ s, calm s → ∃ t, calm t ∧ run s = Run.ofResult result t

namespace Gives
variable {run : Run σ α} {result : Result α}

theorem pure (a : α) : Gives calm (Pure.pure a) (Pure.pure a : Result α) := by
  intro s still
  exact ⟨s, still, rfl⟩

theorem fail (fault : Fault) : Gives calm (throw fault : Run σ α) (throw fault : Result α) := by
  intro s still
  exact ⟨s, still, rfl⟩

theorem bind {next : α → Run σ β} {further : α → Result β} (first : Gives calm run result)
    (rest : ∀ a, Gives calm (next a) (further a)) :
    Gives calm (run >>= next) (result >>= further) := by
  intro s still
  obtain ⟨t, still', is⟩ := first s still
  cases result with
  | ok a =>
    obtain ⟨u, still'', is'⟩ := rest a t still'
    exact ⟨u, still'', (bind_of_value is).trans is'⟩
  | error fault => exact ⟨t, still', bind_of_failure is⟩

end Gives

end Run

namespace Collection
open Run Value

/-- An iterator does with runs what it does with the results that they have. -/
def resulting {σ : Type} (calm : σ → Prop) : BodyRelation Unit Unit (Run σ) Result where
  Relates run result := Gives calm (run ()) (result ())
  pure := .pure
  fail := .fail
  bind first rest := first.bind rest

variable {p : Value → Result Value} {items before rest values : List Value}

theorem ok_bind {α β : Type} (a : α) (next : α → Result β) :
    ((.ok a : Result α) >>= next) = next a := rfl

/-- `true` alone satisfies a condition. -/
def satisfies (p : Value → Result Value) (v : Value) : Bool :=
  match p v with
  | .ok w => w.holds
  | .error _ => false

theorem satisfies_iff {v : Value} : satisfies p v = true ↔ p v = .ok (.boolean true) := by
  unfold satisfies
  cases p v with
  | ok w => cases w <;> simp [holds]
  | error fault => simp

theorem satisfies_of_ok {v w : Value} (answered : p v = .ok w) : satisfies p v = w.holds := by
  simp only [satisfies, answered]

/-! Items for which the condition does not fail, and others behind them. -/

section
variable (answers : ∀ v ∈ before, ∃ w, p v = .ok w) (rest : List Value)
include answers

theorem keep_append (wanted : Bool) :
    keep wanted p (before ++ rest) =
      (keep wanted p rest).map ((before.filter fun v => satisfies p v == wanted) ++ ·) := by
  induction before with
  | nil => cases own : keep wanted p rest <;> simp [own, Except.map]
  | cons v before ih =>
    obtain ⟨⟨w, answered⟩, later⟩ := List.forall_mem_cons.1 answers
    rw [List.cons_append, keep, answered, ok_bind, ih later, List.filter_cons,
      satisfies_of_ok answered]
    cases keep wanted p rest with
    | error fault => rfl
    | ok kept =>
      simp only [Except.map, ok_bind]
      split <;> rfl

theorem holdsForSome_append :
    holdsForSome p (before ++ rest) =
      if before.any (satisfies p) then .ok true else holdsForSome p rest := by
  induction before with
  | nil => rfl
  | cons v before ih =>
    obtain ⟨⟨w, answered⟩, later⟩ := List.forall_mem_cons.1 answers
    rw [List.cons_append, holdsForSome, answered, ok_bind, ih later, List.any_cons,
      satisfies_of_ok answered]
    cases w.holds <;> rfl

theorem holdsForAll_append :
    holdsForAll p (before ++ rest) =
      if before.all (satisfies p) then holdsForAll p rest else .ok false := by
  induction before with
  | nil => rfl
  | cons v before ih =>
    obtain ⟨⟨w, answered⟩, later⟩ := List.forall_mem_cons.1 answers
    rw [List.cons_append, holdsForAll, answered, ok_bind, ih later, List.all_cons,
      satisfies_of_ok answered]
    cases w.holds <;> rfl

theorem holdsForOne_append (found : Bool) :
    holdsForOne p found (before ++ rest) =
      if 2 ≤ before.countP (satisfies p) + found.toNat then .ok false
      else holdsForOne p (before.any (satisfies p) || found) rest := by
  induction before generalizing found with
  | nil => cases found <;> rfl
  | cons v before ih =>
    obtain ⟨⟨w, answered⟩, later⟩ := List.forall_mem_cons.1 answers
    rw [List.cons_append, holdsForOne, answered, ok_bind, List.countP_cons, List.any_cons,
      satisfies_of_ok answered, ih later, ih later]
    cases w.holds with
    | false => simp
    | true =>
      cases found with
      | false => simp
      | true =>
        symm
        apply if_pos
        simp

end

theorem allDistinct_append (answers : List.Forall₂ (fun v w => p v = .ok w) before values)
    (rest : List Value) (seen : Std.TreeSet Key) :
    allDistinct p seen (before ++ rest) =
      if Unmet seen values then
        allDistinct p (values.foldl (fun seen v => seen.insert v.key) seen) rest
      else .ok false := by
  induction answers generalizing seen with
  | nil =>
    rw [if_pos (unmet_nil seen)]
    rfl
  | @cons v w before values answered later ih =>
    rw [List.cons_append, allDistinct, answered, ok_bind, List.foldl_cons]
    dsimp only
    by_cases known : w.key ∈ seen
    · rw [if_pos (Std.TreeSet.contains_iff_mem.2 known), if_neg]
      · rfl
      · intro unmet
        exact (unmet_cons.1 unmet).1 known
    · rw [if_neg (mt Std.TreeSet.contains_iff_mem.1 known), ih]
      congr 1
      rw [unmet_cons, eq_iff_iff]
      exact (and_iff_right known).symm

/-- The items are parted in two, those that satisfy the condition and those that do not, each part in the
order of the items. -/
structure Parted (p : Value → Result Value) (items chosen others : List Value) : Prop where
  perm : (chosen ++ others).Perm items
  chosen_sublist : chosen.Sublist items
  others_sublist : others.Sublist items
  satisfied : ∀ v ∈ chosen, p v = .ok (.boolean true)
  unsatisfied : ∀ v ∈ others, p v ≠ .ok (.boolean true)

theorem parted_filter (p : Value → Result Value) (items : List Value) :
    Parted p items (items.filter (satisfies p)) (items.filter (!satisfies p ·)) where
  perm := List.filter_append_perm _ items
  chosen_sublist := List.filter_sublist
  others_sublist := List.filter_sublist
  satisfied v member := satisfies_iff.1 (List.mem_filter.1 member).2
  unsatisfied v member := by
    rw [ne_eq, ← satisfies_iff]
    simpa using (List.mem_filter.1 member).2

section
variable (answers : ∀ v ∈ items, ∃ w, p v = .ok w)
include answers

theorem keep_of_answers :
    keep true p items = .ok (items.filter (satisfies p)) ∧
    keep false p items = .ok (items.filter (!satisfies p ·)) := by
  have kept (wanted : Bool) :
      keep wanted p items = .ok (items.filter fun v => satisfies p v == wanted) := by
    have all := keep_append answers [] wanted
    rw [List.append_nil] at all
    rw [all]
    exact congrArg Except.ok (List.append_nil _)
  simp [kept]

theorem holdsForSome_of_answers : holdsForSome p items = .ok (items.any (satisfies p)) := by
  have all := holdsForSome_append answers []
  rw [List.append_nil] at all
  rw [all]
  cases items.any (satisfies p) <;> rfl

theorem holdsForAll_of_answers : holdsForAll p items = .ok (items.all (satisfies p)) := by
  have all := holdsForAll_append answers []
  rw [List.append_nil] at all
  rw [all]
  cases items.all (satisfies p) <;> rfl

theorem holdsForOne_of_answers :
    holdsForOne p false items = .ok (items.countP (satisfies p) == 1) := by
  have all := holdsForOne_append answers [] false
  rw [List.append_nil] at all
  rw [all]
  split
  · rename_i several
    rw [Bool.toNat_false, Nat.add_zero] at several
    rw [beq_eq_false_iff_ne.2 (by omega)]
  · rename_i few
    rw [Bool.toNat_false, Nat.add_zero] at few
    simp only [holdsForOne, Bool.or_false]
    apply congrArg Except.ok
    rw [Bool.eq_iff_iff, beq_iff_eq, List.any_eq_true, ← List.countP_pos_iff]
    omega

end

theorem allDistinct_of_answers (answers : List.Forall₂ (fun v w => p v = .ok w) items values) :
    allDistinct p ∅ items = .ok (decide (values.Pairwise fun v w => v.same w = false)) := by
  have all := allDistinct_append answers [] ∅
  rw [List.append_nil] at all
  rw [all]
  simp only [unmet_empty]
  split
  · rename_i apart
    rw [decide_eq_true apart]
    rfl
  · rename_i close
    rw [decide_eq_false close]

theorem exists_answers (answers : ∀ v ∈ items, ∃ w, p v = .ok w) :
    ∃ values, List.Forall₂ (fun v w => p v = .ok w) items values := by
  induction items with
  | nil => exact ⟨[], .nil⟩
  | cons v items ih =>
    obtain ⟨⟨w, answered⟩, later⟩ := List.forall_mem_cons.1 answers
    obtain ⟨values, rest⟩ := ih later
    exact ⟨w :: values, .cons answered rest⟩

theorem answers_of_forall₂ (answers : List.Forall₂ (fun v w => p v = .ok w) items values) :
    ∀ v ∈ items, ∃ w, p v = .ok w := by
  induction answers with
  | nil => exact List.forall_mem_nil _
  | cons answered _ ih => exact List.forall_mem_cons.2 ⟨⟨_, answered⟩, ih⟩

/-- If the function fails for some item, then it does for a first one. -/
theorem exists_first_failure (fails : ∃ v ∈ items, ∃ fault, p v = .error fault) :
    ∃ before x after values fault, items = before ++ x :: after ∧
      List.Forall₂ (fun v w => p v = .ok w) before values ∧ p x = .error fault := by
  induction items with
  | nil => simp at fails
  | cons v items ih =>
    cases own : p v with
    | error fault => exact ⟨[], v, items, [], fault, rfl, .nil, own⟩
    | ok w =>
      have later : ∃ v ∈ items, ∃ fault, p v = .error fault := by
        obtain ⟨u, member, fault, failed⟩ := fails
        rcases List.mem_cons.1 member with rfl | inside
        · rw [own] at failed
          cases failed
        · exact ⟨u, inside, fault, failed⟩
      obtain ⟨before, x, after, values, fault, rfl, answers, failed⟩ := ih later
      exact ⟨v :: before, x, after, w :: values, fault, rfl, .cons own answers, failed⟩

theorem any_of_answers (typeOf : Value → String) (kind : CollectionKind) {chosen : List Value}
    (kept : keep true p items = .ok chosen) :
    (∀ item, chosen = [item] → iterate typeOf .any kind items p = .ok item) ∧
    (chosen.length ≠ 1 →
      iterate typeOf .any kind items p = .error (.of (.noUniqueElement chosen.length))) := by
  constructor
  · rintro item rfl
    simp only [iterate, kept]
    rfl
  · intro several
    simp only [iterate, kept, ok_bind]
    split
    · exact absurd rfl several
    · rfl

section
variable {typeOf : Value → String} {kind : CollectionKind} {x : Value} {after : List Value}
  {fault : Fault}

theorem error_bind {α β : Type} (fault : Fault) (next : α → Result β) :
    ((.error fault : Result α) >>= next) = .error fault := rfl

theorem keep_of_failure (answers : ∀ v ∈ before, ∃ w, p v = .ok w) (failed : p x = .error fault)
    (wanted : Bool) (after : List Value) : keep wanted p (before ++ x :: after) = .error fault := by
  rw [keep_append answers, keep, failed]
  rfl

theorem iterate_of_failure (answers : List.Forall₂ (fun v w => p v = .ok w) before values)
    (failed : p x = .error fault) :
    (∀ op ∈ [Iterator.select, .reject, .any],
      iterate typeOf op kind (before ++ x :: after) p = .error fault) ∧
    iterate typeOf .exists kind (before ++ x :: after) p =
      (if before.any (satisfies p) then .ok (.boolean true) else .error fault) ∧
    iterate typeOf .forAll kind (before ++ x :: after) p =
      (if before.all (satisfies p) then .error fault else .ok (.boolean false)) ∧
    iterate typeOf .one kind (before ++ x :: after) p =
      (if 2 ≤ before.countP (satisfies p) then .ok (.boolean false) else .error fault) ∧
    iterate typeOf .isUnique kind (before ++ x :: after) p =
      (if values.Pairwise fun v w => v.same w = false then .error fault else .ok (.boolean false)) := by
  have each := answers_of_forall₂ answers
  have kept (wanted : Bool) := keep_of_failure each failed wanted after
  refine ⟨?_, ?_, ?_, ?_, ?_⟩
  · intro op member
    simp only [List.mem_cons, List.not_mem_nil, or_false] at member
    rcases member with rfl | rfl | rfl
    all_goals simp only [iterate, kept, error_bind]
  · simp only [iterate, holdsForSome_append each, holdsForSome, failed, error_bind]
    split <;> rfl
  · simp only [iterate, holdsForAll_append each, holdsForAll, failed, error_bind]
    split <;> rfl
  · simp only [iterate, holdsForOne_append each, holdsForOne, failed, error_bind, Bool.toNat_false,
      Nat.add_zero]
    split <;> rfl
  · simp only [iterate, allDistinct_append answers, allDistinct, failed, error_bind, unmet_empty]
    split <;> rfl

end

/-- The iterators cohere. A function on runs that has one result for every item, whatever the state, makes
an iterator do what the results do. If they are values, the condition parts the items in those to select and
those to reject: it holds for all of them if none is to reject, for some if one is to select, for one if just
one is, and that is the one that `any` answers with; the values are unique if no two of them are equal.
Otherwise there is a first item for which the function fails, and so do the iterators that need every item.
The others fail with it unless an item before it has settled their answer. -/
theorem iterators_cohere (typeOf : Value → String) (kind : CollectionKind) (items : List Value)
    (p : Value → Result Value) :
    (∀ {σ : Type} (calm : σ → Prop) (f : Value → Run σ Value),
      (∀ v ∈ items, Gives calm (f v) (p v)) → ∀ op,
        Gives calm (iterate typeOf op kind items f) (iterate typeOf op kind items p)) ∧
    ((∀ v ∈ items, ∃ w, p v = .ok w) → ∃ chosen others values,
      Parted p items chosen others ∧ List.Forall₂ (fun v w => p v = .ok w) items values ∧
      iterate typeOf .select kind items p = .ok (.collection kind chosen) ∧
      iterate typeOf .reject kind items p = .ok (.collection kind others) ∧
      iterate typeOf .forAll kind items p = .ok (.boolean others.isEmpty) ∧
      iterate typeOf .exists kind items p = .ok (.boolean !chosen.isEmpty) ∧
      iterate typeOf .one kind items p = .ok (.boolean (chosen.length == 1)) ∧
      (∀ item, chosen = [item] → iterate typeOf .any kind items p = .ok item) ∧
      (chosen.length ≠ 1 →
        iterate typeOf .any kind items p = .error (.of (.noUniqueElement chosen.length))) ∧
      iterate typeOf .isUnique kind items p =
        .ok (.boolean (decide (values.Pairwise fun v w => v.same w = false))) ∧
      iterate typeOf .forAll kind chosen p = .ok (.boolean true) ∧
      iterate typeOf .reject kind chosen p = .ok (.collection kind [])) ∧
    ((∃ v ∈ items, ∃ fault, p v = .error fault) → ∃ before x after values fault,
      items = before ++ x :: after ∧ List.Forall₂ (fun v w => p v = .ok w) before values ∧
      p x = .error fault ∧
      (∀ op ∈ [Iterator.select, .reject, .any], iterate typeOf op kind items p = .error fault) ∧
      iterate typeOf .exists kind items p =
        (if before.any (satisfies p) then .ok (.boolean true) else .error fault) ∧
      iterate typeOf .forAll kind items p =
        (if before.all (satisfies p) then .error fault else .ok (.boolean false)) ∧
      iterate typeOf .one kind items p =
        (if 2 ≤ before.countP (satisfies p) then .ok (.boolean false) else .error fault) ∧
      iterate typeOf .isUnique kind items p =
        (if values.Pairwise fun v w => v.same w = false then .error fault
          else .ok (.boolean false))) := by
  refine ⟨?_, ?_, ?_⟩
  · intro σ calm f body op
    exact (resulting calm).iterate (fun _ => f) (fun _ => p) body typeOf op kind
  · intro answers
    obtain ⟨values, each⟩ := exists_answers answers
    obtain ⟨selected, rejected⟩ := keep_of_answers answers
    obtain ⟨unique, otherwise⟩ := any_of_answers typeOf kind selected
    have parted := parted_filter p items
    have within : ∀ v ∈ items.filter (satisfies p), ∃ w, p v = .ok w := by
      intro v member
      exact answers v (parted.chosen_sublist.mem member)
    have all : ∀ v ∈ items.filter (satisfies p), satisfies p v = true := by
      intro v member
      exact satisfies_iff.2 (parted.satisfied v member)
    refine ⟨items.filter (satisfies p), items.filter (!satisfies p ·), values, parted, each, ?_, ?_, ?_,
      ?_, ?_, unique, otherwise, ?_, ?_, ?_⟩
    · simp only [iterate, selected]
      rfl
    · simp only [iterate, rejected]
      rfl
    · have none : items.all (satisfies p) = (items.filter (!satisfies p ·)).isEmpty := by
        rw [Bool.eq_iff_iff, List.isEmpty_iff, List.filter_eq_nil_iff]
        simp
      simp only [iterate, holdsForAll_of_answers answers, none]
      rfl
    · have some : items.any (satisfies p) = !(items.filter (satisfies p)).isEmpty := by
        rw [Bool.eq_iff_iff, Bool.not_eq_true', ← Bool.not_eq_true, List.isEmpty_iff,
          List.filter_eq_nil_iff]
        simp
      simp only [iterate, holdsForSome_of_answers answers, some]
      rfl
    · simp only [iterate, holdsForOne_of_answers answers, ok_bind, List.countP_eq_length_filter]
      rfl
    · simp only [iterate, allDistinct_of_answers each]
      rfl
    · simp only [iterate, holdsForAll_of_answers within, List.all_eq_true.2 all]
      rfl
    · have none : (items.filter (satisfies p)).filter (!satisfies p ·) = [] := by
        apply List.filter_eq_nil_iff.2
        intro v member
        simp [all v member]
      simp only [iterate, (keep_of_answers within).2, none]
      rfl
  · intro fails
    obtain ⟨before, x, after, values, fault, rfl, answers, failed⟩ := exists_first_failure fails
    exact ⟨before, x, after, values, fault, rfl, answers, failed, iterate_of_failure answers failed⟩

/-- A function that counts its calls and fails for zero, over items without and with a zero among them. -/
theorem iterators_cohere_counting :
    let p (v : Value) : Result Value :=
      match v with
      | .integer 0 => .error (.broken "zero")
      | v => .ok (.boolean (v.same (.integer 2)))
    let f (v : Value) : Run Nat Value := fun calls => Run.ofResult (p v) (calls + 1)
    (∃ t, iterate (fun _ => "") .any .bag [.integer 1, .integer 2] f 0 =
      Run.ofResult (iterate (fun _ => "") .any .bag [.integer 1, .integer 2] p) t) ∧
    (∃ chosen others, Parted p [.integer 1, .integer 2] chosen others ∧
      iterate (fun _ => "") .select .bag [.integer 1, .integer 2] p = .ok (.collection .bag chosen)) ∧
    ∃ fault, iterate (fun _ => "") .select .bag [.integer 2, .integer 0] p = .error fault := by
  intro p f
  refine ⟨?_, ?_, ?_⟩
  · have body : ∀ v ∈ [Value.integer 1, .integer 2], Gives (fun _ => True) (f v) (p v) := by
      intro v _ calls _
      exact ⟨calls + 1, trivial, rfl⟩
    obtain ⟨t, -, is⟩ := (iterators_cohere (fun _ => "") .bag [.integer 1, .integer 2] p).1
      (fun _ => True) f body .any 0 trivial
    exact ⟨t, is⟩
  · have answers : ∀ v ∈ [Value.integer 1, .integer 2], ∃ w, p v = .ok w := by
      simp only [List.forall_mem_cons]
      exact ⟨⟨_, rfl⟩, ⟨_, rfl⟩, List.forall_mem_nil _⟩
    obtain ⟨chosen, others, -, parted, -, selected, -⟩ :=
      (iterators_cohere (fun _ => "") .bag [.integer 1, .integer 2] p).2.1 answers
    exact ⟨chosen, others, parted, selected⟩
  · have fails : ∃ v ∈ [Value.integer 2, .integer 0], ∃ fault, p v = .error fault :=
      ⟨.integer 0, by simp, _, rfl⟩
    obtain ⟨_, _, _, _, fault, -, -, -, needy, -⟩ :=
      (iterators_cohere (fun _ => "") .bag [.integer 2, .integer 0] p).2.2 fails
    exact ⟨fault, needy .select (by simp)⟩

end Collection

end Metamorph
