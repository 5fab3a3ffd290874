import Metamorph.Model.Navigator
import Metamorph.Proofs.Keys

/-! Values that are alike up to the names of things. Two values match if they are built alike from equal
parts, where objects and the identities of complex numbers may have other names in the one than in the
other. Where different things keep different names, matching values are equal to one another as their
counterparts are. -/
namespace Metamorph

/-- Which identities and which objects correspond. -/
structure World where
  ids : Identity → Identity → Prop
  handles : Handle → Handle → Prop

mutual

def Value.Matches (w : World) : Value → Value → Prop
  | .complex i re im, v => ∃ j, w.ids i j ∧ v = .complex j re im
  | .object h, v => ∃ k, w.handles h k ∧ v = .object k
  | .collection kind items, v => ∃ others, AllMatch w items others ∧ v = .collection kind others
  | .tuple fields, v => ∃ others, FieldsMatch w fields others ∧ v = .tuple others
  | .list i items, v => ∃ others, AllMatch w items others ∧ v = .list i others
  | u, v => v = u

def AllMatch (w : World) : List Value → List Value → Prop
  | [], others => others = []
  | v :: rest, others => ∃ u more, v.Matches w u ∧ AllMatch w rest more ∧ others = u :: more

def FieldsMatch (w : World) : List (String × Value) → List (String × Value) → Prop
  | [], others => others = []
  | (name, v) :: rest, others =>
    ∃ u more, v.Matches w u ∧ FieldsMatch w rest more ∧ others = (name, u) :: more

end

/-- Tables with the same names in the same order, and matching entries. -/
def NamedMatch (w : World) : Named Value → Named Value → Prop :=
  List.Forall₂ fun entry other => entry.1 = other.1 ∧ entry.2.Matches w other.2

variable {w : World}

theorem allMatch_iff {items others : List Value} :
    AllMatch w items others ↔ List.Forall₂ (Value.Matches w) items others := by
  induction items generalizing others with
  | nil => simp [AllMatch]
  | cons v rest ih =>
    rw [AllMatch]
    constructor
    · rintro ⟨u, more, first, remaining, rfl⟩
      exact .cons first (ih.1 remaining)
    · rintro (_ | ⟨first, remaining⟩)
      exact ⟨_, _, first, ih.2 remaining, rfl⟩

theorem fieldsMatch_iff {fields others : List (String × Value)} :
    FieldsMatch w fields others ↔ NamedMatch w fields others := by
  unfold NamedMatch
  induction fields generalizing others with
  | nil => simp [FieldsMatch]
  | cons field rest ih =>
    obtain ⟨name, v⟩ := field
    rw [FieldsMatch]
    constructor
    · rintro ⟨u, more, first, remaining, rfl⟩
      exact .cons ⟨rfl, first⟩ (ih.1 remaining)
    · rintro (_ | ⟨⟨named, first⟩, remaining⟩)
      exact ⟨_, _, first, ih.2 remaining, by simp at named; simp [named]⟩

namespace Value
variable {u v : Value}

/-- Neither an object nor a complex number, and without parts. -/
def isPlain : Value → Bool
  | .complex _ _ _ | .object _ | .collection _ _ | .tuple _ | .list _ _ => false
  | _ => true

/-! Matching values, form by form. -/

theorem matches_plain (plain : u.isPlain = true) : u.Matches w v ↔ v = u := by
  cases u <;> first | (simp [isPlain] at plain; done) | simp [Matches]

section
variable {b : Bool} {n : Int} {x : Float} {s : String} {name : Option String} {i : Identity}
  {re im : Float} {h : Handle} {kind : CollectionKind} {items : List Value}
  {fields : List (String × Value)}

@[simp] theorem matches_undefined : Matches w .undefined v ↔ v = .undefined := matches_plain rfl
@[simp] theorem matches_boolean : Matches w (.boolean b) v ↔ v = .boolean b := matches_plain rfl
@[simp] theorem matches_integer : Matches w (.integer n) v ↔ v = .integer n := matches_plain rfl
@[simp] theorem matches_real : Matches w (.real x) v ↔ v = .real x := matches_plain rfl
@[simp] theorem matches_string : Matches w (.string s) v ↔ v = .string s := matches_plain rfl
@[simp] theorem matches_type : Matches w (.type s) v ↔ v = .type s := matches_plain rfl
@[simp] theorem matches_thisModule : Matches w (.thisModule name) v ↔ v = .thisModule name :=
  matches_plain rfl
@[simp] theorem matches_complex :
    Matches w (.complex i re im) v ↔ ∃ j, w.ids i j ∧ v = .complex j re im := by rw [Matches]
@[simp] theorem matches_object : Matches w (.object h) v ↔ ∃ k, w.handles h k ∧ v = .object k := by
  rw [Matches]
@[simp] theorem matches_collection : Matches w (.collection kind items) v ↔
    ∃ others, List.Forall₂ (Matches w) items others ∧ v = .collection kind others := by
  simp [Matches, allMatch_iff]
@[simp] theorem matches_list : Matches w (.list i items) v ↔
    ∃ others, List.Forall₂ (Matches w) items others ∧ v = .list i others := by
  simp [Matches, allMatch_iff]
@[simp] theorem matches_tuple : Matches w (.tuple fields) v ↔
    ∃ others, NamedMatch w fields others ∧ v = .tuple others := by
  simp [Matches, fieldsMatch_iff]

end

/-- Matching values are of one form. -/
@[elab_as_elim]
theorem Matches.cases {motive : ∀ u v : Value, u.Matches w v → Prop}
    (undefined : ∀ found, motive .undefined .undefined found)
    (boolean : ∀ b found, motive (.boolean b) (.boolean b) found)
    (integer : ∀ n found, motive (.integer n) (.integer n) found)
    (real : ∀ x found, motive (.real x) (.real x) found)
    (complex : ∀ i j re im (_ : w.ids i j) found, motive (.complex i re im) (.complex j re im) found)
    (string : ∀ s found, motive (.string s) (.string s) found)
    (collection : ∀ kind items others (_ : List.Forall₂ (Matches w) items others) found,
      motive (.collection kind items) (.collection kind others) found)
    (tuple : ∀ fields others (_ : NamedMatch w fields others) found,
      motive (.tuple fields) (.tuple others) found)
    (type : ∀ name found, motive (.type name) (.type name) found)
    (list : ∀ i items others (_ : List.Forall₂ (Matches w) items others) found,
      motive (.list i items) (.list i others) found)
    (object : ∀ h k (_ : w.handles h k) found, motive (.object h) (.object k) found)
    (thisModule : ∀ name found, motive (.thisModule name) (.thisModule name) found)
    (found : u.Matches w v) : motive u v found := by
  cases u with
  | undefined =>
    obtain rfl := matches_undefined.1 found
    exact undefined found
  | boolean b =>
    obtain rfl := matches_boolean.1 found
    exact boolean b found
  | integer n =>
    obtain rfl := matches_integer.1 found
    exact integer n found
  | real x =>
    obtain rfl := matches_real.1 found
    exact real x found
  | complex i re im =>
    obtain ⟨j, paired, rfl⟩ := matches_complex.1 found
    exact complex i j re im paired found
  | string s =>
    obtain rfl := matches_string.1 found
    exact string s found
  | collection kind items =>
    obtain ⟨others, alike, rfl⟩ := matches_collection.1 found
    exact collection kind items others alike found
  | tuple fields =>
    obtain ⟨others, alike, rfl⟩ := matches_tuple.1 found
    exact tuple fields others alike found
  | type name =>
    obtain rfl := matches_type.1 found
    exact type name found
  | list i items =>
    obtain ⟨others, alike, rfl⟩ := matches_list.1 found
    exact list i items others alike found
  | object h =>
    obtain ⟨k, paired, rfl⟩ := matches_object.1 found
    exact object h k paired found
  | thisModule name =>
    obtain rfl := matches_thisModule.1 found
    exact thisModule name found

/-- What goes from the parts of matching values to the values. -/
structure Lifts (w : World) (P : Value → Value → Prop) : Prop where
  plain : ∀ {u}, isPlain u = true → P u u
  complex : ∀ {i j re im}, w.ids i j → P (.complex i re im) (.complex j re im)
  object : ∀ {h k}, w.handles h k → P (.object h) (.object k)
  collection : ∀ {kind items others}, List.Forall₂ (fun u v => Matches w u v ∧ P u v) items others →
    P (.collection kind items) (.collection kind others)
  tuple : ∀ {fields others : List (String × Value)}, List.Forall₂
    (fun field other => field.1 = other.1 ∧ Matches w field.2 other.2 ∧ P field.2 other.2)
      fields others → P (.tuple fields) (.tuple others)
  list : ∀ {i items others}, List.Forall₂ (fun u v => Matches w u v ∧ P u v) items others →
    P (.list i items) (.list i others)

mutual

theorem Lifts.matched {P : Value → Value → Prop} (lifts : Lifts w P) :
    ∀ {u v : Value}, u.Matches w v → P u v
  | .undefined, _, found | .boolean _, _, found | .integer _, _, found | .real _, _, found
  | .string _, _, found | .type _, _, found | .thisModule _, _, found => by
    obtain rfl := (matches_plain rfl).1 found
    exact lifts.plain rfl
  | .complex _ _ _, _, found => by
    obtain ⟨j, paired, rfl⟩ := matches_complex.1 found
    exact lifts.complex paired
  | .object _, _, found => by
    obtain ⟨k, paired, rfl⟩ := matches_object.1 found
    exact lifts.object paired
  | .collection _ items, _, found => by
    obtain ⟨others, paired, rfl⟩ := matches_collection.1 found
    exact lifts.collection (lifts.matched_all paired)
  | .tuple fields, _, found => by
    obtain ⟨others, paired, rfl⟩ := matches_tuple.1 found
    exact lifts.tuple (lifts.matched_fields paired)
  | .list _ items, _, found => by
    obtain ⟨others, paired, rfl⟩ := matches_list.1 found
    exact lifts.list (lifts.matched_all paired)

theorem Lifts.matched_all {P : Value → Value → Prop} (lifts : Lifts w P) :
    ∀ {items others : List Value}, List.Forall₂ (Matches w) items others →
      List.Forall₂ (fun u v => Matches w u v ∧ P u v) items others
  | [], _, .nil => .nil
  | _ :: _, _, .cons first rest => .cons ⟨first, lifts.matched first⟩ (lifts.matched_all rest)

theorem Lifts.matched_fields {P : Value → Value → Prop} (lifts : Lifts w P) :
    ∀ {fields others : List (String × Value)}, NamedMatch w fields others →
      List.Forall₂ (fun field other => field.1 = other.1 ∧ Matches w field.2 other.2 ∧
        P field.2 other.2) fields others
  | [], _, .nil => .nil
  | (_, _) :: _, _, .cons first rest =>
    .cons ⟨first.1, first.2, lifts.matched first.2⟩ (lifts.matched_fields rest)

end

end Value

/-! Worlds. -/
namespace World
variable {w w' x : World}

/-- What corresponds in the one world does in the other. -/
structure Within (w w' : World) : Prop where
  ids : ∀ {i j}, w.ids i j → w'.ids i j
  handles : ∀ {h k}, w.handles h k → w'.handles h k

theorem Within.refl (w : World) : w.Within w := ⟨id, id⟩

theorem Within.trans (first : w.Within w') (rest : w'.Within x) : w.Within x :=
  ⟨fun paired => rest.ids (first.ids paired), fun paired => rest.handles (first.handles paired)⟩

/-- The two sides exchanged. -/
def flip (w : World) : World := ⟨fun i j => w.ids j i, fun h k => w.handles k h⟩

/-- By way of what stands between. -/
def through (w w' : World) : World where
  ids i j := ∃ l, w.ids i l ∧ w'.ids l j
  handles h k := ∃ l, w.handles h l ∧ w'.handles l k

/-- Different things correspond to different things. -/
structure OneToOne (w : World) : Prop where
  ids : ∀ {i j i' j'}, w.ids i j → w.ids i' j' → (i = i' ↔ j = j')
  handles : ∀ {h k h' k'}, w.handles h k → w.handles h' k' → (h = h' ↔ k = k')

theorem OneToOne.flip (oneToOne : w.OneToOne) : w.flip.OneToOne :=
  ⟨fun paired other => (oneToOne.ids paired other).symm,
    fun paired other => (oneToOne.handles paired other).symm⟩

end World

namespace Value
variable {w' : World} {u v x : Value}

theorem Matches.within (found : u.Matches w v) (within : w.Within w') : u.Matches w' v := by
  refine Lifts.matched (w := w) (P := fun u v => Matches w' u v) ?_ found
  exact {
    plain := fun plain => (matches_plain plain).2 rfl
    complex := fun paired => matches_complex.2 ⟨_, within.ids paired, rfl⟩
    object := fun paired => matches_object.2 ⟨_, within.handles paired, rfl⟩
    collection := fun paired => matches_collection.2 ⟨_, paired.imp fun _ _ both => both.2, rfl⟩
    tuple := fun paired => matches_tuple.2
      ⟨_, paired.imp fun _ _ both => ⟨both.1, both.2.2⟩, rfl⟩
    list := fun paired => matches_list.2 ⟨_, paired.imp fun _ _ both => both.2, rfl⟩ }

theorem Matches.flip (found : u.Matches w v) : v.Matches w.flip u := by
  refine Lifts.matched (w := w) (P := fun u v => Matches w.flip v u) ?_ found
  exact {
    plain := fun plain => (matches_plain plain).2 rfl
    complex := fun paired => matches_complex.2 ⟨_, paired, rfl⟩
    object := fun paired => matches_object.2 ⟨_, paired, rfl⟩
    collection := fun paired => matches_collection.2
      ⟨_, (paired.imp fun _ _ both => both.2).flip, rfl⟩
    tuple := fun paired => matches_tuple.2
      ⟨_, (paired.imp fun _ _ both => ⟨both.1.symm, both.2.2⟩).flip, rfl⟩
    list := fun paired => matches_list.2 ⟨_, (paired.imp fun _ _ both => both.2).flip, rfl⟩ }

theorem Matches.through (found : u.Matches w v) (further : v.Matches w' x) :
    u.Matches (w.through w') x := by
  have pairwise {items others more : List Value} (first : List.Forall₂
      (fun u v => Matches w u v ∧ ∀ x, Matches w' v x → Matches (w.through w') u x) items others)
      (rest : List.Forall₂ (Matches w') others more) :
      List.Forall₂ (Matches (w.through w')) items more := by
    induction first generalizing more with
    | nil =>
      cases rest
      exact .nil
    | cons both _ ih =>
      cases rest with
      | cons next remaining => exact .cons (both.2 _ next) (ih remaining)
  refine Lifts.matched (w := w)
    (P := fun u v => ∀ x, Matches w' v x → Matches (w.through w') u x) ?_ found x further
  exact {
    plain := fun plain x next => by
      obtain rfl := (matches_plain plain).1 next
      exact (matches_plain plain).2 rfl
    complex := fun paired x next => by
      obtain ⟨j, other, rfl⟩ := matches_complex.1 next
      exact matches_complex.2 ⟨j, ⟨_, paired, other⟩, rfl⟩
    object := fun paired x next => by
      obtain ⟨k, other, rfl⟩ := matches_object.1 next
      exact matches_object.2 ⟨k, ⟨_, paired, other⟩, rfl⟩
    collection := fun paired x next => by
      obtain ⟨more, others, rfl⟩ := matches_collection.1 next
      exact matches_collection.2 ⟨more, pairwise paired others, rfl⟩
    tuple := fun {fields others} paired x next => by
      obtain ⟨more, further, rfl⟩ := matches_tuple.1 next
      refine matches_tuple.2 ⟨more, ?_, rfl⟩
      clear next
      unfold NamedMatch at further ⊢
      induction paired generalizing more with
      | nil =>
        cases further
        exact .nil
      | cons both _ ih =>
        cases further with
        | cons next remaining =>
          exact .cons ⟨both.1.trans next.1, both.2.2 _ next.2⟩ (ih _ remaining)
    list := fun paired x next => by
      obtain ⟨more, others, rfl⟩ := matches_list.1 next
      exact matches_list.2 ⟨more, pairwise paired others, rfl⟩ }

/-! What matching values have in common. -/

/-- What heeds neither names nor parts is the same for both. -/
theorem Matches.form {β : Type} {f : Value → β} (found : u.Matches w v)
    (complex : ∀ i j re im, f (.complex i re im) = f (.complex j re im))
    (object : ∀ h k, f (.object h) = f (.object k))
    (collection : ∀ kind items others, f (.collection kind items) = f (.collection kind others))
    (tuple : ∀ fields others, f (.tuple fields) = f (.tuple others))
    (list : ∀ i items others, f (.list i items) = f (.list i others)) : f v = f u :=
  Lifts.matched (w := w) (P := fun u v => f v = f u)
    { plain := fun _ => rfl
      complex := fun _ => complex _ _ _ _
      object := fun _ => object _ _
      collection := fun _ => collection _ _ _
      tuple := fun _ => tuple _ _
      list := fun _ => list _ _ _ } found

section
variable (found : u.Matches w v)
include found

theorem Matches.tags : v.tags = u.tags := by
  refine found.form ?_ ?_ (fun kind _ _ => ?_) ?_ ?_
  case refine_3 => cases kind <;> rfl
  all_goals intros; rfl

theorem Matches.builtinType? : v.builtinType? = u.builtinType? := by
  apply found.form <;> intros <;> rfl

theorem Matches.builtinAncestry? : v.builtinAncestry? = u.builtinAncestry? := by
  apply found.form <;> intros <;> rfl

theorem Matches.hostType? : v.hostType? = u.hostType? := by
  apply found.form <;> intros <;> rfl

theorem Matches.isNumber : v.isNumber = u.isNumber := by
  apply found.form <;> intros <;> rfl

theorem Matches.holds : v.holds = u.holds := by
  apply found.form <;> intros <;> rfl

/-- Numbers and texts match themselves only. -/
theorem Matches.eq_of_orderable (orderable : u.isOrderable = true) : v = u := by
  cases u <;> simp_all [isOrderable, Value.isNumber, Value.isString]

end

/-! Equality of keys. -/

theorem isPlain_of_tag {tag : Int} (plain : u.isPlain = true) (own : tag ∈ u.tags)
    (tagged : tag ∈ v.tags) : v.isPlain = true := by
  cases v with
  | collection kind items => cases kind <;> cases u <;> simp_all [Value.tags, Value.isPlain]
  | complex | object | tuple | list => cases u <;> simp_all [Value.tags, Value.isPlain]
  | _ => rfl

/-- The values are equal to any others exactly if their counterparts are. -/
def Agree (w : World) (u u' : Value) : Prop :=
  ∀ v v' : Value, v.Matches w v' → (u.key = v.key ↔ u'.key = v'.key)

section
variable {items items' others others' : List Value}

theorem map_key_iff (agree : List.Forall₂ (Agree w) items items')
    (found : List.Forall₂ (Matches w) others others') :
    items.map key = others.map key ↔ items'.map key = others'.map key := by
  induction agree generalizing others others' with
  | nil => cases found <;> simp
  | cons first _ ih =>
    cases found with
    | nil => simp
    | cons next remaining => simp [first _ _ next, ih remaining]

theorem Agree.mem_iff {u u' : Value} (agree : Agree w u u')
    (found : List.Forall₂ (Matches w) others others') :
    u.key ∈ others.map key ↔ u'.key ∈ others'.map key := by
  induction found with
  | nil => simp
  | cons first _ ih => simp only [List.map_cons, List.mem_cons, agree _ _ first, ih]

theorem Agree.count {u u' : Value} (agree : Agree w u u')
    (found : List.Forall₂ (Matches w) others others') :
    (others.map key).count u.key = (others'.map key).count u'.key := by
  induction found with
  | nil => rfl
  | @cons v v' _ _ first _ ih =>
    have same : v.key = u.key ↔ v'.key = u'.key := by rw [eq_comm, agree _ _ first, eq_comm]
    simp only [List.map_cons, List.count_cons, beq_iff_eq, same, ih]

theorem forall_mem_congr {P Q : Value → Prop}
    (related : List.Forall₂ (fun u v => P u ↔ Q v) items items') :
    (∀ u ∈ items, P u) ↔ ∀ v ∈ items', Q v := by
  induction related with
  | nil => simp
  | cons first _ ih => simp only [List.forall_mem_cons, first, ih]

/-- The counterparts of members, both ways. -/
theorem key_members_iff (agree : List.Forall₂ (Agree w) items items')
    (further : List.Forall₂ (Matches w) others others') :
    (∀ k, k ∈ items.map key ↔ k ∈ others.map key) ↔
      ∀ k, k ∈ items'.map key ↔ k ∈ others'.map key := by
  have split (items others : List Value) : (∀ k, k ∈ items.map key ↔ k ∈ others.map key) ↔
      (∀ u ∈ items, u.key ∈ others.map key) ∧ ∀ v ∈ others, ∃ u ∈ items, u.key = v.key := by
    simp only [List.mem_map]
    constructor
    · intro same
      exact ⟨fun u member => (same _).1 ⟨u, member, rfl⟩, fun v member => (same _).2 ⟨v, member, rfl⟩⟩
    · rintro ⟨first, second⟩ k
      constructor
      · rintro ⟨u, member, rfl⟩
        exact first u member
      · rintro ⟨v, member, rfl⟩
        exact second v member
  have covered {v v' : Value} (matched : v.Matches w v') :
      (∃ u ∈ items, u.key = v.key) ↔ ∃ u ∈ items', u.key = v'.key := by
    clear further
    induction agree with
    | nil => simp
    | cons first _ ih => simp [first _ _ matched, ih]
  rw [split, split]
  refine and_congr (forall_mem_congr ?_) (forall_mem_congr (further.imp fun _ _ => covered))
  exact agree.imp fun _ _ agree => agree.mem_iff further

theorem counts_iff {keys others : List Key} : (∀ k, keys.count k = others.count k) ↔
    (∀ k ∈ keys, keys.count k = others.count k) ∧ ∀ k ∈ others, k ∈ keys := by
  constructor
  · intro same
    refine ⟨fun k _ => same k, fun k member => ?_⟩
    rw [← List.count_pos_iff, same]
    exact List.count_pos_iff.2 member
  · rintro ⟨counted, covered⟩ k
    by_cases member : k ∈ keys
    · exact counted k member
    · rw [List.count_eq_zero_of_not_mem member,
        List.count_eq_zero_of_not_mem fun other => member (covered k other)]

/-- The counterparts of members, as often as they come. -/
theorem key_counts_iff (found : List.Forall₂ (Matches w) items items')
    (agree : List.Forall₂ (Agree w) items items') (further : List.Forall₂ (Matches w) others others') :
    (∀ k, (items.map key).count k = (others.map key).count k) ↔
      ∀ k, (items'.map key).count k = (others'.map key).count k := by
  have covered {v v' : Value} (matched : v.Matches w v') :
      v.key ∈ items.map key ↔ v'.key ∈ items'.map key := by
    clear found further
    induction agree with
    | nil => simp
    | cons first _ ih =>
      simp only [List.map_cons, List.mem_cons, ih, eq_comm (a := v.key), eq_comm (a := v'.key)]
      rw [first _ _ matched]
  rw [counts_iff, counts_iff]
  simp only [List.forall_mem_map]
  refine and_congr (forall_mem_congr ?_) (forall_mem_congr (further.imp fun _ _ => covered))
  exact agree.imp fun _ _ agree => by rw [agree.count found, agree.count further]

end

/-- It is enough to look at values of the same form. -/
theorem Agree.of_form {u u' : Value} (own : u.Matches w u') (alike : ∀ {v v' : Value} {tag},
    v.Matches w v' → tag ∈ u.tags → tag ∈ v.tags → (u.key = v.key ↔ u'.key = v'.key)) :
    Agree w u u' := by
  intro v v' found
  by_cases shared : ∃ tag, tag ∈ u.tags ∧ tag ∈ v.tags
  · obtain ⟨tag, first, second⟩ := shared
    exact alike found first second
  · refine iff_of_false (fun same => shared (tags_of_key same)) fun same => shared ?_
    rw [← own.tags, ← found.tags]
    exact tags_of_key same

theorem Agree.collection {kind : CollectionKind} {items items' : List Value}
    (found : List.Forall₂ (Matches w) items items') (agree : List.Forall₂ (Agree w) items items') :
    Agree w (.collection kind items) (.collection kind items') := by
  refine .of_form (matches_collection.2 ⟨_, found, rfl⟩) fun {v v' tag} matched own tagged => ?_
  obtain ⟨others, rfl⟩ : ∃ others, v = .collection kind others :=
    form_of_tag (by cases kind <;> exact own) tagged
  obtain ⟨others', further, rfl⟩ := matches_collection.1 matched
  cases kind with
  | sequence => rw [key_sequence_inj, key_sequence_inj, map_key_iff agree further]
  | orderedSet => rw [key_orderedSet_inj, key_orderedSet_inj, map_key_iff agree further]
  | set => rw [key_set_inj, key_set_inj, key_members_iff agree further]
  | bag => rw [key_bag_inj, key_bag_inj, key_counts_iff found agree further]

theorem Agree.tuple {fields fields' : List (String × Value)}
    (paired : List.Forall₂ (fun field other => field.1 = other.1 ∧ Matches w field.2 other.2 ∧
      Agree w field.2 other.2) fields fields') : Agree w (.tuple fields) (.tuple fields') := by
  refine .of_form (matches_tuple.2 ⟨_, paired.imp fun _ _ all => ⟨all.1, all.2.1⟩, rfl⟩)
    fun {v v' tag} matched own tagged => ?_
  cases v with
  | tuple others =>
    obtain ⟨others', further, rfl⟩ := matches_tuple.1 matched
    rw [key_tuple_inj, key_tuple_inj]
    clear matched own tagged
    induction paired generalizing others others' with
    | nil => cases further <;> simp
    | cons first _ ih =>
      cases further with
      | nil => simp
      | cons next remaining =>
        simp only [List.map_cons, List.cons.injEq, Prod.mk.injEq, first.1, next.1,
          first.2.2 _ _ next.2]
        exact and_congr_right fun _ => ih _ _ remaining
  | collection kind items => cases kind <;> simp_all [Value.tags]
  | _ => simp_all [Value.tags]

/-- Where different things keep different names, matching values are equal as their counterparts are. -/
theorem Matches.agree (oneToOne : w.OneToOne) {u u' : Value} (found : u.Matches w u') :
    Agree w u u' := by
  refine Lifts.matched (w := w) (P := Agree w) ?_ found
  exact {
    plain := fun {u} plain => .of_form ((matches_plain plain).2 rfl) fun matched own tagged => by
      rw [(matches_plain (isPlain_of_tag plain own tagged)).1 matched]
    complex := fun {i j re im} paired => by
      refine .of_form (matches_complex.2 ⟨_, paired, rfl⟩) fun {v v' tag} matched own tagged => ?_
      cases v with
      | complex i' _ _ =>
        obtain ⟨j', other, rfl⟩ := matches_complex.1 matched
        simpa [key] using oneToOne.ids paired other
      | collection kind items => cases kind <;> simp_all [Value.tags]
      | _ => simp_all [Value.tags]
    object := fun {h k} paired => by
      refine .of_form (matches_object.2 ⟨_, paired, rfl⟩) fun {v v' tag} matched own tagged => ?_
      cases v with
      | object h' =>
        obtain ⟨k', other, rfl⟩ := matches_object.1 matched
        simpa [key] using oneToOne.handles paired other
      | collection kind items => cases kind <;> simp_all [Value.tags]
      | _ => simp_all [Value.tags]
    collection := fun paired =>
      .collection (paired.imp fun _ _ both => both.1) (paired.imp fun _ _ both => both.2)
    tuple := fun paired => .tuple paired
    list := fun {i items others} paired => by
      refine .of_form (matches_list.2 ⟨_, paired.imp fun _ _ both => both.1, rfl⟩)
        fun {v v' tag} matched own tagged => ?_
      cases v with
      | list i' _ =>
        obtain ⟨_, -, rfl⟩ := matches_list.1 matched
        simp [key]
      | collection kind items => cases kind <;> simp_all [Value.tags]
      | _ => simp_all [Value.tags] }

theorem Matches.key_iff (oneToOne : w.OneToOne) {u u' v v' : Value} (first : u.Matches w u')
    (second : v.Matches w v') : u.key = v.key ↔ u'.key = v'.key :=
  first.agree oneToOne _ _ second

end Value

/-! The texts of values. -/

mutual

/-- Whether an object with the property occurs in the value. -/
def Value.mentions (p : Handle → Bool) : Value → Bool
  | .object h => p h
  | .collection _ items | .list _ items => anyMentions p items
  | .tuple fields => anyFieldMentions p fields
  | _ => false

def anyMentions (p : Handle → Bool) : List Value → Bool
  | [] => false
  | v :: rest => v.mentions p || anyMentions p rest

def anyFieldMentions (p : Handle → Bool) : List (String × Value) → Bool
  | [] => false
  | (_, v) :: rest => v.mentions p || anyFieldMentions p rest

end

section
variable {label label' : Handle → String} {p : Handle → Bool}

/-- The value has the same text as the other, if no object with the property occurs in it. -/
def SameText (label label' : Handle → String) (p : Handle → Bool) (u v : Value) : Prop :=
  u.isOverlong = v.isOverlong ∧
    (u.mentions p = false → ∀ cited, u.render label cited = v.render label' cited)

theorem sameText_all {items others : List Value}
    (same : List.Forall₂ (SameText label label' p) items others) :
    anyOverlong items = anyOverlong others ∧ (anyMentions p items = false → ∀ cited,
      renderAll label cited items = renderAll label' cited others) := by
  induction same with
  | nil => exact ⟨rfl, fun _ _ => rfl⟩
  | cons first _ ih =>
    refine ⟨by rw [anyOverlong, anyOverlong, first.1, ih.1], fun silent cited => ?_⟩
    rw [anyMentions, Bool.or_eq_false_iff] at silent
    rw [renderAll, renderAll, first.2 silent.1, ih.2 silent.2]

theorem sameText_fields {fields others : List (String × Value)}
    (same : List.Forall₂ (fun field other =>
      field.1 = other.1 ∧ SameText label label' p field.2 other.2) fields others) :
    anyFieldOverlong fields = anyFieldOverlong others ∧ (anyFieldMentions p fields = false →
      renderFields label fields = renderFields label' others) := by
  induction same with
  | nil => exact ⟨rfl, fun _ => rfl⟩
  | @cons field other _ _ first _ ih =>
    obtain ⟨name, v⟩ := field
    obtain ⟨_, u⟩ := other
    obtain ⟨rfl, first⟩ := first
    refine ⟨by rw [anyFieldOverlong, anyFieldOverlong, first.1, ih.1], fun silent => ?_⟩
    rw [anyFieldMentions, Bool.or_eq_false_iff] at silent
    rw [renderFields, renderFields, first.2 silent.1, ih.2 silent.2]

theorem Value.Matches.sameText {u v : Value} (found : u.Matches w v)
    (labels : ∀ {h k}, w.handles h k → p h = false → label h = label' k) :
    SameText label label' p u v := by
  refine Value.Lifts.matched (w := w) (P := SameText label label' p) ?_ found
  exact {
    plain := fun {u} plain => ⟨rfl, fun _ cited => by
      cases u <;> simp [Value.isPlain] at plain <;> simp [Value.render]⟩
    complex := fun _ => ⟨rfl, fun _ cited => by rw [Value.render, Value.render]⟩
    object := fun paired => ⟨rfl, fun silent cited => by
      rw [Value.mentions] at silent
      rw [Value.render, Value.render, labels paired silent]⟩
    collection := fun paired => by
      obtain ⟨overlong, text⟩ := sameText_all (paired.imp fun _ _ both => both.2)
      refine ⟨by rw [Value.isOverlong, Value.isOverlong, overlong], fun silent cited => ?_⟩
      rw [Value.mentions] at silent
      rw [Value.render, Value.render, text silent]
    tuple := fun paired => by
      obtain ⟨overlong, text⟩ := sameText_fields (paired.imp fun _ _ both => ⟨both.1, both.2.2⟩)
      refine ⟨by rw [Value.isOverlong, Value.isOverlong, overlong], fun silent cited => ?_⟩
      rw [Value.mentions] at silent
      rw [Value.render, Value.render, text silent]
    list := fun paired => by
      obtain ⟨overlong, text⟩ := sameText_all (paired.imp fun _ _ both => both.2)
      refine ⟨by rw [Value.isOverlong, Value.isOverlong, overlong], fun silent cited => ?_⟩
      rw [Value.mentions] at silent
      rw [Value.render, Value.render, text silent] }

end

end Metamorph
