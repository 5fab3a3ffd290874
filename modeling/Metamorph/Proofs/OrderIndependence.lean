import Metamorph.Proofs.ImplicitResolution
import Metamorph.Proofs.Rearrangement

/-! Runs of a transformation over models that list their objects in different orders. Where no rule is
called, and nothing is found out about target objects, both complete or neither does. They apply the same
rules to the same objects, and the objects that they create correspond, feature by feature. -/
namespace Metamorph

namespace Engine
open Run
variable {setting : Setting} {T : Transformation} {base m : Identity} {first s t x b other : Engine}
  {entries more : List Entry} {w : World}

/-! Filling in, in another order. -/

theorem Pristine.before {apps : List Application} (pristine : Pristine base s) (poised : Poised s apps x)
    (foundation : Foundation T x b) : Before s b where
  size := by
    rw [← poised.size]
    exact foundation.founded.enlarged.size
  unowned inside := foundation.stays (poised.size ▸ inside)
  nothing := pristine.unowned
  entity inside := by
    rw [foundation.entity (poised.size ▸ inside), poised.store]
  untold := pristine.untold

theorem Pristine.closedStore {apps : List Application} (pristine : Pristine base s)
    (poised : Poised s apps x) (closed : ClosedStore base s) : ClosedStore base x := by
  intro h feature v _ read
  rw [poised.store] at read
  rw [poised.size]
  exact closed pristine.unowned read

/-- What attributes came to when rules were picked they come to when everything is created. -/
theorem Basis.later {apps : List Application} (basis : Basis setting base s entries m)
    (pristine : Pristine base s) (poised : Poised s apps x) (foundation : Foundation T x b) :
    ∃ more m', Basis setting base b (more ++ entries) m' ∧ m ≤ m' ∧ ∀ e ∈ more, m ≤ e.lo := by
  have later := basis.table.later basis.innocent (pristine.before poised foundation) basis.closed
  obtain ⟨more, m', table, full, most, above⟩ := later.exists_full
  have closed : ClosedStore base b :=
    foundation.closedStore (pristine.closedStore poised basis.closed)
  exact ⟨more, m', ⟨basis.innocent, closed, table, full⟩, most, above⟩

theorem initializing_still (b : Engine) : Still b (initializing setting b) := by
  have still : Still b (closing setting .creation b) := closing_still .creation
  exact ⟨still.store, still.owners, still.trace, still.attributes, still.made⟩

theorem creating_still (a : Engine) : Still a (creating setting a) := by
  have still : Still a (closing setting .matching a) := closing_still .matching
  exact ⟨still.store, still.owners, still.trace, still.attributes, still.made⟩

/-- Nothing is filled in yet. -/
theorem Paired.filled (paired : Paired T first s other t)
    (beside : Beside s entries m (w.paired first s t) t) :
    Filled setting s entries m (pairing first.size s t) (initializing setting t) []
      (fun _ _ => w.paired first s t) (w.paired first s t) (initializing setting t) := by
  refine .start (beside.still (initializing_still t)) rfl fun {h k f} corresponds owned => ?_
  rw [(initializing_still t).store]
  rcases corresponds with ⟨rfl, inside⟩ | found
  · simp [owns, paired.left.stays inside] at owned
  · obtain ⟨-, -, provider, cls, -, blank⟩ := paired.made found
    rw [Store.value?, blank.entity]
    rfl

/-- The applications that are paired are filled in alike. -/
theorem Paired.creationAlike (paired : Paired T first s other t) {c d : Application × Outputs}
    (member : c ∈ creations s) (member' : d ∈ creations t) (same : pairOf d.1 = pairOf c.1) :
    CreationAlike (.ofHandles (pairing first.size s t)) c d where
  rule := congrArg Prod.fst same
  source := by
    obtain ⟨h, inside, object⟩ := paired.left.given c member
    have sources : d.1.source = c.1.source := congrArg Prod.snd same
    rw [sources, object]
    exact Value.matches_object.2 ⟨h, .inl ⟨rfl, inside⟩, rfl⟩
  outputs := paired.outputs (w := .ofHandles (pairing first.size s t)) .inr member member' same

/-- The applications of the first run, in the order of the other one. -/
theorem Paired.reordered (paired : Paired T first s other t) : ∃ cs, cs.Perm (creations s) ∧
    List.Forall₂ (CreationAlike (.ofHandles (pairing first.size s t))) cs (creations t) := by
  obtain ⟨cs, same, order⟩ := (congrFun₂ (List.eq_map_comp_perm
    fun c : Application × Outputs => pairOf c.1) _ _).mpr paired.pairs
  have own (cs : List (Application × Outputs)) :
      List.Forall₂ (fun pair c => pair = pairOf c.1) (cs.map fun c => pairOf c.1) cs :=
    List.forall₂_map_left_iff.2 (List.forall₂_same.2 fun _ _ => rfl)
  refine ⟨cs, order, (forall₂_join (own cs) (same ▸ own (creations t))).imp fun c d both => ?_⟩
  obtain ⟨member, member', _, rfl, pair⟩ := both
  exact paired.creationAlike (order.mem_iff.1 member) member' pair.symm

/-! The last errand. -/

/-- The order of lists does not matter where at most one of them is not empty. -/
theorem flatMap_rearranged {α β : Type} {f : α → List β} {xs ys : List α} (order : xs.Perm ys)
    (single : ys.Pairwise fun x y => f x = [] ∨ f y = []) : xs.flatMap f = ys.flatMap f := by
  induction order with
  | nil => rfl
  | cons x _ ih =>
    rw [List.flatMap_cons, List.flatMap_cons, ih (List.pairwise_cons.1 single).2]
  | swap x y rest =>
    simp only [List.flatMap_cons]
    rcases (List.pairwise_cons.1 single).1 y List.mem_cons_self with none | none <;> simp [none]
  | trans first _ ih ih' =>
    refine (ih ?_).trans (ih' single)
    exact (List.Perm.pairwise_iff (fun either => either.symm) ‹_›).2 single

/-- An errand for an object is one of the application that the object was created for. -/
theorem product_of_errand {c : Application × Outputs} {e : Errand} {h : Handle}
    (member : c ∈ creations t) (listed : e ∈ errands setting c) (target : e.target = .object h) :
    ∃ output, Product t c.1.rule c.1.source output h := by
  obtain ⟨out, -, listed⟩ := List.mem_flatMap.1 listed
  obtain ⟨binding, -, rfl⟩ := List.mem_map.1 listed
  refine ⟨out.name, c, member, rfl, Named.mem_of_get? ?_⟩
  cases found : c.2.get? out.name with
  | none => simp [found] at target
  | some v => simpa [found] using target

/-- All errands for an object are of one application. -/
theorem Foundation.errands_apart (foundation : Foundation T first t) (h : Handle) (f : String) :
    (creations t).Pairwise fun c d => (errands setting c).filter (·.isFor h f) = [] ∨
      (errands setting d).filter (·.isFor h f) = [] := by
  have distinct : (creations t).Nodup := .of_map _ foundation.apart
  refine distinct.pairwise_of_forall_ne fun c member d member' differ => ?_
  by_contra neither
  obtain ⟨some, some'⟩ := not_or.1 neither
  obtain ⟨e, filtered⟩ := List.exists_mem_of_ne_nil _ some
  obtain ⟨e', filtered'⟩ := List.exists_mem_of_ne_nil _ some'
  obtain ⟨listed, own⟩ := List.mem_filter.1 filtered
  obtain ⟨listed', own'⟩ := List.mem_filter.1 filtered'
  obtain ⟨output, product⟩ := product_of_errand member listed (Errand.isFor_iff.1 own).1
  obtain ⟨output', product'⟩ := product_of_errand member' listed' (Errand.isFor_iff.1 own').1
  obtain ⟨-, sources, -⟩ := foundation.determined product product'
  exact differ (foundation.once member member' (by rw [sources])).symm

theorem Foundation.last_rearranged (foundation : Foundation T first t)
    {cs : List (Application × Outputs)} (order : cs.Perm (creations t)) (h : Handle) (f : String) :
    last (cs.flatMap (errands setting)) h f = last ((creations t).flatMap (errands setting)) h f := by
  unfold last
  rw [List.filter_flatMap, List.filter_flatMap,
    flatMap_rearranged order (foundation.errands_apart h f)]

/-! What features have in both engines. -/

section
variable {mark mark' : Handle → String → World} {w' : World} {H : Handle → Handle → Prop}
  {made made' : Identity}

/-- The identities that stand for the same identity of the table in a feature of both engines. -/
def between (mark mark' : Handle → String → World) (H : Handle → Handle → Prop) : World where
  ids j j' := ∃ h f i, (mark h f).ids i j ∧ (mark' h f).ids i j'
  handles := H

theorem between_flip {j j' : Identity} (found : (between mark mark' H).ids j j') :
    (between mark' mark H).ids j' j := by
  obtain ⟨h, f, i, left, right⟩ := found
  exact ⟨h, f, i, right, left⟩

theorem Marks.between_unique (marks : Marks m mark w made) (marks' : Marks m mark' w' made')
    (oneToOne : w.OneToOne) (oneToOne' : w'.OneToOne) {j j' j'' : Identity}
    (here : (between mark mark' H).ids j j') (there : (between mark mark' H).ids j j'') : j' = j'' := by
  obtain ⟨h, f, i, left, right⟩ := here
  obtain ⟨g, f', i', left', right'⟩ := there
  by_cases low : i < m <;> by_cases low' : i' < m
  · have same := (oneToOne.ids (marks.low left low) (marks.low left' low')).2 rfl
    exact (oneToOne'.ids (marks'.low right low) (marks'.low right' low')).1 same
  · exact absurd (marks.low left low) (marks.apart left' (Nat.le_of_not_lt low'))
  · exact absurd (marks.low left' low') (marks.apart left (Nat.le_of_not_lt low))
  · obtain ⟨rfl, rfl⟩ := marks.own left left' (Nat.le_of_not_lt low) (Nat.le_of_not_lt low')
    have same := ((marks.oneToOne h f).ids left left').2 rfl
    exact ((marks'.oneToOne h f).ids right right').1 same

theorem Marks.between_oneToOne (marks : Marks m mark w made) (marks' : Marks m mark' w' made')
    (oneToOne : w.OneToOne) (oneToOne' : w'.OneToOne)
    (handles : ∀ {h k h' k'}, H h k → H h' k' → (h = h' ↔ k = k')) :
    (between mark mark' H).OneToOne where
  ids here there := by
    constructor
    · rintro rfl
      exact marks.between_unique marks' oneToOne oneToOne' here there
    · rintro rfl
      exact marks'.between_unique marks oneToOne' oneToOne (between_flip here) (between_flip there)
  handles := handles

/-- What matches the same of the table. -/
theorem between_matches {h : Handle} {f : String} {v x x' : Value}
    (stays : ∀ {g k}, (mark h f).handles g k → k = g) (handles : (mark' h f).handles = H)
    (found : v.Matches (mark h f) x) (found' : v.Matches (mark' h f) x') :
    x.Matches (between mark mark' H) x' := by
  refine (found.flip.through found').within ⟨?_, ?_⟩
  · rintro j j' ⟨i, left, right⟩
    exact ⟨h, f, i, left, right⟩
  · rintro g k ⟨l, left, right⟩
    obtain rfl := stays left
    exact handles ▸ right

end

/-! What both engines have in the end. -/

theorem counterparts_congr {u u' : Engine} (left : creations u = creations s)
    (right : creations u' = creations t) : Counterparts u u' = Counterparts s t := by
  unfold Counterparts Product
  rw [left, right]

variable {c : Engine} {H : Handle → Handle → Prop} {done : List Errand} {mark : Handle → String → World}

/-- Of what was created only features have changed. -/
structure Unchanged (b u : Engine) : Prop where
  schedule : u.schedule = b.schedule
  created : u.created = b.created
  owners : u.owners = b.owners
  classes : ∀ k, u.store.class? k = b.store.class? k
  members : ∀ n, u.store.members n = b.store.members n

theorem concluded_store (c : Engine) : (concluded setting c).store = c.store := by
  have last : Still _ (closing setting .resolution
    (enterPhase .resolution (closing setting .initialization c))) := closing_still .resolution
  exact last.store.trans (closing_still (s := c) .initialization).store

theorem Filled.unchanged
    (filled : Filled setting s entries m H (initializing setting b) done mark w c) :
    Unchanged b (concluded setting c) := by
  have first : Settled b (closing setting .creation b) := closing_settled .creation
  have third : Settled c (closing setting .initialization c) := closing_settled .initialization
  have last : Settled _ (closing setting .resolution
    (enterPhase .resolution (closing setting .initialization c))) := closing_settled .resolution
  have between := filled.settled
  exact {
    schedule := ((last.schedule.trans third.schedule).trans between.schedule).trans first.schedule
    created := ((last.created.trans third.created).trans between.created).trans first.created
    owners := ((last.owners.trans third.owners).trans between.owners).trans first.owners
    classes := fun k => by
      rw [concluded_store, filled.classes, (initializing_still b).store]
    members := fun n => by
      rw [concluded_store, filled.members, (initializing_still b).store] }

namespace Unchanged
variable {u : Engine} (unchanged : Unchanged b u)
include unchanged

theorem scheduled : scheduled u = Engine.scheduled b := by
  rw [Engine.scheduled, Engine.scheduled, unchanged.schedule]

theorem creations : creations u = Engine.creations b := by
  rw [Engine.creations, Engine.creations, unchanged.scheduled, unchanged.created]

theorem ownerOf? (v : Value) : u.ownerOf? v = b.ownerOf? v := by
  unfold Engine.ownerOf?
  rw [unchanged.owners]

theorem owns (h : Handle) : u.owns h = b.owns h := by
  unfold Engine.owns
  rw [unchanged.ownerOf?]

end Unchanged

/-- The engines have the same applications in their schedules, and corresponding objects. Objects that there
were before correspond to themselves, and each that was created for an output of a rule and a source to the
one that was created for them in the other engine. These are of the same class, are listed by the same
models and have matching values in all features. -/
structure Isomorphic (size : Nat) (u u' : Engine) (w : World) : Prop where
  scheduled : ((scheduled u').map pairOf).Perm ((scheduled u).map pairOf)
  oneToOne : w.OneToOne
  handles : w.handles = pairing size u u'
  total : ∀ {h}, u.owns h = true → ∃ k, Counterparts u u' h k
  onto : ∀ {k}, u'.owns k = true → ∃ h, Counterparts u u' h k
  given : ∀ {h : Handle}, h < size → u'.store.entities[h]? = u.store.entities[h]?
  owner : ∀ {h k}, w.handles h k → u'.ownerOf? (.object k) = u.ownerOf? (.object h)
  classes : ∀ {h k}, w.handles h k → u'.store.class? k = u.store.class? h
  members : ∀ {h k} n, w.handles h k → (k ∈ u'.store.members n ↔ h ∈ u.store.members n)
  inside : ∀ {h n}, h ∈ u.store.members n → h < size ∨ u.owns h = true
  inside' : ∀ {k n}, k ∈ u'.store.members n → k < size ∨ u'.owns k = true
  values : ∀ {h k}, Counterparts u u' h k → ∀ f,
    Option.Rel (Value.Matches w) (u.store.value? h f) (u'.store.value? k f)

namespace Foundation
variable (foundation : Foundation T first t)
include foundation

theorem listed (inside : ∀ {n h}, h ∈ first.store.members n → h < first.size) {n : Nat} {h : Handle}
    (member : h ∈ t.store.members n) : h < first.size ∨ t.owns h = true := by
  rcases foundation.founded.enlarged.members.1 member with before | ⟨-, -, provider, owner, -⟩
  · exact .inl (inside before)
  · refine .inr ?_
    rw [owns, owner]
    rfl

end Foundation

/-- Corresponding objects came from the same model, if from any, and are of the same class. -/
theorem Paired.origins (paired : Paired T first s other t) {h k : Handle}
    (corresponds : pairing first.size s t h k) :
    t.ownerOf? (.object k) = s.ownerOf? (.object h) ∧ t.store.class? k = s.store.class? h := by
  rcases corresponds with ⟨rfl, given⟩ | found
  · have given' : h < other.size := paired.size ▸ given
    rw [paired.left.stays given, paired.right.stays given', Store.class?, Store.class?,
      paired.left.entity given, paired.right.entity given', paired.entities given]
    exact ⟨rfl, rfl⟩
  · obtain ⟨-, -, provider, cls, left, right⟩ := paired.made found
    rw [left.owner, right.owner, Store.class?, Store.class?, left.entity, right.entity]
    exact ⟨rfl, rfl⟩

/-- Corresponding objects are listed by the same models. -/
theorem Paired.members (paired : Paired T first s other t) {n : Nat}
    (inside : ∀ {h}, h ∈ first.store.members n → h < first.size)
    (order : (other.store.members n).Perm (first.store.members n)) {h k : Handle}
    (corresponds : pairing first.size s t h k) : k ∈ t.store.members n ↔ h ∈ s.store.members n := by
  rw [paired.left.founded.enlarged.members, paired.right.founded.enlarged.members, order.mem_iff,
    paired.size]
  rcases corresponds with ⟨rfl, given⟩ | found
  · have older : ¬ first.size ≤ h := Nat.not_le_of_lt given
    simp [older]
  · obtain ⟨newer, newer', provider, cls, left, right⟩ := paired.made found
    rw [paired.size] at newer'
    have new : h ∉ first.store.members n := fun listed => Nat.not_lt_of_le newer (inside listed)
    have new' : k ∉ first.store.members n := fun listed => Nat.not_lt_of_le newer' (inside listed)
    have made : h < s.size := (Array.getElem?_eq_some_iff.1 left.entity).1
    have made' : k < t.size := (Array.getElem?_eq_some_iff.1 right.entity).1
    simp [new, new', newer, newer', made, made', left.owner, right.owner]

theorem Filled.given (filled : Filled setting s entries m H b done mark w c) {h : Handle}
    (corresponds : H h h) (unowned : s.ownerOf? (.object h) = none) :
    c.store.entities[h]? = s.store.entities[h]? := by
  rcases filled.beside.shows.scene.object (filled.handles ▸ corresponds) with given | ⟨_, _, made⟩
  · exact given.entity
  · rw [made.owner] at unowned
    cases unowned

/-- Nothing corresponds to anything else within one engine. -/
theorem Foundation.pairing_self (foundation : Foundation T first t) {h k : Handle}
    (corresponds : pairing first.size t t h k) : k = h := by
  rcases corresponds with ⟨same, -⟩ | found
  · exact same.symm
  · exact foundation.itself.right_unique found.self found

/-- Features of counterparts that the same errands were done for have matching values. -/
theorem Paired.values {c' : Engine} {w' : World} {mark' : Handle → String → World} {done' : List Errand}
    (paired : Paired T first s other t)
    (filled : Filled setting s entries m (pairing first.size s s) b done mark w c)
    (filled' : Filled setting s entries m (pairing first.size s t) x done' mark' w' c')
    {h k : Handle} (found : Counterparts s t h k) {f : String} (same : last done' h f = last done h f) :
    Option.Rel (Value.Matches (between mark mark' (pairing first.size s t))) (c.store.value? h f)
      (c'.store.value? k f) := by
  obtain ⟨-, -, provider, cls, blank, -⟩ := paired.made found
  have owned : s.owns h = true := by
    rw [owns, blank.owner]
    rfl
  have left := filled.values (f := f) (.inr found.self) owned
  have right := filled'.values (f := f) (.inr found) owned
  rw [same] at right
  generalize last done h f = e, c.store.value? h f = v, c'.store.value? k f = v' at left right ⊢
  cases left with
  | none =>
    cases right
    exact .none
  | some here =>
    obtain ⟨y, deposits, found⟩ := here
    cases right with
    | some there =>
    obtain ⟨y', deposits', found'⟩ := there
    obtain rfl := deposits.unique deposits'
    refine .some (between_matches (fun corresponds => ?_)
      ((filled'.marks.handles h f).trans filled'.handles) found found')
    rw [filled.marks.handles, filled.handles] at corresponds
    exact paired.left.pairing_self corresponds

theorem Paired.isomorphic {c' : Engine} {w' : World} {mark' : Handle → String → World}
    {cs : List (Application × Outputs)} (paired : Paired T first s other t)
    (inside : ∀ {n h}, h ∈ first.store.members n → h < first.size)
    (order : ∀ n, (other.store.members n).Perm (first.store.members n))
    (rearranged : cs.Perm (creations s))
    (filled : Filled setting s entries m (pairing first.size s s) (initializing setting s)
      ((creations s).flatMap (errands setting)) mark w c)
    (filled' : Filled setting s entries m (pairing first.size s t) (initializing setting t)
      (cs.flatMap (errands setting)) mark' w' c') :
    Isomorphic first.size (concluded setting c) (concluded setting c')
      (between mark mark' (pairing first.size s t)) := by
  have left := filled.unchanged
  have right := filled'.unchanged
  have counterparts := counterparts_congr left.creations right.creations
  have handles : pairing first.size (concluded setting c) (concluded setting c') =
      pairing first.size s t := by
    unfold pairing
    rw [counterparts]
  have stays {h : Handle} (given : h < first.size) : (concluded setting c).store.entities[h]? =
      s.store.entities[h]? ∧ (concluded setting c').store.entities[h]? = s.store.entities[h]? := by
    rw [concluded_store, concluded_store]
    exact ⟨filled.given (.inl ⟨rfl, given⟩) (paired.left.stays given),
      filled'.given (.inl ⟨rfl, given⟩) (paired.left.stays given)⟩
  have scene := filled'.beside.shows.scene
  exact {
    scheduled := by
      rw [left.scheduled, right.scheduled]
      exact paired.scheduled
    oneToOne := filled.marks.between_oneToOne filled'.marks filled.beside.shows.scene.oneToOne
      scene.oneToOne paired.oneToOne
    handles := handles.symm
    total := fun owned => by
      rw [counterparts]
      exact paired.total (paired.left.inside_of_owns (left.owns _ ▸ owned))
    onto := fun owned => by
      rw [counterparts]
      obtain ⟨h, found⟩ := paired.symm.total (paired.right.inside_of_owns (right.owns _ ▸ owned))
      exact ⟨h, found.symm⟩
    given := fun given => (stays given).2.trans (stays given).1.symm
    owner := fun corresponds => by
      rw [left.ownerOf?, right.ownerOf?]
      exact (paired.origins corresponds).1
    classes := fun corresponds => by
      rw [left.classes, right.classes]
      exact (paired.origins corresponds).2
    members := fun n corresponds => by
      rw [left.members, right.members]
      exact paired.members inside (order n) corresponds
    inside := fun member => by
      rw [left.members] at member
      rw [left.owns]
      exact paired.left.listed inside member
    inside' := fun {k n} member => by
      rw [right.members] at member
      rw [right.owns, ← paired.size]
      refine paired.right.listed (fun {n h} listed => ?_) member
      rw [paired.size]
      exact inside ((order n).mem_iff.1 listed)
    values := fun found f => by
      rw [concluded_store, concluded_store]
      rw [counterparts] at found
      exact paired.values filled filled' found (paired.left.last_rearranged rearranged _ f) }

/-! Both runs. -/

/-- What was filled in after everything was created in one order can be filled in after it was created in
another one, to the same effect. -/
theorem Basis.fills {w' : World} {n : Nat} (basis : Basis setting base s entries m)
    (paired : Paired T first s other t) (beside : Beside s entries m (w.paired first s s) s)
    (beside' : Beside s entries m (w'.paired first s t) t)
    (inside : ∀ {n h}, h ∈ first.store.members n → h < first.size)
    (order : ∀ n, (other.store.members n).Perm (first.store.members n))
    (ended : fillAll (watchedWithin setting n) setting (creations s) (initializing setting s) =
      .value () c) : Settled (initializing setting s) c ∧ ∃ c',
      (Deep fun n => fillAll (watchedWithin setting n) setting (creations t) (initializing setting t) =
        .value () c') ∧ Settled (initializing setting t) c' ∧
        ∃ w, Isomorphic first.size (concluded setting c) (concluded setting c') w := by
  have told {t other : Engine} (paired : Paired T first s other t) (w : World)
      (handles : w.handles = pairing first.size s t) :
      TraceAlike w s.trace (initializing setting t).trace := by
    rw [(initializing_still t).trace]
    exact paired.traces handles
  have itself := paired.left.itself
  have carries := fillAll_carries basis (told itself)
    (List.forall₂_same.2 fun c member => itself.creationAlike member member rfl)
  obtain ⟨deposits, mark, v, filled⟩ := carries.raises (itself.filled beside) ended
  obtain ⟨cs, rearranged, alike⟩ := paired.reordered
  have carries' := fillAll_carries basis (told paired) alike
  obtain ⟨c', goes⟩ := carries'.lowers (paired.filled beside') fun e member =>
    deposits e ((rearranged.flatMap_right _).mem_iff.1 member)
  obtain ⟨n', ended'⟩ := goes.exists
  obtain ⟨-, mark', v', filled'⟩ := carries'.raises (paired.filled beside') ended'
  exact ⟨filled.settled, c', goes, filled'.settled, _,
    paired.isomorphic inside order rearranged filled filled'⟩

theorem Poised.nothing {apps : List Application} (poised : Poised s apps x)
    (foundation : Foundation T x b) (settled : Settled (initializing setting b) c) : c.deferred = [] := by
  have closed : Settled b (closing setting .creation b) := closing_settled .creation
  calc c.deferred = (closing setting .creation b).deferred := settled.deferred
    _ = b.deferred := closed.deferred
    _ = x.deferred := foundation.founded.enlarged.deferred
    _ = [] := poised.deferred

/-- A run that completes without finding out about target objects completes so in whatever order objects
are listed, and to the same effect. -/
theorem completes_rearranged {s' u : Engine} {n bound : Nat} (innocent : Innocent setting)
    (first : Pristine base s) (second : Pristine base s') (rearranged : s.store.Rearranged s'.store)
    (whole : s.store.Whole base) (once : (T.sourceObjects s.store).Nodup)
    (ended : runWith (watchedWithin setting n) bound setting T s = .value () u) :
    ∃ u', Completes setting T s' u' ∧ ∃ w, Isomorphic s.size u u' w := by
  obtain ⟨a, b, c, stages, after⟩ := stages_of_runWith ended
  have start : Table setting base s [] base := .nil
  obtain ⟨more, m, table, full, -, above⟩ := start.exists_full
  rw [List.append_nil] at table full
  have basis : Basis setting base s more m := ⟨innocent, fun _ read => whole.closed read, table, full⟩
  -- Matching.
  obtain ⟨pick, w, prepared, a', w', prepared', matches'⟩ :=
    basis.prepares above first second rearranged whole stages.matched
  have poised : Poised s _ (creating setting a) := prepared.arranged.poised first
  have poised' : Poised s' _ (creating setting a') := prepared'.arranged.poised second
  -- Creation.
  obtain ⟨b', creates', foundation, paired⟩ :=
    prepared.creates prepared' first second rearranged whole once stages.created
  obtain ⟨further, m', basis', most, above'⟩ := basis.later first poised foundation
  have closed : ClosedStore base (creating setting a) := first.closedStore poised basis.closed
  have beside {s' a' b' : Engine} {w' : World} (prepared : Prepared T base s more m pick s' a' w')
      (paired : Paired T (creating setting a) b (creating setting a') b') :
      Beside b (further ++ more) m' (w'.paired (creating setting a) b b') b' := by
    have still : Still a' (creating setting a') := creating_still a'
    have later := prepared.beside.still still
    refine paired.beside closed basis'.table most above' later ?_ ?_
    · rw [poised.size]
      exact prepared.handles
    · rw [poised.size]
      exact prepared.within
  -- Filling in.
  have inside {n : Nat} {h : Handle} (listed : h ∈ (creating setting a).store.members n) :
      h < (creating setting a).size := by
    rw [poised.store] at listed
    rw [poised.size]
    exact whole.members listed
  have order (n : Nat) : ((creating setting a').store.members n).Perm
      ((creating setting a).store.members n) := by
    rw [poised.store, poised'.store]
    exact rearranged.members n
  obtain ⟨settled, c', fills', settled', v, isomorphic⟩ := basis'.fills paired
    (beside prepared foundation.itself) (beside prepared' paired) inside order stages.filled
  -- No binding waits.
  obtain ⟨enough, goes⟩ := matches'.both fills'
  obtain ⟨matched', filled'⟩ := goes (enough + 1) (Nat.le_succ enough)
  have stages' : Stages (watchedWithin setting (enough + 1)) setting T s' a' b' c' :=
    ⟨second.phase, matched', creates', filled'⟩
  have nothing' := poised'.nothing paired.right settled'
  rw [after (poised.nothing foundation settled), ← poised.size]
  refine ⟨_, completes_of_watched (stages'.runWith_value ?_ ?_ ?_ nothing'), v, isomorphic⟩
  · exact prepared'.arranged.phase
  · exact paired.right.founded.enlarged.phase
  · exact settled'.phase

end Engine

open Engine in
/-- Where the rules are matched rules, the native operations are pure, no object is listed twice, and no
guard, binding or helper asks for instances or reads a feature of a target object, it does not matter in
which order models list their objects: a transformation completes for both orders or for neither, and if it
does the schedules have the same applications and the models correspond. -/
theorem completes_in_any_order {setting : Setting} {T : Transformation} {store other : Store}
    {log log' : List LogRecord} {made : Identity} (innocent : Innocent setting)
    (whole : store.Whole made) (once : (T.sourceObjects store).Nodup)
    (rearranged : store.Rearranged other) (discreet : Discreet setting T { store, log, made })
    (discreet' : Discreet setting T { store := other, log := log', made }) :
    ((∃ u, Engine.Completes setting T { store, log, made } u) ↔
      ∃ u, Engine.Completes setting T { store := other, log := log', made } u) ∧
    ∀ u u', Engine.Completes setting T { store, log, made } u →
      Engine.Completes setting T { store := other, log := log', made } u' →
        ∃ w, Isomorphic store.entities.size u u' w := by
  have first := pristine_setUp store log made
  have second := pristine_setUp other log' made
  have back : (∃ u, Engine.Completes setting T { store := other, log := log', made } u) →
      ∃ u, Engine.Completes setting T { store, log, made } u := by
    rintro ⟨u, completes⟩
    obtain ⟨n, ended⟩ := discreet' u completes
    obtain ⟨u', completes', -⟩ := completes_rearranged innocent second first rearranged.symm
      (whole.rearranged rearranged) (once_rearranged rearranged once) ended
    exact ⟨u', completes'⟩
  have forth {u : Engine} (completes : Engine.Completes setting T { store, log, made } u) :
      ∃ u', Engine.Completes setting T { store := other, log := log', made } u' ∧
        ∃ w, Isomorphic store.entities.size u u' w := by
    obtain ⟨n, ended⟩ := discreet u completes
    exact completes_rearranged innocent first second rearranged whole once ended
  refine ⟨⟨fun ⟨u, completes⟩ => ?_, back⟩, fun u u' completes completes' => ?_⟩
  · obtain ⟨u', completes', -⟩ := forth completes
    exact ⟨u', completes'⟩
  · obtain ⟨v, also, isomorphic⟩ := forth completes
    rw [completes'.unique also]
    exact isomorphic

namespace Listing

/-- Two objects of the source have each other in a list. The model lists them in the given order. -/
def couple (order : List Handle) : Store where
  entities := #[.instance cls [("k", .listed [.object 1])], .instance cls [("k", .listed [.object 0])]]
  models := #[⟨"source", .ofClasses "M" [cls], order⟩, ⟨"target", .ofClasses "M" [cls], []⟩]

/-- Each target has the target of the other object, which may not be filled in yet. -/
def linked : Transformation := transformation (.navigation (.variable "x" {}) "k" {})

theorem linked_innocent : Engine.Innocent (Looping.settingOf linked) where
  lazy given := by
    cases given
    rfl
  called given := by
    cases given
    rfl
  natives known := by cases known

theorem couple_whole {order : List Handle} (inside : ∀ h ∈ order, h < 2) : (couple order).Whole 0 where
  members {n h} listed := by
    match n with
    | 0 => exact inside h listed
    | 1 => cases listed
    | n + 2 => cases listed
  closed {h feature v} read := by
    have listed (g : Handle) (values : Named Value) (only : values = [("k", .listed [.object g])])
        (given : g < 2) (read : Store.read cls values feature = .ok v) : v.ClosedBelow 0 2 := by
      unfold Store.read at read
      cases known : cls.feature? feature with
      | none => simp [known] at read
      | some f =>
        have member := List.mem_of_find?_eq_some ((Option.or_none).symm.trans known)
        have many : f.many = true := by
          simp only [List.reverse_cons, List.reverse_nil, List.nil_append, List.cons_append,
            List.mem_cons, List.not_mem_nil, or_false] at member
          rcases member with rfl | rfl <;> rfl
        simp only [known, many, only, Named.get?_cons, if_true, Except.ok.injEq] at read
        subst read
        split
        · exact Value.matches_list.2 ⟨_, .cons (Value.matches_object.2 ⟨g, ⟨rfl, given⟩, rfl⟩) .nil, rfl⟩
        · exact Value.matches_list.2 ⟨_, .nil, rfl⟩
    match h with
    | 0 => exact listed 1 _ rfl (by decide) read
    | 1 => exact listed 0 _ rfl (by decide) read
    | h + 2 => cases read

theorem couple_rearranged {order order' : List Handle} (rearranged : order'.Perm order) :
    (couple order).Rearranged (couple order') where
  entities := rfl
  models n := by
    match n with
    | 0 | 1 => rfl
    | n + 2 => rfl
  members n := by
    match n with
    | 0 => exact rearranged
    | 1 => exact .nil
    | n + 2 => exact .nil

end Listing

theorem completes_in_any_order_linked : ∃ u u' w,
    Engine.Completes (Looping.settingOf Listing.linked) Listing.linked
      { store := Listing.couple [0, 1] } u ∧
    Engine.Completes (Looping.settingOf Listing.linked) Listing.linked
      { store := Listing.couple [1, 0] } u' ∧
    Engine.Isomorphic 2 u u' w := by
  have discreet (order : List Handle) (passed : Looping.passes (fun _ => true)
      (Engine.runWith (Engine.watchedWithin (Looping.settingOf Listing.linked) 9) 9
        (Looping.settingOf Listing.linked) Listing.linked { store := Listing.couple order }) = true) :
      Engine.Discreet (Looping.settingOf Listing.linked) Listing.linked
          { store := Listing.couple order } ∧
        ∃ u, Engine.Completes (Looping.settingOf Listing.linked) Listing.linked
          { store := Listing.couple order } u := by
    obtain ⟨_, u, ended, -⟩ := Looping.of_passes passed
    exact ⟨Engine.discreet_of_watched ended, u, Engine.completes_of_watched ended⟩
  obtain ⟨first, u, completes⟩ := discreet [0, 1] (by decide +kernel)
  obtain ⟨second, -⟩ := discreet [1, 0] (by decide +kernel)
  obtain ⟨both, alike⟩ := completes_in_any_order Listing.linked_innocent
    (Listing.couple_whole (by decide)) (by decide +kernel)
    (Listing.couple_rearranged (List.Perm.swap 0 1 [])) first second
  obtain ⟨u', completes'⟩ := both.1 ⟨u, completes⟩
  obtain ⟨w, isomorphic⟩ := alike u u' completes completes'
  exact ⟨u, u', w, completes, completes', isomorphic⟩

end Metamorph
