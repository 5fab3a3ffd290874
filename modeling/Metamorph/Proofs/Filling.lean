import Metamorph.Proofs.Counterparts

/-! Bindings beside the table. What a binding comes to depends on the table alone, so that the assignments of
different applications may be made in any order. The last assignment to a feature of an object decides what
that feature has. -/
namespace Metamorph

variable {w : World} {v v' : Value}

theorem Environment.Matches.flip {env other : Environment} (found : env.Matches w other) :
    other.Matches w.flip env := by
  intro name
  have bound := found name
  generalize env.get? name = v, other.get? name = v' at bound ⊢
  cases bound with
  | none => exact .none
  | some first => exact .some first.flip

namespace Engine

theorem asFeatureValue_matches (found : v.Matches w v') :
    (asFeatureValue v).Matches w (asFeatureValue v') := by
  cases found using Value.Matches.cases with
  | collection kind items others alike => exact Value.matches_list.2 ⟨_, alike, rfl⟩
  | _ => assumption

theorem asMany_matches (found : v.Matches w v') : (Store.asMany v).Matches w (Store.asMany v') := by
  cases found using Value.Matches.cases with
  | list i items others alike => exact Value.matches_list.2 ⟨_, alike, rfl⟩
  | undefined => exact Value.matches_list.2 ⟨_, .nil, rfl⟩
  | _ => exact Value.matches_list.2 ⟨_, .cons ‹_› .nil, rfl⟩

/-- A feature stores matching values alike. -/
theorem stored_matches (cls : Metaclass) (feature : String) (found : v.Matches w v') :
    Brings (Value.Matches w) (Store.stored cls feature v) (Store.stored cls feature v') := by
  unfold Store.stored
  cases cls.feature? feature with
  | none => exact .error
  | some f =>
    refine .ite (.ok (asMany_matches found)) ?_
    cases found using Value.Matches.cases with
    | list i items => exact .error
    | _ => exact .ok ‹_›

open Run

variable {setting : Setting} {self : Evaluator} {s t u : Engine} {env : Environment}

/-- What is to be handed to a feature, of a value. -/
def handed (setting : Setting) (trace : Trace) (v : Value) : Result Value :=
  if setting.settings.implicitResolution then implicitTarget trace v else .ok v

theorem handed_matches {trace other : Trace} (alike : TraceAlike w trace other) (oneToOne : w.OneToOne)
    (found : v.Matches w v') :
    Brings (Value.Matches w) (handed setting trace v) (handed setting other v') :=
  .ite (alike.implicitTarget oneToOne found) (.ok found)

/-- An assignment of a value that was evaluated, which leaves nothing to be done again. -/
structure Assigned (setting : Setting) (h : Handle) (feature : String) (v : Value) (u t : Engine) :
    Prop where
  accepted : ∃ provider y store, u.ownerOf? (.object h) = some provider ∧
    handed setting u.trace v = .ok y ∧
    provider.assign u.store h feature (asFeatureValue y) = .ok store ∧ t.store = store
  settled : Settled u t
  attributes : t.attributes = u.attributes
  made : t.made = u.made

theorem assign_inverse {target x : Value} {feature : String}
    (ended : assign setting target feature v s = .value x t) : ∃ h provider y store,
      target = .object h ∧ s.ownerOf? (.object h) = some provider ∧
        handed setting s.trace v = .ok y ∧
          provider.assign s.store h feature (asFeatureValue y) = .ok store ∧ t = { s with store } := by
  obtain ⟨_, _, read, ended⟩ := bind_eq_value.1 ended
  obtain ⟨rfl, rfl⟩ := state_eq_value.1 read
  cases owned : s.ownerOf? target with
  | none => simp [owned, bind_eq_value] at ended
  | some provider =>
    cases target with
    | object h =>
      simp only [owned, bind_eq_value, ofResult_eq_value, collaborate_eq_value, modify_eq_value,
        pure_eq_value] at ended
      obtain ⟨y, _, ⟨resolved, rfl⟩, store, _, ⟨accepted, rfl⟩, _, _, rfl, rfl, rfl⟩ := ended
      exact ⟨h, provider, y, store, rfl, owned, resolved, accepted, rfl⟩
    | _ => simp [ownerOf?] at owned

/-- A binding that is evaluated without rules is assigned at once. -/
theorem applyBinding_assigned (quiet : ∀ env e, Keeps quieting (self env e)) {rule : String}
    {target : Value} {binding : Binding}
    (ended : applyBinding self setting rule target binding env true [] s = .value () t) :
    ∃ v u h, self env binding.value (opened {} s) = .value v u ∧ target = .object h ∧
      Assigned setting h binding.feature v u t := by
  obtain ⟨after, x, worked, ended⟩ := bind_eq_value.1 ended
  obtain ⟨stored, y, inside, rfl⟩ := working_eq_value.1 worked
  obtain ⟨⟨v, after⟩, z, framed, inside⟩ := bind_eq_value.1 inside
  obtain ⟨u, evaluated, rfl, rfl⟩ := inFrame_eq_value.1 framed
  simp only [bind_eq_value, modify_eq_value, pure_eq_value] at inside
  obtain ⟨_, _, rfl, stored, z, assigned, same, rfl⟩ := inside
  cases same
  obtain ⟨h, provider, y, store, rfl, owned, resolved, accepted, rfl⟩ := assign_inverse assigned
  have complete : (u.frames.head?.getD {}).sawIncomplete = false := by
    obtain ⟨_, _, _, _, _, _, _, _, _, rfl⟩ := (quiet env binding.value).value evaluated
    rfl
  rw [complete] at ended
  obtain ⟨-, rfl⟩ := pure_eq_value.1 ended
  exact ⟨v, u, h, evaluated, rfl, ⟨provider, y, store, owned, resolved, accepted, rfl⟩,
    ⟨rfl, rfl, rfl, rfl, rfl, rfl⟩, rfl, rfl⟩

theorem opened_still (s : Engine) : Still s (opened {} s) := ⟨rfl, rfl, rfl, rfl, rfl⟩

theorem opened_settled (s : Engine) : Settled s (opened {} s) := ⟨rfl, rfl, rfl, rfl, rfl, rfl⟩

theorem Assigned.backdrop {h : Handle} {feature : String} {v : Value}
    (assigned : Assigned setting h feature v u t) : Backdrop u t := by
  obtain ⟨provider, y, store, owned, -, accepted, rfl⟩ := assigned.accepted
  obtain ⟨cls, values, x, known, -, changed, others⟩ := Store.entities_set (refuse_eq_ok accepted)
  refine ⟨assigned.settled.owners, assigned.settled.trace, fun {g} given => ?_, fun {g cls' values'} found => ?_⟩
  · refine others g fun same => ?_
    subst same
    simp [owns, owned] at given
  · by_cases same : h = g
    · subst same
      rw [known] at found
      cases found
      exact ⟨_, changed⟩
    · exact ⟨values', (others g same).trans found⟩

/-! What is assigned, at the table. -/

/-- A binding to be evaluated and assigned. -/
structure Errand where
  target : Value
  binding : Binding
  env : Environment

def Errand.isFor (e : Errand) (h : Handle) (feature : String) : Bool :=
  match e.target with
  | .object g => g == h && e.binding.feature == feature
  | _ => false

theorem Errand.isFor_iff {e : Errand} {h : Handle} {feature : String} :
    e.isFor h feature = true ↔ e.target = .object h ∧ e.binding.feature = feature := by
  unfold isFor
  cases e.target with
  | object g => simp
  | _ => simp

/-- The binding of the one errand is evaluated and assigned in the other one, too. -/
structure ErrandAlike (w : World) (e e' : Errand) : Prop where
  target : e.target.Matches w e'.target
  binding : e'.binding = e.binding
  env : e.env.Matches w e'.env

theorem ErrandAlike.within {w' : World} {e e' : Errand} (alike : ErrandAlike w e e')
    (within : w.Within w') : ErrandAlike w' e e' :=
  ⟨alike.target.within within, alike.binding, alike.env.within within⟩

variable {core b : Engine} {entries : List Entry} {base m : Identity} {w' : World}

/-- At the table, what the feature has of the binding that is evaluated and assigned. -/
def Deposits (setting : Setting) (core : Engine) (entries : List Entry) (m : Identity) (e : Errand)
    (x : Value) : Prop :=
  ∃ depth v k y h provider cls,
    watchedWithin setting.shut depth e.env e.binding.value (core.holding entries m) = .value v k ∧
    handed setting core.trace v = .ok y ∧ e.target = .object h ∧
    core.ownerOf? (.object h) = some provider ∧ provider.refusals.assign = none ∧
    core.store.class? h = some cls ∧ Store.stored cls e.binding.feature (asFeatureValue y) = .ok x

theorem Deposits.unique {e : Errand} {x x' : Value} (first : Deposits setting core entries m e x)
    (again : Deposits setting core entries m e x') : x' = x := by
  obtain ⟨depth, v, k, y, h, _, cls, ended, resolved, object, -, -, known, kept⟩ := first
  obtain ⟨deeper, v', k', y', h', _, cls', ended', resolved', object', -, -, known', kept'⟩ := again
  have further (n : Nat) (more : n ≤ max depth deeper) :
      Run.Below (watchedWithin setting.shut n e.env e.binding.value)
        (watchedWithin setting.shut (max depth deeper) e.env e.binding.value) :=
    watchedWithin_mono setting.shut more _ _
  have same := ((further depth (Nat.le_max_left _ _)).value ended).symm.trans
    ((further deeper (Nat.le_max_right _ _)).value ended')
  cases same
  rw [resolved] at resolved'
  cases resolved'
  rw [object] at object'
  cases object'
  rw [known] at known'
  cases known'
  rw [kept] at kept'
  cases kept'
  rfl

/-! Where identities come from. Each assignment brings identities of its own; the worlds in which features
have the values of the table tell them apart. -/

/-- The world in which the feature of the object has its value is another one now. -/
def marking (mark : Handle → String → World) (h : Handle) (f : String) (w : World) :
    Handle → String → World :=
  fun g feature => if g = h ∧ feature = f then w else mark g feature

/-- Identities below the bound correspond as they do now, and others belong to one feature of one object. -/
structure Marks (m : Identity) (mark : Handle → String → World) (w : World) (made : Identity) : Prop where
  oneToOne : ∀ h f, (mark h f).OneToOne
  handles : ∀ h f, (mark h f).handles = w.handles
  low : ∀ {h f i j}, (mark h f).ids i j → i < m → w.ids i j
  apart : ∀ {h f i i' j}, (mark h f).ids i j → m ≤ i → ¬ w.ids i' j
  own : ∀ {h f g f' i i' j}, (mark h f).ids i j → (mark g f').ids i' j → m ≤ i → m ≤ i' →
    h = g ∧ f = f'
  right : ∀ {h f i j}, (mark h f).ids i j → j < made

theorem Beside.marks (beside : Beside core entries m w t) : Marks m (fun _ _ => w) w t.made where
  oneToOne _ _ := beside.shows.scene.oneToOne
  handles _ _ := rfl
  low paired _ := paired
  apart paired high := absurd (beside.low paired) (Nat.not_lt_of_le high)
  own paired _ high _ := absurd (beside.low paired) (Nat.not_lt_of_le high)
  right paired := beside.shows.right paired

theorem Marks.next {mark : Handle → String → World} (marks : Marks m mark w t.made)
    (beside : Beside core entries m w t) (grown : Grown w w' t u) (h : Handle) (f : String) :
    Marks m (marking mark h f w') (w'.restrict m) u.made where
  oneToOne g f' := by
    unfold marking
    split
    · exact grown.oneToOne
    · exact marks.oneToOne g f'
  handles g f' := by
    unfold marking
    split
    · rfl
    · exact (marks.handles g f').trans grown.handles.symm
  low {g f' i j} paired less := by
    unfold marking at paired
    split at paired
    · exact ⟨paired, less⟩
    · exact ⟨grown.within.ids (marks.low paired less), less⟩
  apart {g f' i i' j} paired high other := by
    unfold marking at paired
    split at paired
    · obtain rfl := (grown.oneToOne.ids paired other.1).2 rfl
      exact absurd other.2 (Nat.not_lt_of_le high)
    · rcases grown.since other.1 with known | later
      · exact marks.apart paired high known
      · exact absurd (marks.right paired) (Nat.not_lt_of_le later)
  own {g f' g' f'' i i' j} paired other high high' := by
    -- What the evaluation brought did not belong to anything before.
    have new {g f' i i' j} (paired : w'.ids i j) (high : m ≤ i) (other : (mark g f').ids i' j) : False := by
      rcases grown.since paired with known | later
      · exact absurd (beside.low known) (Nat.not_lt_of_le high)
      · exact absurd (marks.right other) (Nat.not_lt_of_le later)
    unfold marking at paired other
    split at paired <;> split at other
    · rename_i here there
      exact ⟨here.1.trans there.1.symm, here.2.trans there.2.symm⟩
    · exact (new paired high other).elim
    · exact (new other high' paired).elim
    · exact marks.own paired other high high'
  right {g f' i j} paired := by
    unfold marking at paired
    split at paired
    · exact grown.right paired
    · exact Nat.lt_of_lt_of_le (marks.right paired) grown.later

/-! What was filled in. -/

/-- The last errand for the feature of the object. -/
def last (done : List Errand) (h : Handle) (f : String) : Option Errand :=
  (done.filter (·.isFor h f)).getLast?

theorem last_concat (done : List Errand) (e : Errand) (h : Handle) (f : String) :
    last (done ++ [e]) h f = if e.isFor h f then some e else last done h f := by
  unfold last
  rw [List.filter_append, List.filter_singleton]
  cases e.isFor h f <;> simp

/-- Errands were done, since everything was created, in the engine beside the table. Features have the
values of the table, up to the identities that belong to them. -/
structure Filled (setting : Setting) (core : Engine) (entries : List Entry) (m : Identity)
    (H : Handle → Handle → Prop) (b : Engine) (done : List Errand) (mark : Handle → String → World)
    (w : World) (t : Engine) : Prop where
  beside : Beside core entries m w t
  handles : w.handles = H
  settled : Settled b t
  classes : ∀ k, t.store.class? k = b.store.class? k
  members : ∀ n, t.store.members n = b.store.members n
  marks : Marks m mark w t.made
  values : ∀ {h k f}, H h k → core.owns h = true → Option.Rel
    (fun e x' => ∃ x, Deposits setting core entries m e x ∧ x.Matches (mark h f) x')
    (last done h f) (t.store.value? k f)

variable {H : Handle → Handle → Prop} {done : List Errand} {mark : Handle → String → World}
  {e e' : Errand}

theorem Filled.start (beside : Beside core entries m w b) (handles : w.handles = H)
    (blank : ∀ {h k f}, H h k → core.owns h = true → b.store.value? k f = none) :
    Filled setting core entries m H b [] (fun _ _ => w) w b where
  beside := beside
  handles := handles
  settled := .refl b
  classes _ := rfl
  members _ := rfl
  marks := beside.marks
  values corresponds owned := by
    rw [blank corresponds owned]
    exact .none

theorem Filled.still (filled : Filled setting core entries m H b done mark w t) (still : Still t u)
    (settled : Settled t u) : Filled setting core entries m H b done mark w u where
  beside := filled.beside.still still
  handles := filled.handles
  settled := filled.settled.trans settled
  classes := by rw [still.store]; exact filled.classes
  members := by rw [still.store]; exact filled.members
  marks := by rw [still.made]; exact filled.marks
  values := by rw [still.store]; exact filled.values

/-- After one more errand. -/
theorem Filled.next (filled : Filled setting core entries m H b done mark w t) {h k : Handle}
    {v stored x x' : Value} (deposits : Deposits setting core entries m e x)
    (object : e.target = .object h) (corresponds : H h k) (grown : Grown w w' t s)
    (after : Beside core entries m (w'.restrict m) s) (quiet : Settled t s)
    (assigned : Assigned setting k e.binding.feature v s u)
    (accepted : t.store.set k e.binding.feature stored = .ok u.store)
    (holds : u.store.value? k e.binding.feature = some x') (found : x.Matches w' x') :
    Filled setting core entries m H b (done ++ [e]) (marking mark h e.binding.feature w')
      (w'.restrict m) u where
  beside := after.moved assigned.backdrop assigned.attributes assigned.made
  handles := grown.handles.trans filled.handles
  settled := (filled.settled.trans quiet).trans assigned.settled
  classes g := (Store.class?_set accepted g).trans (filled.classes g)
  members n := (Store.members_set accepted n).trans (filled.members n)
  marks := by
    rw [assigned.made]
    exact filled.marks.next filled.beside grown h _
  values {h' k' f} other owned := by
    have oneToOne {g g' : Handle} (paired : H g g') : h = g ↔ k = g' :=
      filled.beside.shows.scene.oneToOne.handles (filled.handles ▸ corresponds) (filled.handles ▸ paired)
    rw [last_concat]
    by_cases own : e.isFor h' f = true
    · obtain ⟨target, rfl⟩ := Errand.isFor_iff.1 own
      rw [object] at target
      cases target
      obtain rfl := (oneToOne other).1 rfl
      rw [if_pos own, holds]
      refine .some ⟨x, deposits, ?_⟩
      rw [marking, if_pos ⟨rfl, rfl⟩]
      exact found
    · have differ : ¬ (h' = h ∧ f = e.binding.feature) := by
        rintro ⟨rfl, rfl⟩
        exact own (Errand.isFor_iff.2 ⟨object, rfl⟩)
      have before : u.store.value? k' f = t.store.value? k' f := by
        refine Store.value?_set accepted ?_
        rintro ⟨rfl, rfl⟩
        exact differ ⟨((oneToOne other).2 rfl).symm, rfl⟩
      rw [if_neg own, before, marking, if_neg differ]
      exact filled.values other owned

theorem refuse_willing {α : Type} {refusal : Option Fault} {answer : Result α} {a : α}
    (answered : Provider.refuse refusal answer = .ok a) : refusal = none := by
  cases refusal with
  | none => rfl
  | some fault => cases answered

/-- An assignment that the engine makes leaves in the feature what is stored of the value. -/
theorem set_stored {store next : Store} {k : Handle} {cls : Metaclass} {f : String} {v : Value}
    (known : store.class? k = some cls) :
    store.set k f v = .ok next → ∃ x, Store.stored cls f v = .ok x ∧ next.value? k f = some x := by
  intro accepted
  obtain ⟨cls', values, x, entity, stored, changed, -⟩ := Store.entities_set accepted
  obtain ⟨values', found⟩ := Store.class?_eq_some.1 known
  rw [entity] at found
  cases found
  refine ⟨x, stored, ?_⟩
  rw [(Store.get_of_class changed f).1, Named.get?_set, if_pos rfl]

theorem Scene.class? {h k : Handle} (scene : Scene w s t) (paired : w.handles h k) {provider : Provider}
    (owned : s.ownerOf? (.object h) = some provider) :
    ∃ cls, s.store.class? h = some cls ∧ t.store.class? k = some cls := by
  rcases scene.object paired with given | ⟨_, cls, made⟩
  · rw [given.unowned] at owned
    cases owned
  · exact ⟨cls, Store.class?_eq_some.2 made.entity, Store.class?_eq_some.2 made.twinEntity⟩

section
variable (basis : Basis setting base core entries m)
  (told : ∀ w : World, w.handles = H → TraceAlike w core.trace b.trace)
include basis told

/-- What the engine assigns it assigns at the table. -/
theorem Filled.raises (filled : Filled setting core entries m H b done mark w t)
    (alike : ErrandAlike w e e') {n : Nat} {rule : String}
    (ended : applyBinding (watchedWithin setting n) setting rule e'.target e'.binding e'.env true [] t =
      .value () u) :
    (∃ x, Deposits setting core entries m e x) ∧
      ∃ mark w, Filled setting core entries m H b (done ++ [e]) mark w u := by
  have quiet := basis.innocent.watched_quiet n
  obtain ⟨v', s, k, evaluated, object', assigned⟩ := applyBinding_assigned quiet ended
  have beside := filled.beside.still (opened_still t)
  have following := raising basis.innocent basis.closed basis.table basis.full n
    ⟨(w, opened {} t), beside.familiar, beside.resolves⟩
  obtain ⟨v, k₀, w', grown, found, after, depth, goes⟩ := basis.raised beside
    (following.expression (w := w.flip) e'.binding.value alike.env.flip) evaluated
  have grown : Grown w w' t s :=
    ⟨grown.within, grown.oneToOne, grown.handles, grown.since, grown.right, grown.later⟩
  have settled : Settled t s := (opened_settled t).trans ((quiet _ _).value evaluated).settled
  have same : s.store = t.store := by
    obtain ⟨_, _, _, _, _, _, _, _, _, rfl⟩ := (quiet _ _).value evaluated
    rfl
  have target := alike.target.flip
  rw [object'] at target
  obtain ⟨h, corresponds, object⟩ := Value.matches_object.1 target
  obtain ⟨provider, y', store, owner', resolved', accepted, kept⟩ := assigned.accepted
  -- The same object, of the same class, is assigned to at the table.
  have scene := after.shows.scene
  have here : (w'.restrict m).handles h k := grown.within.handles corresponds
  have owner := (scene.ownerOf? (Value.matches_object.2 ⟨k, here, rfl⟩)).symm.trans owner'
  obtain ⟨cls, known, known'⟩ := scene.class? here owner
  -- What is handed to it matches, and is stored alike.
  have trace := settled.trace.trans filled.settled.trace
  rw [trace] at resolved'
  have alikeTraces := (told w' (grown.handles.trans filled.handles)).flip
  obtain ⟨y, resolved, matched⟩ :=
    handed_matches alikeTraces grown.oneToOne.flip found y' resolved'
  obtain ⟨x', stored', holds⟩ := set_stored known' (refuse_eq_ok accepted)
  obtain ⟨x, stored, like⟩ := stored_matches cls _ (asFeatureValue_matches matched) x' stored'
  rw [alike.binding] at goes stored assigned holds accepted
  have deposits : Deposits setting core entries m e x := ⟨depth, v, k₀, y, h, provider, cls, goes,
    resolved, object, owner, refuse_willing accepted, known, stored⟩
  rw [← kept] at accepted holds
  refine ⟨⟨x, deposits⟩, _, _, filled.next deposits object (filled.handles ▸ corresponds) grown after
    settled assigned (same ▸ refuse_eq_ok accepted) holds like.flip⟩

/-- What is assigned at the table the engine assigns. -/
theorem Filled.lowers (filled : Filled setting core entries m H b done mark w t)
    (alike : ErrandAlike w e e') {x : Value} (deposits : Deposits setting core entries m e x)
    (rule : String) : ∃ u, Deep fun n =>
      applyBinding (watchedWithin setting n) setting rule e'.target e'.binding e'.env true [] t =
        .value () u := by
  obtain ⟨depth, v, k₀, y, h, provider, cls, goes, resolved, object, owner, willing, known, stored⟩ :=
    deposits
  have following := lowering basis.innocent basis.closed basis.table depth (w, opened {} t)
  obtain ⟨v', s, w', grown, found, after, enough, goes'⟩ := basis.lowered
    (filled.beside.still (opened_still t)) (following.expression e.binding.value alike.env) goes
  have quiet : Quiet (opened {} t) s :=
    (basis.innocent.watched_quiet enough _ _).value (goes' enough le_rfl)
  have settled : Settled t s := (opened_settled t).trans quiet.settled
  have target := alike.target
  rw [object] at target
  obtain ⟨k, corresponds, object'⟩ := Value.matches_object.1 target
  have scene := after.shows.scene
  have here : (w'.restrict m).handles h k := grown.within.handles corresponds
  have owner' := (scene.ownerOf? (Value.matches_object.2 ⟨k, here, rfl⟩)).trans owner
  obtain ⟨cls', known', twin⟩ := scene.class? here owner
  rw [known] at known'
  cases known'
  have trace := settled.trace.trans filled.settled.trace
  have alikeTraces := told w' (grown.handles.trans filled.handles)
  obtain ⟨y', resolved', matched⟩ := handed_matches alikeTraces grown.oneToOne found y resolved
  rw [← trace] at resolved'
  obtain ⟨x', stored', -⟩ := stored_matches cls _ (asFeatureValue_matches matched) x stored
  obtain ⟨store, accepted⟩ := Store.set_goes twin stored'
  have accepts : provider.assign s.store k e.binding.feature (asFeatureValue y') = .ok store := by
    unfold Provider.assign Provider.refuse
    rw [willing]
    exact accepted
  rw [object', alike.binding]
  exact ⟨_, enough, fun n deep => applyBinding_value (goes' n deep) owner' resolved' accepts⟩

end

/-! Errands one after the other. -/

/-- The runs do the errands. They come to an end, if they may go deep enough, just when all that is to be
assigned can be at the table. -/
structure Carries (setting : Setting) (core : Engine) (entries : List Entry) (m : Identity)
    (H : Handle → Handle → Prop) (b : Engine) (es : List Errand) (runs : Nat → Run Engine Unit) : Prop where
  raises : ∀ {done mark w t n u}, Filled setting core entries m H b done mark w t →
    runs n t = .value () u → (∀ e ∈ es, ∃ x, Deposits setting core entries m e x) ∧
      ∃ mark w, Filled setting core entries m H b (done ++ es) mark w u
  lowers : ∀ {done mark w t}, Filled setting core entries m H b done mark w t →
    (∀ e ∈ es, ∃ x, Deposits setting core entries m e x) → ∃ u, Deep fun n => runs n t = .value () u

namespace Carries
variable {es es' : List Errand} {runs runs' : Nat → Run Engine Unit}

theorem nothing : Carries setting core entries m H b [] fun _ => pure () where
  raises filled ended := by
    obtain ⟨-, rfl⟩ := pure_eq_value.1 ended
    exact ⟨List.forall_mem_nil _, _, _, by simpa using filled⟩
  lowers _ _ := ⟨_, .of_forall fun _ => rfl⟩

/-- What is only noted is no errand. -/
theorem noting (change : Engine → Engine) (still : ∀ s, Still s (change s))
    (settled : ∀ s, Settled s (change s)) :
    Carries setting core entries m H b [] fun _ => Run.modify change where
  raises filled ended := by
    obtain rfl := modify_eq_value.1 ended
    exact ⟨List.forall_mem_nil _, _, _, by simpa using filled.still (still _) (settled _)⟩
  lowers _ _ := ⟨_, .of_forall fun _ => rfl⟩

theorem andThen (first : Carries setting core entries m H b es runs)
    (rest : Carries setting core entries m H b es' runs') :
    Carries setting core entries m H b (es ++ es') fun n => runs n >>= fun _ => runs' n where
  raises filled ended := by
    obtain ⟨_, u, began, ended⟩ := bind_eq_value.1 ended
    obtain ⟨deposits, _, _, between⟩ := first.raises filled began
    obtain ⟨deposits', mark, w, after⟩ := rest.raises between ended
    exact ⟨List.forall_mem_append.2 ⟨deposits, deposits'⟩, mark, w, by simpa using after⟩
  lowers filled deposits := by
    obtain ⟨here, there⟩ := List.forall_mem_append.1 deposits
    obtain ⟨u, begins⟩ := first.lowers filled here
    obtain ⟨n, began⟩ := begins.exists
    obtain ⟨-, _, _, between⟩ := first.raises filled began
    obtain ⟨v, ends⟩ := rest.lowers between there
    exact ⟨v, (begins.both ends).imp fun n both => bind_eq_value.2 ⟨(), u, both.1, both.2⟩⟩

theorem nested (event : Option Unit → List Event → Event)
    (inner : Carries setting core entries m H b es runs) :
    Carries setting core entries m H b es fun n => nest event (runs n) where
  raises {done mark w t n u} filled ended := by
    obtain ⟨v, ran, rfl⟩ := nest_eq_telling.1 ended
    have unheard : Filled setting core entries m H b done mark w { t with history := [] } :=
      filled.still ⟨rfl, rfl, rfl, rfl, rfl⟩ ⟨rfl, rfl, rfl, rfl, rfl, rfl⟩
    obtain ⟨deposits, mark, w, after⟩ := inner.raises unheard ran
    exact ⟨deposits, mark, w, after.still ⟨rfl, rfl, rfl, rfl, rfl⟩ ⟨rfl, rfl, rfl, rfl, rfl, rfl⟩⟩
  lowers {done mark w t} filled deposits := by
    have unheard : Filled setting core entries m H b done mark w { t with history := [] } :=
      filled.still ⟨rfl, rfl, rfl, rfl, rfl⟩ ⟨rfl, rfl, rfl, rfl, rfl, rfl⟩
    obtain ⟨v, goes⟩ := inner.lowers unheard deposits
    exact ⟨_, goes.imp fun n ran => nest_eq_telling.2 ⟨v, ran, rfl⟩⟩

end Carries

/-- The errands of bindings of outputs. -/
def errandsFor (outputs : Outputs) (env : Environment) (patterns : List OutPattern) : List Errand :=
  patterns.flatMap fun out => out.bindings.map fun binding =>
    ⟨(outputs.get? out.name).getD .undefined, binding, env⟩

/-- The errands of an application for which there are objects. -/
def errands (setting : Setting) (c : Application × Outputs) : List Errand :=
  errandsFor c.2 (setting.rootEnvironment (Named.update [(c.1.rule.source.name, c.1.source)] c.2))
    c.1.rule.outputs

/-- The applications are of the same rule to matching sources, with matching outputs. -/
structure CreationAlike (w : World) (c d : Application × Outputs) : Prop where
  rule : d.1.rule = c.1.rule
  source : c.1.source.Matches w d.1.source
  outputs : NamedMatch w c.2 d.2

end Engine

/-- Only objects correspond. -/
def World.ofHandles (H : Handle → Handle → Prop) : World := ⟨fun _ _ => False, H⟩

namespace Engine
open Run
variable {setting : Setting} {core b : Engine} {entries : List Entry} {base m : Identity}
  {H : Handle → Handle → Prop} (basis : Basis setting base core entries m)
  (told : ∀ w : World, w.handles = H → TraceAlike w core.trace b.trace)
include basis told

theorem applyBindings_carries (rule : String) {target target' : Value} {env env' : Environment}
    (object : target.Matches (.ofHandles H) target') (bound : env.Matches (.ofHandles H) env')
    (bindings : List Binding) :
    Carries setting core entries m H b (bindings.map fun binding => ⟨target, binding, env⟩) fun n =>
      applyBindings (watchedWithin setting n) setting rule target' env' bindings := by
  induction bindings with
  | nil => exact .nothing
  | cons binding rest ih =>
    have alike : ErrandAlike (.ofHandles H) ⟨target, binding, env⟩ ⟨target', binding, env'⟩ :=
      ⟨object, rfl, bound⟩
    have within {done mark w t} (filled : Filled setting core entries m H b done mark w t) :
        (World.ofHandles H).Within w := ⟨False.elim, fun paired => filled.handles ▸ paired⟩
    have one : Carries setting core entries m H b [⟨target, binding, env⟩] fun n =>
        applyBinding (watchedWithin setting n) setting rule target' binding env' true [] :=
      { raises := fun filled ended => by
          obtain ⟨deposits, after⟩ := filled.raises basis told (alike.within (within filled)) ended
          exact ⟨List.forall_mem_singleton.2 deposits, after⟩
        lowers := fun filled deposits => by
          obtain ⟨x, here⟩ := List.forall_mem_singleton.1 deposits
          exact filled.lowers basis told (alike.within (within filled)) here rule }
    exact one.andThen ih

theorem fillOutputs_carries (rule : String) {outputs outputs' : Outputs} {env env' : Environment}
    (objects : NamedMatch (.ofHandles H) outputs outputs') (bound : env.Matches (.ofHandles H) env')
    (patterns : List OutPattern) :
    Carries setting core entries m H b (errandsFor outputs env patterns) fun n =>
      fillOutputs (watchedWithin setting n) setting rule outputs' env' patterns := by
  induction patterns with
  | nil => exact .nothing
  | cons out rest ih =>
    have object : ((outputs.get? out.name).getD .undefined).Matches (.ofHandles H)
        ((outputs'.get? out.name).getD .undefined) := by
      have found := objects.get? out.name
      generalize outputs.get? out.name = v, outputs'.get? out.name = v' at found
      cases found with
      | none => exact Value.matches_undefined.2 rfl
      | some found => exact found
    exact (applyBindings_carries basis told rule object bound out.bindings).andThen ih

/-- Filling in the objects of an application does its errands. -/
theorem fillApplication_carries {c d : Application × Outputs} (alike : CreationAlike (.ofHandles H) c d) :
    Carries setting core entries m H b (errands setting c) fun n =>
      fillApplication (watchedWithin setting n) setting d.1.rule.name d.1.rule.outputs d.2
        [(d.1.rule.source.name, d.1.source)] := by
  have scope : NamedMatch (.ofHandles H) (Named.update [(c.1.rule.source.name, c.1.source)] c.2)
      (Named.update [(c.1.rule.source.name, d.1.source)] d.2) :=
    .update (.cons ⟨rfl, alike.source⟩ .nil) alike.outputs
  have noted : Carries setting core entries m H b [] fun _ => Run.modify (noteRule c.1.rule.name) :=
    .noting _ (fun _ => ⟨rfl, rfl, rfl, rfl, rfl⟩) fun _ => ⟨rfl, rfl, rfl, rfl, rfl, rfl⟩
  rw [alike.rule]
  exact noted.andThen (fillOutputs_carries basis told _ alike.outputs
    ((SamePlan.refl setting).rootEnvironment_matches scope) c.1.rule.outputs)

theorem fillAll_carries {cs ds : List (Application × Outputs)}
    (alike : List.Forall₂ (CreationAlike (.ofHandles H)) cs ds) :
    Carries setting core entries m H b (cs.flatMap (errands setting)) fun n =>
      fillAll (watchedWithin setting n) setting ds := by
  induction alike with
  | nil => exact .nothing
  | cons here _ ih =>
    exact ((fillApplication_carries basis told here).nested _).andThen ih

end Engine
end Metamorph
