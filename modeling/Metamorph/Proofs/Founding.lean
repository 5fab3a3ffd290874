import Metamorph.Proofs.Choosing
import Metamorph.Proofs.Coupling

/-! Creation by itself. Which model makes the object for an output, and of which class, is a matter of the
module and of what models there are. So the objects for a schedule can be made in any order if they can be
in one, and they are of the same models and classes. -/
namespace Metamorph

namespace Store
variable {store other next : Store} {model : Nat} {type : String} {cls : Metaclass}

/-- There are the same models, but for the objects that they list. -/
def SameModels (store other : Store) : Prop :=
  ∀ n : Nat, other.models[n]?.map (fun m => (m.name, m.metamodel)) =
    store.models[n]?.map fun m => (m.name, m.metamodel)

theorem SameModels.refl (store : Store) : SameModels store store := fun _ => rfl

theorem SameModels.symm (same : SameModels store other) : SameModels other store :=
  fun n => (same n).symm

theorem SameModels.trans (first : SameModels store next) (rest : SameModels next other) :
    SameModels store other :=
  fun n => (rest n).trans (first n)

/-- A model creates objects of the class when it is asked for the type. -/
def Creates (store : Store) (model : Nat) (type : String) (cls : Metaclass) : Prop :=
  ∃ m, store.models[model]? = some m ∧ creatable m type = .ok cls

theorem Creates.congr (creates : Creates store model type cls) (same : SameModels store other) :
    Creates other model type cls := by
  obtain ⟨m, known, fitting⟩ := creates
  have found := same model
  rw [known, Option.map_some, Option.map_eq_some_iff] at found
  obtain ⟨m', known', named⟩ := found
  obtain ⟨name, metamodel⟩ := Prod.mk.inj named
  refine ⟨m', known', ?_⟩
  unfold creatable at fitting ⊢
  rw [name, metamodel]
  exact fitting

theorem Creates.unique {cls' : Metaclass} (creates : Creates store model type cls)
    (again : Creates store model type cls') : cls' = cls := by
  obtain ⟨m, known, fitting⟩ := creates
  obtain ⟨m', known', fitting'⟩ := again
  rw [known] at known'
  cases known'
  rw [fitting] at fitting'
  cases fitting'
  rfl

theorem create_eq_ok_iff {h : Handle} :
    store.create model type = .ok (h, next) ↔ ∃ m cls, store.models[model]? = some m ∧
      creatable m type = .ok cls ∧ h = store.entities.size ∧
      next = { store with
        entities := store.entities.push (.instance cls [])
        models := store.models.set! model { m with members := m.members ++ [h] } } := by
  unfold create
  cases known : store.models[model]? with
  | none => simp
  | some m =>
    cases fitting : creatable m type with
    | error fault => simp [fitting, Except.map]
    | ok cls =>
      simp only [fitting, Except.map, Except.ok.injEq, add, Prod.mk.injEq, Option.some.injEq]
      constructor
      · rintro ⟨rfl, rfl⟩
        exact ⟨m, cls, rfl, fitting, rfl, rfl⟩
      · rintro ⟨_, _, rfl, fitting', rfl, rfl⟩
        rw [fitting] at fitting'
        cases fitting'
        exact ⟨rfl, rfl⟩

theorem sameModels_create {h : Handle} (created : store.create model type = .ok (h, next)) :
    SameModels store next := by
  obtain ⟨m, cls, known, -, -, rfl⟩ := create_eq_ok_iff.1 created
  intro n
  dsimp only
  rw [Array.set!_eq_setIfInBounds, Array.getElem?_setIfInBounds]
  obtain ⟨inside, found⟩ := Array.getElem?_eq_some_iff.1 known
  by_cases here : model = n
  · subst here
    simp [inside, found]
  · simp [here]

end Store

namespace Engine
open Run
variable {T : Transformation} {first s t u : Engine}

/-- For the type the provider is asked, and it makes objects of the class. -/
structure Supplies (T : Transformation) (store : Store) (type : String) (provider : Provider)
    (cls : Metaclass) : Prop where
  chosen : targetProvider T type = .ok provider
  willing : provider.refusals.create = none
  creates : store.Creates provider.model type cls

namespace Supplies
variable {store other : Store} {type : String} {provider provider' : Provider} {cls cls' : Metaclass}

theorem congr (supplies : Supplies T store type provider cls) (same : store.SameModels other) :
    Supplies T other type provider cls :=
  { supplies with creates := supplies.creates.congr same }

theorem unique (supplies : Supplies T store type provider cls)
    (again : Supplies T store type provider' cls') : provider' = provider ∧ cls' = cls := by
  have chosen := again.chosen
  rw [supplies.chosen] at chosen
  cases chosen
  exact ⟨rfl, supplies.creates.unique again.creates⟩

end Supplies

/-- The object came from the provider, is of the class and has no values yet. -/
structure Blank (t : Engine) (h : Handle) (provider : Provider) (cls : Metaclass) : Prop where
  owner : t.ownerOf? (.object h) = some provider
  entity : t.store.entities[h]? = some (.instance cls [])

/-- Objects were made, and listed by the models that they came from. -/
structure Enlarged (s t : Engine) : Prop where
  size : s.size ≤ t.size
  entity : ∀ {h : Handle}, h < s.size → t.store.entities[h]? = s.store.entities[h]?
  owner : ∀ {h}, h < s.size → t.ownerOf? (.object h) = s.ownerOf? (.object h)
  own : ∀ {h}, s.size ≤ h → h < t.size → ∃ provider cls, Blank t h provider cls
  beyond : ∀ {h}, t.size ≤ h → t.ownerOf? (.object h) = s.ownerOf? (.object h)
  members : ∀ {model h}, h ∈ t.store.members model ↔ h ∈ s.store.members model ∨
    s.size ≤ h ∧ h < t.size ∧ ∃ provider, t.ownerOf? (.object h) = some provider ∧ provider.model = model
  models : s.store.SameModels t.store
  attributes : t.attributes = s.attributes
  made : t.made = s.made
  phase : t.phase = s.phase
  schedule : t.schedule = s.schedule
  deferred : t.deferred = s.deferred

namespace Enlarged

theorem of_same (store : t.store = s.store) (owners : t.owners = s.owners)
    (attributes : t.attributes = s.attributes) (made : t.made = s.made) (phase : t.phase = s.phase)
    (schedule : t.schedule = s.schedule) (deferred : t.deferred = s.deferred) : Enlarged s t where
  size := by rw [Engine.size, Engine.size, store]
  entity _ := by rw [store]
  owner _ := by rw [ownerOf?, ownerOf?, owners]
  own older newer := by
    rw [Engine.size, store] at newer
    exact absurd newer (Nat.not_lt_of_le older)
  beyond _ := by rw [ownerOf?, ownerOf?, owners]
  members {model h} := by
    rw [store, Engine.size, Engine.size, store]
    exact ⟨.inl, fun listed => listed.elim id fun between => absurd between.2.1 (Nat.not_lt_of_le between.1)⟩
  models := store ▸ .refl _
  attributes := attributes
  made := made
  phase := phase
  schedule := schedule
  deferred := deferred

theorem refl (s : Engine) : Enlarged s s := of_same rfl rfl rfl rfl rfl rfl rfl

theorem blank (rest : Enlarged s t) {h : Handle} {provider : Provider} {cls : Metaclass}
    (blank : Blank s h provider cls) : Blank t h provider cls := by
  have inside : h < s.size := (Array.getElem?_eq_some_iff.1 blank.entity).1
  exact ⟨(rest.owner inside).trans blank.owner, (rest.entity inside).trans blank.entity⟩

theorem trans (first : Enlarged s t) (rest : Enlarged t u) : Enlarged s u where
  size := Nat.le_trans first.size rest.size
  entity inside := (rest.entity (Nat.lt_of_lt_of_le inside first.size)).trans (first.entity inside)
  owner inside := (rest.owner (Nat.lt_of_lt_of_le inside first.size)).trans (first.owner inside)
  own {h} older newer := by
    by_cases inside : h < t.size
    · obtain ⟨provider, cls, blank⟩ := first.own older inside
      exact ⟨provider, cls, rest.blank blank⟩
    · exact rest.own (Nat.le_of_not_lt inside) newer
  beyond outside := (rest.beyond outside).trans (first.beyond (Nat.le_trans rest.size outside))
  members {model h} := by
    rw [rest.members, first.members]
    constructor
    · rintro ((listed | ⟨older, inside, provider, owner, same⟩) | ⟨older, newer, found⟩)
      · exact .inl listed
      · exact .inr ⟨older, Nat.lt_of_lt_of_le inside rest.size, provider,
          (rest.owner inside).trans owner, same⟩
      · exact .inr ⟨Nat.le_trans first.size older, newer, found⟩
    · rintro (listed | ⟨older, newer, provider, owner, same⟩)
      · exact .inl (.inl listed)
      · by_cases inside : h < t.size
        · exact .inl (.inr ⟨older, inside, provider, (rest.owner inside).symm.trans owner, same⟩)
        · exact .inr ⟨Nat.le_of_not_lt inside, newer, provider, owner, same⟩
  models := first.models.trans rest.models
  attributes := rest.attributes.trans first.attributes
  made := rest.made.trans first.made
  phase := rest.phase.trans first.phase
  schedule := rest.schedule.trans first.schedule
  deferred := rest.deferred.trans first.deferred

theorem owning {provider : Provider} {type : String} {h : Handle} {store : Store}
    (created : s.store.create provider.model type = .ok (h, store)) :
    Enlarged s (owning h provider store s) := by
  obtain ⟨rfl, next⟩ := Store.size_create created
  obtain ⟨⟨cls, empty⟩, before⟩ := Store.entities_create created
  have owner {h : Handle} : (Engine.owning s.store.entities.size provider store s).ownerOf? (.object h) =
      if h = s.store.entities.size then some provider else s.ownerOf? (.object h) := by
    unfold ownerOf? Engine.owning
    dsimp only
    rw [List.lookup_cons]
    by_cases here : h = s.store.entities.size
    · simp [here]
    · simp [here, beq_false_of_ne here]
  have last {h : Nat} (older : s.store.entities.size ≤ h) (newer : h < store.entities.size) :
      h = s.store.entities.size := by omega
  exact {
    size := by
      change s.store.entities.size ≤ store.entities.size
      omega
    entity := fun inside => before _ inside
    owner := fun inside => owner.trans (if_neg (Nat.ne_of_lt inside))
    own := fun older newer => by
      obtain rfl := last older newer
      exact ⟨provider, cls, by rw [owner, if_pos rfl], empty⟩
    beyond := fun outside => by
      refine owner.trans (if_neg fun same => ?_)
      subst same
      exact absurd outside (Nat.not_le_of_lt (Nat.lt_of_lt_of_eq (Nat.lt_succ_self _) next.symm))
    members := by
      intro model h
      change h ∈ store.members model ↔ _
      rw [Store.members_create created, List.mem_append]
      refine or_congr Iff.rfl ⟨fun listed => ?_, fun ⟨older, newer, found⟩ => ?_⟩
      · split at listed
        · rename_i same
          obtain rfl := List.mem_singleton.1 listed
          refine ⟨le_rfl, ?_, provider, by rw [owner, if_pos rfl], same.symm⟩
          change _ < store.entities.size
          omega
        · cases listed
      · obtain rfl := last older newer
        obtain ⟨provider', known, same⟩ := found
        rw [owner, if_pos rfl] at known
        cases known
        rw [if_pos same.symm]
        exact List.mem_singleton_self _
    models := Store.sameModels_create created
    attributes := rfl
    made := rfl
    phase := rfl
    schedule := rfl
    deferred := rfl }

end Enlarged

/-! The objects for the outputs of a rule. -/

/-- What was made for an output. -/
def MadeFor (T : Transformation) (first t : Engine) (out : OutPattern) (entry : String × Value) : Prop :=
  entry.1 = out.name ∧ ∃ h provider cls, entry.2 = .object h ∧ first.size ≤ h ∧
    Supplies T first.store out.type provider cls ∧ Blank t h provider cls

theorem MadeFor.later {out : OutPattern} {entry : String × Value} (supplied : MadeFor T first s out entry)
    (rest : Enlarged s t) : MadeFor T first t out entry := by
  obtain ⟨name, h, provider, cls, object, newer, supplies, blank⟩ := supplied
  exact ⟨name, h, provider, cls, object, newer, supplies, rest.blank blank⟩

theorem makeTarget_supplied {out : OutPattern} {v : Value} (enlarged : Enlarged first s)
    (ended : makeTarget T out s = .value v t) :
    MadeFor T first t out (out.name, v) ∧ Enlarged s t := by
  simp only [makeTarget, bind_eq_value, ofResult_eq_value, state_eq_value, collaborate_eq_value,
    modify_eq_value, pure_eq_value] at ended
  obtain ⟨provider, _, ⟨chosen, rfl⟩, _, _, ⟨rfl, rfl⟩, ⟨h, store⟩, _, ⟨answered, rfl⟩, _, _, rfl,
    rfl, rfl⟩ := ended
  have created := refuse_eq_ok answered
  have willing : provider.refusals.create = none := by
    unfold Provider.create Provider.refuse at answered
    split at answered
    · cases answered
    · assumption
  have further : Enlarged s (owning h provider store s) := .owning created
  obtain ⟨m, cls, known, fitting, rfl, rfl⟩ := Store.create_eq_ok_iff.1 created
  refine ⟨⟨rfl, _, provider, cls, rfl, enlarged.size, ⟨chosen, willing, ?_⟩, ?_, ?_⟩, further⟩
  · exact Store.Creates.congr ⟨m, known, fitting⟩ enlarged.models.symm
  · simp [ownerOf?]
  · simp

theorem makeTarget_value {out : OutPattern} {provider : Provider} {h : Handle} {store : Store}
    (chosen : targetProvider T out.type = .ok provider) (willing : provider.refusals.create = none)
    (created : s.store.create provider.model out.type = .ok (h, store)) :
    makeTarget T out s = .value (.object h) (owning h provider store s) := by
  have accepted : provider.create s.store out.type = .ok (h, store) := by
    unfold Provider.create Provider.refuse
    rw [willing]
    exact created
  unfold makeTarget
  rw [bind_of_value (ofResult_eq_value.2 ⟨chosen, rfl⟩), state_bind,
    bind_of_value (collaborate_eq_value.2 ⟨accepted, rfl⟩)]
  rfl

theorem makeTarget_goes {out : OutPattern} {provider : Provider} {cls : Metaclass}
    (enlarged : Enlarged first s) (supplies : Supplies T first.store out.type provider cls) :
    ∃ v t, makeTarget T out s = .value v t := by
  obtain ⟨m, known, fitting⟩ := supplies.creates.congr enlarged.models
  exact ⟨_, _, makeTarget_value supplies.chosen supplies.willing
    (Store.create_eq_ok_iff.2 ⟨m, cls, known, fitting, rfl, rfl⟩)⟩

theorem makeTargets_supplied {patterns : List OutPattern} {outputs : Outputs}
    (enlarged : Enlarged first s) (ended : makeTargets T patterns s = .value outputs t) :
    List.Forall₂ (MadeFor T first t) patterns outputs ∧ Enlarged s t := by
  induction patterns generalizing s outputs with
  | nil =>
    obtain ⟨rfl, rfl⟩ := pure_eq_value.1 ended
    exact ⟨.nil, .refl s⟩
  | cons out rest ih =>
    obtain ⟨v, u, made, ended⟩ := bind_eq_value.1 ended
    obtain ⟨others, _, more, ended⟩ := bind_eq_value.1 ended
    obtain ⟨rfl, rfl⟩ := pure_eq_value.1 ended
    obtain ⟨here, larger⟩ := makeTarget_supplied enlarged made
    obtain ⟨supplied, further⟩ := ih (enlarged.trans larger) more
    exact ⟨.cons (here.later further) supplied, larger.trans further⟩

/-- Nothing else was made. -/
theorem makeTargets_covers {patterns : List OutPattern} {outputs : Outputs}
    (ended : makeTargets T patterns s = .value outputs t) {h : Nat} (older : s.size ≤ h)
    (newer : h < t.size) : ∃ entry ∈ outputs, entry.2 = .object h := by
  induction patterns generalizing s outputs with
  | nil =>
    obtain ⟨-, rfl⟩ := pure_eq_value.1 ended
    exact absurd newer (Nat.not_lt_of_le older)
  | cons out rest ih =>
    obtain ⟨v, u, made, ended⟩ := bind_eq_value.1 ended
    obtain ⟨others, _, more, ended⟩ := bind_eq_value.1 ended
    obtain ⟨rfl, rfl⟩ := pure_eq_value.1 ended
    obtain ⟨provider, g, store, -, created, rfl, rfl⟩ := makeTarget_eq_value made
    obtain ⟨rfl, next⟩ := Store.size_create created
    by_cases here : h = s.store.entities.size
    · subst here
      exact ⟨_, List.mem_cons_self, rfl⟩
    · have later : store.entities.size ≤ h := by
        have older : s.store.entities.size ≤ h := older
        omega
      obtain ⟨entry, member, object⟩ := ih more later
      exact ⟨entry, List.mem_cons_of_mem _ member, object⟩

theorem makeTargets_goes {patterns : List OutPattern} (enlarged : Enlarged first s)
    (supplies : ∀ out ∈ patterns, ∃ provider cls, Supplies T first.store out.type provider cls) :
    ∃ outputs t, makeTargets T patterns s = .value outputs t := by
  induction patterns generalizing s with
  | nil => exact ⟨_, _, rfl⟩
  | cons out rest ih =>
    obtain ⟨⟨provider, cls, here⟩, others⟩ := List.forall_mem_cons.1 supplies
    obtain ⟨v, u, made⟩ := makeTarget_goes enlarged here
    obtain ⟨-, larger⟩ := makeTarget_supplied enlarged made
    obtain ⟨outputs, t, more⟩ := ih (enlarged.trans larger) others
    exact ⟨_, _, bind_eq_value.2 ⟨v, u, made, bind_eq_value.2 ⟨outputs, t, more, rfl⟩⟩⟩

/-! The objects for a schedule. -/

/-- What was created for one more application, and is in the trace. -/
def recording (outputs : Outputs) (trace : Trace) (s : Engine) : Engine :=
  { s with trace, created := s.created ++ [outputs], matchedApplied := s.matchedApplied + 1 }

/-- The link that the trace has of an application. -/
structure Links (c : Application × Outputs) (link : TraceLink) : Prop where
  rule : link.rule = c.1.rule.name
  source : link.source = c.1.source
  kind : link.kind = .matched
  outputs : link.outputs = c.2

/-- What was created, since the first state, for applications. -/
structure Founded (T : Transformation) (first : Engine) (done : List (Application × Outputs))
    (t : Engine) : Prop where
  enlarged : Enlarged first t
  links : List.Forall₂ Links done t.trace.links
  supplied : ∀ c ∈ done, List.Forall₂ (MadeFor T first t) c.1.rule.outputs c.2
  created : t.created = done.map (·.2)
  distinct : ((done.flatMap (·.2)).map (·.2)).Nodup
  covered : ∀ {h}, first.size ≤ h → h < t.size → ∃ c ∈ done, ∃ entry ∈ c.2, entry.2 = .object h

theorem forall₂_right {α β : Type} {R : α → β → Prop} {xs : List α} {ys : List β}
    (related : List.Forall₂ R xs ys) {y : β} (member : y ∈ ys) : ∃ x ∈ xs, R x y := by
  induction related with
  | nil => cases member
  | cons here _ ih =>
    rcases List.mem_cons.1 member with rfl | later
    · exact ⟨_, List.mem_cons_self, here⟩
    · obtain ⟨x, inside, there⟩ := ih later
      exact ⟨x, List.mem_cons_of_mem _ inside, there⟩

namespace Founded
variable {done : List (Application × Outputs)}

theorem start (s : Engine) (untold : s.trace = {}) (nothing : s.created = []) :
    Founded T s [] s where
  enlarged := .refl s
  links := by rw [untold]; exact .nil
  supplied := List.forall_mem_nil _
  created := nothing
  distinct := .nil
  covered older newer := absurd newer (Nat.not_lt_of_le older)

/-- Each entry of the outputs is an object that was made for an output of the rule. -/
theorem entry (founded : Founded T first done t) {c : Application × Outputs} (member : c ∈ done)
    {entry : String × Value} (made : entry ∈ c.2) :
    ∃ out ∈ c.1.rule.outputs, MadeFor T first t out entry :=
  forall₂_right (founded.supplied c member) made

theorem noted (founded : Founded T first done s) (name : String) :
    Founded T first done (noteRule name s) :=
  have aside : Enlarged s (noteRule name s) := .of_same rfl rfl rfl rfl rfl rfl rfl
  { founded with
    enlarged := founded.enlarged.trans aside
    supplied := fun c member => (founded.supplied c member).imp fun _ _ supplied =>
      supplied.later aside }

theorem next {a : Application} {outputs : Outputs} {link : TraceLink} {trace : Trace}
    (founded : Founded T first done s)
    (ended : makeTargets T a.rule.outputs s = .value outputs u)
    (registered :
      u.trace.register u.store a.rule.name a.source outputs .matched = .ok (link, trace)) :
    Founded T first (done ++ [(a, outputs)]) (recording outputs trace u) := by
  obtain ⟨supplied, larger⟩ := makeTargets_supplied founded.enlarged ended
  have makes : Makes T s u := (makeTargets_keeps _).value ended
  have aside : Enlarged u (recording outputs trace u) := .of_same rfl rfl rfl rfl rfl rfl rfl
  have further := larger.trans aside
  exact {
    enlarged := founded.enlarged.trans further
    links := by
      change List.Forall₂ Links _ trace.links
      rw [Trace.links_of_register registered, makes.others.trace]
      exact List.rel_append founded.links (.cons ⟨rfl, rfl, rfl, rfl⟩ .nil)
    supplied := by
      rw [List.forall_mem_append]
      refine ⟨fun c member => (founded.supplied c member).imp fun _ _ supplied =>
        supplied.later further, ?_⟩
      rw [List.forall_mem_singleton]
      exact supplied.imp fun _ _ supplied => supplied.later aside
    created := by
      change u.created ++ [outputs] = _
      rw [makes.others.created, founded.created, List.map_append]
      rfl
    distinct := by
      rw [List.flatMap_append, List.flatMap_singleton]
      refine (makeTargets_fresh ended).1.distinct_append founded.distinct fun entry member => ?_
      obtain ⟨c, listed, inside⟩ := List.mem_flatMap.1 member
      obtain ⟨_, -, -, h, _, _, object, -, -, blank⟩ := founded.entry listed inside
      exact ⟨h, object, (Array.getElem?_eq_some_iff.1 blank.entity).1⟩
    covered := fun {h} older newer => by
      by_cases inside : h < s.size
      · obtain ⟨c, member, found⟩ := founded.covered older inside
        exact ⟨c, List.mem_append_left _ member, found⟩
      · exact ⟨_, List.mem_append_right _ List.mem_cons_self,
          makeTargets_covers ended (Nat.le_of_not_lt inside) newer⟩ }

/-- What creation for further applications comes to. -/
theorem createAll {apps : List Application} (founded : Founded T first done s)
    (ended : createAll T apps s = .value () t) :
    ∃ more, more.map (·.1) = apps ∧ Founded T first (done ++ more) t := by
  induction apps generalizing done s with
  | nil =>
    obtain ⟨-, rfl⟩ := pure_eq_value.1 ended
    exact ⟨[], rfl, by simpa using founded⟩
  | cons a rest ih =>
    obtain ⟨_, v, noted, ended⟩ := bind_eq_value.1 ended
    obtain rfl := modify_eq_value.1 noted
    obtain ⟨outputs, u, made, ended⟩ := bind_eq_value.1 ended
    obtain ⟨_, x, linked, ended⟩ := bind_eq_value.1 ended
    obtain ⟨_, y, counted, ended⟩ := bind_eq_value.1 ended
    obtain rfl := modify_eq_value.1 counted
    obtain ⟨link, trace, registered, rfl⟩ := registerLink_eq_value linked
    have noted := founded.noted a.rule.name
    obtain ⟨more, same, all⟩ :=
      ih (noted.next made registered) ended
    exact ⟨(a, outputs) :: more, by simp [same], by simpa using all⟩

/-- Creation succeeds if the models supply what is to be made, and no source comes twice. -/
theorem createAll_goes {apps : List Application} (founded : Founded T first done s)
    (supplies : ∀ a ∈ apps, ∀ out ∈ a.rule.outputs,
      ∃ provider cls, Supplies T first.store out.type provider cls)
    (apart : (done.map (·.1.source.key) ++ apps.map (·.source.key)).Nodup) :
    ∃ t, Engine.createAll T apps s = .value () t := by
  induction apps generalizing done s with
  | nil => exact ⟨s, rfl⟩
  | cons a rest ih =>
    obtain ⟨here, others⟩ := List.forall_mem_cons.1 supplies
    have noted := founded.noted a.rule.name
    obtain ⟨outputs, u, made⟩ := makeTargets_goes noted.enlarged here
    have makes : Makes T (noteRule a.rule.name s) u := (makeTargets_keeps _).value made
    cases registered : u.trace.register u.store a.rule.name a.source outputs .matched with
    | error fault =>
      obtain ⟨link, member, -, same⟩ := Trace.lookup?_of_register registered
      rw [makes.others.trace] at member
      obtain ⟨c, listed, links⟩ := forall₂_right founded.links member
      rw [List.nodup_append] at apart
      refine absurd ?_ (apart.2.2 _ (List.mem_map_of_mem listed) _ List.mem_cons_self)
      rw [← links.source, same]
    | ok both =>
      obtain ⟨link, trace⟩ := both
      have linked : registerLink a.rule.name a.source outputs .matched u =
          .value () { u with trace } := by
        unfold registerLink
        rw [state_bind]
        exact bind_eq_value.2 ⟨_, u, ofResult_eq_value.2 ⟨registered, rfl⟩, rfl⟩
      obtain ⟨t, goes⟩ := ih (noted.next made registered) others (by simpa using apart)
      exact ⟨t, bind_eq_value.2 ⟨(), _, rfl, bind_eq_value.2 ⟨outputs, u, made,
        bind_eq_value.2 ⟨(), _, linked, bind_eq_value.2 ⟨(), _, rfl, goes⟩⟩⟩⟩⟩

end Founded

end Engine
end Metamorph
