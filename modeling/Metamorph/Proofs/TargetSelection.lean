import Metamorph.Proofs.Resolution
import Metamorph.Proofs.Making

/-! Where target objects are made. The engine selects a target model by alias or by metamodel, and the
model that is selected takes no qualifier but the name of its metamodel. -/
namespace Metamorph

/-- The metamodel of a model, if there is one. -/
def Store.metamodel? (store : Store) (model : Nat) : Option Metamodel :=
  store.models[model]?.map (·.metamodel)

namespace Engine
open Run

/-- Every declared target comes with a model that creates objects and conforms to the metamodel it is
declared with. -/
def Stocked (t : Transformation) (store : Store) : Prop :=
  ∀ target ∈ t.module.targets, ∃ provider metamodel,
    t.targets.get? target.1 = some provider ∧ provider.refusals.create = none ∧
      store.metamodel? provider.model = some metamodel ∧ metamodel.name = target.2

/-- The metamodel of the model that is selected for a type. -/
def targetMetamodel? (t : Transformation) (store : Store) (type : String) : Option Metamodel :=
  (targetProvider t type).toOption.bind fun provider => store.metamodel? provider.model

/-- The type has the alias or the metamodel of a declared target before its class, which is a concrete
one where a model is selected. -/
structure Qualified (t : Transformation) (store : Store) (type : String) : Prop where
  declared : ∃ qualifier, (splitTypeName type).1 = some qualifier ∧
    ∃ target ∈ t.module.targets, qualifier = target.1 ∨ qualifier = target.2
  concrete : ∀ metamodel, targetMetamodel? t store type = some metamodel →
    ∃ cls, metamodel.class? (className type) = some cls ∧ cls.abstract = false

/-- The qualifier is the name of the metamodel of the model that is selected. -/
def Agrees (t : Transformation) (store : Store) (type : String) : Prop :=
  (targetMetamodel? t store type).map (·.name) = (splitTypeName type).1

/-- A new object of the class that the selected metamodel has for the type comes last in the selected
model, and all other models stay as they are. -/
structure Appends (t : Transformation) (type : String) (v : Value) (s u : Engine) : Prop where
  intro ::
  appended : ∃ provider m cls, targetProvider t type = .ok provider ∧
    s.store.models[provider.model]? = some m ∧
    m.metamodel.class? (className type) = some cls ∧ v = .object s.store.entities.size ∧
    u.store.entities = s.store.entities.push (.instance cls []) ∧
    u.store.models[provider.model]? =
      some { m with members := m.members ++ [s.store.entities.size] } ∧
    (∀ other, other ≠ provider.model → u.store.models[other]? = s.store.models[other]?) ∧
    u.ownerOf? v = some provider

/-- One object after the other is appended, for each output. -/
inductive AppendsAll (t : Transformation) : List OutPattern → Outputs → Engine → Engine → Prop
  | nil (s) : AppendsAll t [] [] s s
  | cons {out rest v outputs s u w} (first : Appends t out.type v s u)
      (others : AppendsAll t rest outputs u w) :
      AppendsAll t (out :: rest) ((out.name, v) :: outputs) s w

section
variable {t : Transformation} {store : Store} {type : String} {s u : Engine}

theorem Appends.metamodel? {v : Value} (appends : Appends t type v s u) (model : Nat) :
    u.store.metamodel? model = s.store.metamodel? model := by
  obtain ⟨provider, m, cls, -, known, -, -, -, last, others, -⟩ := appends.appended
  unfold Store.metamodel?
  by_cases same : model = provider.model
  · rw [same, last, known]
    rfl
  · rw [others model same]

theorem targetMetamodel?_congr {other : Store}
    (same : ∀ model, other.metamodel? model = store.metamodel? model) (type : String) :
    targetMetamodel? t other type = targetMetamodel? t store type := by
  simp only [targetMetamodel?, same]

theorem Stocked.congr {other : Store} (stocked : Stocked t store)
    (same : ∀ model, other.metamodel? model = store.metamodel? model) : Stocked t other := by
  simpa only [Stocked, same] using stocked

theorem Qualified.congr {other : Store} (qualified : Qualified t store type)
    (same : ∀ model, other.metamodel? model = store.metamodel? model) :
    Qualified t other type where
  declared := qualified.declared
  concrete := by simpa only [targetMetamodel?_congr same] using qualified.concrete

theorem agrees_congr {other : Store}
    (same : ∀ model, other.metamodel? model = store.metamodel? model) :
    Agrees t other type ↔ Agrees t store type := by
  rw [Agrees, Agrees, targetMetamodel?_congr same]

/-- A qualifier that stands for a declared target selects the first one that it stands for. -/
theorem targetProvider_of_declared (stocked : Stocked t store) {qualifier : String}
    (named : (splitTypeName type).1 = some qualifier)
    (declared : ∃ target ∈ t.module.targets, qualifier = target.1 ∨ qualifier = target.2) :
    ∃ provider m, targetProvider t type = .ok provider ∧ provider.refusals.create = none ∧
      store.models[provider.model]? = some m ∧
      targetMetamodel? t store type = some m.metamodel := by
  obtain ⟨target, member, stands⟩ := declared
  have fits : (qualifier == target.1 || qualifier == target.2) = true := by
    simpa only [Bool.or_eq_true, beq_iff_eq] using stands
  obtain ⟨first, found⟩ : ∃ first,
      (t.module.targets.find? fun target => qualifier == target.1 || qualifier == target.2) =
        some first := by
    rw [← Option.isSome_iff_exists, List.find?_isSome]
    exact ⟨target, member, fits⟩
  obtain ⟨provider, metamodel, reached, willing, conforms, -⟩ :=
    stocked first (List.mem_of_find?_eq_some found)
  have chosen : targetProvider t type = .ok provider := by
    simp only [targetProvider, named, found, Option.bind_some, reached]
  obtain ⟨m, known, rfl⟩ := Option.map_eq_some_iff.1 conforms
  refine ⟨provider, m, chosen, willing, known, ?_⟩
  rw [targetMetamodel?, chosen]
  exact conforms

theorem creatable_of_concrete {m : Model} {qualifier : String} {cls : Metaclass}
    (named : (splitTypeName type).1 = some qualifier)
    (known : m.metamodel.class? (className type) = some cls) (concrete : cls.abstract = false) :
    Store.creatable m type =
      if qualifier = m.metamodel.name then .ok cls
      else .error (.unsupported ("create " ++ type)
        ("model " ++ Text.quoted m.name ++ " conforms to " ++ Text.quoted m.metamodel.name)) := by
  unfold Store.creatable
  unfold className at known
  split
  rename_i cut
  rw [cut] at named known
  obtain rfl : _ = some qualifier := named
  by_cases same : qualifier = m.metamodel.name <;> simp [same, known, concrete]

/-- Making an object of a qualified type appends it to the model that is selected, if the qualifier is
the name of the metamodel. Under any other qualifier nothing is made. -/
theorem makeTarget_of_qualified (stocked : Stocked t s.store) {out : OutPattern}
    (qualified : Qualified t s.store out.type) :
    (Agrees t s.store out.type →
      ∃ v u, makeTarget t out s = .value v u ∧ Appends t out.type v s u) ∧
    (¬ Agrees t s.store out.type →
      ∃ reason, makeTarget t out s =
        .failure (.unsupported ("create " ++ out.type) reason) s) := by
  obtain ⟨qualifier, named, declared⟩ := qualified.declared
  obtain ⟨provider, m, chosen, willing, known, conforms⟩ :=
    targetProvider_of_declared stocked named declared
  obtain ⟨cls, found, concrete⟩ := qualified.concrete _ conforms
  have agrees : Agrees t s.store out.type ↔ qualifier = m.metamodel.name := by
    rw [Agrees, conforms, named]
    exact ⟨fun same => (Option.some.inj same).symm, fun same => congrArg some same.symm⟩
  have created : provider.create s.store out.type =
      (Store.creatable m out.type).map fun cls =>
        (s.store.entities.size,
          { entities := s.store.entities.push (.instance cls [])
            models := s.store.models.set! provider.model
              { m with members := m.members ++ [s.store.entities.size] } }) := by
    simp only [Provider.create, Provider.refuse, willing, Store.create, known, Store.add]
  rw [creatable_of_concrete named found concrete] at created
  rw [agrees]
  constructor
  · intro same
    rw [if_pos same] at created
    refine ⟨_, _, bind_of_value (ofResult_eq_value.2 ⟨chosen, rfl⟩) |>.trans
      (bind_of_value (collaborate_eq_value.2 ⟨created, rfl⟩)), ?_⟩
    refine ⟨provider, m, cls, chosen, known, found, rfl, rfl, ?_, ?_, ?_⟩
    · have inside := (Array.getElem?_eq_some_iff.1 known).1
      simp [inside]
    · intro other apart
      simp [Ne.symm apart]
    · simp [ownerOf?]
  · intro other
    rw [if_neg other] at created
    have refused : collaborate ("create " ++ out.type) (provider.create s.store out.type) s =
        .failure (.unsupported ("create " ++ out.type) ("model " ++ Text.quoted m.name ++
          " conforms to " ++ Text.quoted m.metamodel.name)) s := by
      rw [created]
      rfl
    exact ⟨_, (bind_of_value (ofResult_eq_value.2 ⟨chosen, rfl⟩)).trans
      (state_bind.trans (bind_of_failure refused))⟩

theorem AppendsAll.metamodel? {patterns : List OutPattern} {outputs : Outputs}
    (appends : AppendsAll t patterns outputs s u) (model : Nat) :
    u.store.metamodel? model = s.store.metamodel? model := by
  induction appends with
  | nil => rfl
  | cons first _ ih => rw [ih, first.metamodel?]

theorem makeTargets_of_agrees (stocked : Stocked t s.store) {front : List OutPattern}
    (qualified : ∀ out ∈ front, Qualified t s.store out.type)
    (agrees : ∀ out ∈ front, Agrees t s.store out.type) :
    ∃ outputs u, AppendsAll t front outputs s u ∧ ∀ rest,
      makeTargets t (front ++ rest) s =
        (makeTargets t rest >>= fun more => pure (outputs ++ more)) u := by
  induction front generalizing s with
  | nil => exact ⟨[], s, .nil s, fun rest => (congrFun (bind_pure (makeTargets t rest)) s).symm⟩
  | cons out front ih =>
    have here := List.mem_cons_self (a := out) (l := front)
    obtain ⟨v, u, made, appends⟩ :=
      (makeTarget_of_qualified stocked (qualified out here)).1 (agrees out here)
    -- No metamodel changes, so what was required of the outputs still holds of the others.
    have same := appends.metamodel?
    obtain ⟨outputs, w, others, rest⟩ := ih (stocked.congr same)
      (fun out later => (qualified out (List.mem_cons_of_mem _ later)).congr same)
      (fun out later => (agrees_congr same).2 (agrees out (List.mem_cons_of_mem _ later)))
    refine ⟨_, w, .cons appends others, fun more => ?_⟩
    change (makeTarget t out >>= fun target =>
      makeTargets t (front ++ more) >>= fun made => pure ((out.name, target) :: made)) s = _
    rw [bind_of_value made]
    rw [bind_congr (rest more), bind_assoc]
    rfl

theorem agrees_of_makeTargets (stocked : Stocked t s.store) {patterns : List OutPattern}
    (qualified : ∀ out ∈ patterns, Qualified t s.store out.type) {outputs : Outputs}
    (ended : makeTargets t patterns s = .value outputs u) :
    ∀ out ∈ patterns, Agrees t s.store out.type := by
  induction patterns generalizing s u outputs with
  | nil => simp
  | cons out rest ih =>
    have here := List.mem_cons_self (a := out) (l := rest)
    obtain ⟨makes, refuses⟩ := makeTarget_of_qualified stocked (qualified out here)
    obtain ⟨v, w, made, ended⟩ := bind_eq_value.1 ended
    obtain ⟨others, x, more, -⟩ := bind_eq_value.1 ended
    by_cases agrees : Agrees t s.store out.type
    · obtain ⟨_, _, again, appends⟩ := makes agrees
      rw [made] at again
      cases again
      have same := appends.metamodel?
      have later := ih (stocked.congr same)
        (fun out later => (qualified out (List.mem_cons_of_mem _ later)).congr same) more
      intro other member
      rcases List.mem_cons.1 member with rfl | member
      · exact agrees
      · exact (agrees_congr same).1 (later other member)
    · obtain ⟨reason, refused⟩ := refuses agrees
      rw [made] at refused
      cases refused

end

variable {t : Transformation} {s : Engine}

/-- Target objects under qualified types. A model is selected for each. All objects are made, each
as one more of the model selected for it, if and only if every qualifier is the name of the metamodel
of the model that it selects. The first that is not stops the making there. -/
theorem makeTargets_qualified_iff (stocked : Stocked t s.store) {patterns : List OutPattern}
    (qualified : ∀ out ∈ patterns, Qualified t s.store out.type) :
    (∀ out ∈ patterns, ∃ provider m, targetProvider t out.type = .ok provider ∧
      s.store.models[provider.model]? = some m) ∧
    ((∃ outputs u, makeTargets t patterns s = .value outputs u ∧
        AppendsAll t patterns outputs s u) ↔
      ∀ out ∈ patterns, Agrees t s.store out.type) ∧
    ∀ front out back, patterns = front ++ out :: back →
      (∀ first ∈ front, Agrees t s.store first.type) → ¬ Agrees t s.store out.type →
      ∃ outputs u reason, AppendsAll t front outputs s u ∧
        makeTargets t patterns s = .failure (.unsupported ("create " ++ out.type) reason) u := by
  refine ⟨?_, ?_, ?_⟩
  · intro out member
    obtain ⟨qualifier, named, declared⟩ := (qualified out member).declared
    obtain ⟨provider, m, chosen, -, known, -⟩ := targetProvider_of_declared stocked named declared
    exact ⟨provider, m, chosen, known⟩
  · constructor
    · rintro ⟨outputs, u, ended, -⟩
      exact agrees_of_makeTargets stocked qualified ended
    · intro agrees
      obtain ⟨outputs, u, appends, rest⟩ := makeTargets_of_agrees stocked qualified agrees
      refine ⟨outputs, u, ?_, appends⟩
      have ended := rest []
      rw [List.append_nil] at ended
      rw [ended]
      exact congrArg (Outcome.value · u) (List.append_nil outputs)
  · rintro front out back rfl agrees disagrees
    obtain ⟨outputs, u, appends, rest⟩ := makeTargets_of_agrees stocked
      (fun first member => qualified first (List.mem_append_left _ member)) agrees
    have same := appends.metamodel?
    have declared := qualified out (List.mem_append_right _ (List.mem_cons_self ..))
    obtain ⟨reason, refused⟩ := (makeTarget_of_qualified (stocked.congr same)
      (declared.congr same)).2 (fun agrees => disagrees ((agrees_congr same).1 agrees))
    refine ⟨outputs, u, reason, appends, ?_⟩
    rw [rest (out :: back)]
    exact bind_of_failure (bind_of_failure refused)

end Engine

open Engine

namespace Looping

def outputOf (qualifier : String) : OutPattern := { name := "o", type := qualifier ++ "!T" }

theorem stocked : Stocked direct objects := by
  intro target member
  obtain rfl := List.mem_singleton.1 member
  exact ⟨{ model := 1 }, .ofClasses "M" [cls], rfl, rfl, rfl, rfl⟩

theorem targetMetamodel?_outputOf {qualifier : String} (known : qualifier = "OUT" ∨ qualifier = "M") :
    targetMetamodel? direct objects (outputOf qualifier).type = some (.ofClasses "M" [cls]) := by
  rcases known with rfl | rfl <;> rfl

theorem qualified_outputOf {qualifier : String} (known : qualifier = "OUT" ∨ qualifier = "M") :
    Qualified direct objects (outputOf qualifier).type where
  declared := by
    refine ⟨qualifier, ?_, ("OUT", "M"), List.mem_singleton_self _, known⟩
    rcases known with rfl | rfl <;> decide +kernel
  concrete := by
    intro metamodel selected
    rw [targetMetamodel?_outputOf known] at selected
    cases selected
    refine ⟨cls, ?_, rfl⟩
    rcases known with rfl | rfl <;> rfl

end Looping

/-- Under the name of the metamodel the object is made. -/
theorem makeTargets_qualified_metamodel :
    ∃ outputs u, makeTargets Looping.direct [Looping.outputOf "M"] { store := Looping.objects } =
      .value outputs u ∧
        AppendsAll Looping.direct [Looping.outputOf "M"] outputs { store := Looping.objects } u := by
  refine (makeTargets_qualified_iff (s := { store := Looping.objects }) Looping.stocked ?_).2.1.2 ?_
  · intro out member
    obtain rfl := List.mem_singleton.1 member
    exact Looping.qualified_outputOf (.inr rfl)
  · intro out member
    obtain rfl := List.mem_singleton.1 member
    rw [Agrees, Looping.targetMetamodel?_outputOf (.inr rfl)]
    decide +kernel

/-- Under the alias of the model that is selected, which has the class, no object is made. -/
theorem makeTargets_alias_refused :
    Stocked Looping.direct Looping.objects ∧
      Qualified Looping.direct Looping.objects (Looping.outputOf "OUT").type ∧
      (targetMetamodel? Looping.direct Looping.objects (Looping.outputOf "OUT").type).isSome = true ∧
      ∃ fault, makeTargets Looping.direct [Looping.outputOf "OUT"] { store := Looping.objects } =
        .failure fault { store := Looping.objects } := by
  refine ⟨Looping.stocked, Looping.qualified_outputOf (.inl rfl), ?_, _, rfl⟩
  rw [Looping.targetMetamodel?_outputOf (.inl rfl)]
  rfl

end Metamorph
