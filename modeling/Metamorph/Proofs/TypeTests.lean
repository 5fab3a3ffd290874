import Metamorph.Proofs.Rearrangement

/-! Tests of types. What `allInstances` lists of a type, what `oclIsKindOf` says of an object and what a
rule without a guard is applied to come to one question: whether the class of the object conforms to the
type and the qualifier of the type stands for the model of the object. -/
namespace Metamorph

namespace Value

theorem collectionOf_objects {objects : List Handle} (once : objects.Nodup) :
    collectionOf .set (objects.map .object) = .collection .set (objects.map .object) := by
  have keys : ((objects.map Value.object).map key).Nodup := by
    rw [List.map_map]
    refine once.map fun g h same => ?_
    simpa [key] using same
  exact congrArg (collection .set) (distinct_of_nodup_keys keys)

end Value

/-- Whether the qualifier of a type, if it has one, stands for the source model: by alias or by metamodel.
-/
def Module.reads (m : Module) (type model : String) : Bool :=
  (splitTypeName type).1.all fun qualifier =>
    qualifier == model || (m.sources.get? model).any (qualifier == ·)

theorem Module.reads_iff {m : Module} {type model metamodel : String}
    (declared : m.sources.get? model = some metamodel) :
    m.reads type model = true ↔
      ∀ qualifier ∈ (splitTypeName type).1, qualifier = model ∨ qualifier = metamodel := by
  unfold Module.reads
  cases (splitTypeName type).1 <;> simp [declared]

theorem Store.conformsTo_class {store : Store} {h : Handle} {cls : Metaclass}
    (found : store.class? h = some cls) (type : String) : store.conformsTo h type = cls.conformsTo type := by
  obtain ⟨values, held⟩ := Store.class?_eq_some.1 found
  simp only [Store.conformsTo, held]

theorem Store.conformsTo_iff {store : Store} {h : Handle} (typed : (store.class? h).isSome)
    (type : String) :
    store.conformsTo h type = true ↔ ∃ cls, store.class? h = some cls ∧ cls.conformsTo type = true := by
  obtain ⟨cls, found⟩ := Option.isSome_iff_exists.1 typed
  rw [conformsTo_class found, found]
  simp

namespace Engine
open Run
variable {setting : Setting} {self : Evaluator} {t : Transformation} {m : Module} {s u : Engine}
  {type model : String} {h : Handle}

/-- Either navigator gives the types of an instance by those of its class. -/
theorem ancestry_instance {cls : Metaclass} (found : s.store.class? h = some cls) :
    ancestry setting (.object h) s = .value cls.ancestry s := by
  obtain ⟨values, held⟩ := Store.class?_eq_some.1 found
  unfold ancestry
  rw [state_bind]
  cases setting.navigator <;>
    simp [Store.ancestry, held, Value.builtinAncestry?, Value.builtinType?, Pure.pure]

/-- The types of an instance, among which are those that it conforms to. -/
theorem ancestry_conforms (typed : (s.store.class? h).isSome) (type : String) :
    ∃ found, ancestry setting (.object h) s = .value found s ∧
      (found.get? (className type)).isSome = s.store.conformsTo h type := by
  obtain ⟨cls, found⟩ := Option.isSome_iff_exists.1 typed
  refine ⟨cls.ancestry, ancestry_instance found, ?_⟩
  rw [← Named.has_eq_isSome, Store.conformsTo_class found, Metaclass.conformsTo]

/-! What `allInstances` lists. -/

theorem filterM_value {α : Type} {p : α → Run Engine Bool} {q : α → Bool} {items : List α}
    (each : ∀ a ∈ items, p a s = .value (q a) s) : items.filterM p s = .value (items.filter q) s := by
  have loop (found : List α) :
      List.filterAuxM p items found s = .value ((items.filter q).reverse ++ found) s := by
    induction items generalizing found with
    | nil => rfl
    | cons a rest ih =>
      obtain ⟨here, others⟩ := List.forall_mem_cons.1 each
      refine (bind_of_value here).trans ((ih others _).trans ?_)
      cases holds : q a <;> simp [holds]
  refine (bind_of_value (loop [])).trans ?_
  simp [Pure.pure]

theorem instancesIn_value (setting : Setting) {models : List (String × Provider)}
    (willing : ∀ source ∈ models, source.2.refusals.objects = none)
    (typed : ∀ source ∈ models, ∀ h ∈ s.store.members source.2.model, (s.store.class? h).isSome)
    (type : String) :
    instancesIn setting (className type) models s =
      .value ((models.flatMap fun source => s.store.instancesOf source.2.model type).map .object) s := by
  induction models with
  | nil => rfl
  | cons source rest ih =>
    obtain ⟨accepts, willing⟩ := List.forall_mem_cons.1 willing
    obtain ⟨own, typed⟩ := List.forall_mem_cons.1 typed
    have objects : source.2.objects s.store = .ok (s.store.members source.2.model) := by
      simp [Provider.objects, Provider.refuse, accepts]
    have found : (s.store.members source.2.model).filterM
        (fun h => (do return (← ancestry setting (.object h)).has (className type) : Run Engine Bool)) s =
        .value (s.store.instancesOf source.2.model type) s := by
      refine filterM_value fun h member => ?_
      obtain ⟨distances, known, conforms⟩ := ancestry_conforms (own h member) type
      rw [bind_of_value known, Named.has_eq_isSome, conforms]
      rfl
    unfold instancesIn
    rw [state_bind]
    refine (bind_of_value (collaborate_eq_value.2 ⟨objects, rfl⟩)).trans ?_
    refine (bind_of_value found).trans ((bind_of_value (ih willing typed)).trans ?_)
    simp [Pure.pure]

/-- An alias whose model lists objects is declared once, where no object is listed twice. -/
theorem get?_of_listed {α : Type} {sources : Named String} (lists : String → List α)
    (once : (sources.names.flatMap lists).Nodup) {source : String × String} (member : source ∈ sources)
    (filled : lists source.1 ≠ []) : sources.get? source.1 = some source.2 := by
  induction sources with
  | nil => cases member
  | cons first rest ih =>
    obtain ⟨-, later, apart⟩ := List.nodup_append.1 (List.flatMap_cons ▸ once)
    obtain ⟨name, metamodel⟩ := source
    obtain ⟨other, declared⟩ := first
    by_cases same : name = other
    · subst same
      rcases List.mem_cons.1 member with equal | behind
      · cases equal
        simp [Named.get?]
      · obtain ⟨a, listed⟩ := List.exists_mem_of_ne_nil _ filled
        have again : a ∈ (Named.names rest).flatMap lists :=
          List.mem_flatMap.2 ⟨name, List.mem_map_of_mem behind, listed⟩
        exact absurd rfl (apart a listed a again)
    · have behind : (name, metamodel) ∈ rest := by
        rcases List.mem_cons.1 member with equal | behind
        · cases equal
          exact absurd rfl same
        · exact behind
      rw [← ih later behind]
      simp [Named.get?, List.lookup_cons, beq_eq_false_iff_ne.2 same]

theorem get?_of_enumerated {store : Store} (once : (t.sourceObjects store).Nodup)
    {source : String × String} (member : source ∈ t.module.sources)
    (filled : enumeration t store [source.1] ≠ []) : t.module.sources.get? source.1 = some source.2 := by
  refine get?_of_listed (fun name => enumeration t store [name]) ?_ member filled
  rw [← enumeration_objects] at once
  simpa [enumeration] using once.of_map

/-- The source objects of a type, each with the name of its model. -/
def typed (t : Transformation) (store : Store) (type : String) : List (String × Handle) :=
  (enumeration t store t.module.sources.names).filter fun item =>
    t.module.reads type item.1 && store.conformsTo item.2 type

theorem sourcesNamed_instances {store : Store} (once : (t.sourceObjects store).Nodup) (type : String) :
    ((sourcesNamed t (splitTypeName type).1).flatMap fun source =>
      store.instancesOf source.2.model type) = (typed t store type).map (·.2) := by
  suffices each : ∀ sources : Named String, (∀ source ∈ sources, source ∈ t.module.sources) →
      (((sources.filter fun source =>
          (splitTypeName type).1.all fun q => q == source.1 || q == source.2).filterMap fun source =>
            (t.sources.get? source.1).map fun provider => (source.1, provider)).flatMap fun source =>
              store.instancesOf source.2.model type) =
        ((enumeration t store sources.names).filter fun item =>
          t.module.reads type item.1 && store.conformsTo item.2 type).map (·.2) from
    each t.module.sources fun _ => id
  intro sources declared
  induction sources with
  | nil => rfl
  | cons source rest ih =>
    obtain ⟨first, others⟩ := List.forall_mem_cons.1 declared
    have split : enumeration t store (Named.names (source :: rest)) =
        enumeration t store [source.1] ++ enumeration t store (Named.names rest) := by
      simp [enumeration, Named.names]
    rw [split, List.filter_append, List.map_append, ← ih others, List.filter_cons]
    cases known : t.sources.get? source.1 with
    | none =>
      have nothing : enumeration t store [source.1] = [] := by simp [enumeration, known]
      rw [nothing]
      split <;> simp [known]
    | some provider =>
      have listed : enumeration t store [source.1] =
          (store.members provider.model).map fun h => (source.1, h) := by simp [enumeration, known]
      by_cases empty : store.members provider.model = []
      · rw [listed, empty]
        split <;> simp [known, Store.instancesOf, empty]
      · have own := get?_of_enumerated once first (by simpa [listed] using empty)
        have reads : t.module.reads type source.1 =
            (splitTypeName type).1.all fun q => q == source.1 || q == source.2 := by
          simp [Module.reads, own]
        rw [listed, List.filter_map, List.map_map]
        split
        · next fits => simp [known, Function.comp_def, Store.instancesOf, reads, fits]
        · next differs => simp [Function.comp_def, reads, differs]

theorem typed_sublist (store : Store) (type : String) :
    ((typed t store type).map (·.2)).Sublist (t.sourceObjects store) := by
  rw [← enumeration_objects]
  exact List.filter_sublist.map _

theorem mem_typed {store : Store} (once : (t.sourceObjects store).Nodup)
    (listed : (model, h) ∈ enumeration t store t.module.sources.names) (type : String) :
    h ∈ (typed t store type).map (·.2) ↔ (model, h) ∈ typed t store type := by
  rw [← enumeration_objects] at once
  constructor
  · intro member
    obtain ⟨⟨other, _⟩, own, rfl⟩ := List.mem_map.1 member
    cases List.inj_on_of_nodup_map once (List.mem_filter.1 own).1 listed rfl
    exact own
  · exact fun own => List.mem_map.2 ⟨_, own, rfl⟩

theorem enumerated_of_member {store : Store} {metamodel : String} {provider : Provider}
    (declared : (model, metamodel) ∈ t.module.sources) (given : t.sources.get? model = some provider)
    (member : h ∈ store.members provider.model) :
    (model, h) ∈ enumeration t store t.module.sources.names := by
  refine List.mem_flatMap.2 ⟨model, List.mem_map_of_mem declared, ?_⟩
  simpa [given] using member

/-- An object is of a type if it conforms to it and the qualifier stands for its model. -/
theorem mem_typed_iff {store : Store} {metamodel : String} {provider : Provider}
    (once : (t.sourceObjects store).Nodup) (declared : (model, metamodel) ∈ t.module.sources)
    (given : t.sources.get? model = some provider) (member : h ∈ store.members provider.model) :
    (model, h) ∈ typed t store type ↔ store.conformsTo h type = true ∧
      ∀ qualifier ∈ (splitTypeName type).1, qualifier = model ∨ qualifier = metamodel := by
  have listed := enumerated_of_member declared given member
  have filled : enumeration t store [model] ≠ [] := by
    refine List.ne_nil_of_mem (a := (model, h)) ?_
    simpa [enumeration, given] using member
  rw [← Module.reads_iff (get?_of_enumerated once declared filled)]
  simp [typed, listed, and_comm]

theorem sourcesNamed_subset {qualifier : Option String} {source : String × Provider}
    (member : source ∈ sourcesNamed t qualifier) :
    source.1 ∈ t.module.sources.names ∧ t.sources.get? source.1 = some source.2 := by
  obtain ⟨entry, declared, given⟩ := List.mem_filterMap.1 member
  obtain ⟨provider, known, rfl⟩ := Option.map_eq_some_iff.1 given
  exact ⟨List.mem_map_of_mem (List.mem_filter.1 declared).1, known⟩

/-! What a rule without a guard is applied to. -/

theorem acceptsModel_eq_reads (m : Module) (rule : MatchedRule) (model : String) :
    acceptsModel m rule model = m.reads rule.source.type model := by
  unfold acceptsModel Module.reads
  cases (splitTypeName rule.source.type).1 <;> rfl

theorem candidates_single {rule : MatchedRule} (only : m.matched = [rule]) (found : Named Nat)
    (model : String) :
    candidates m found model =
      (if m.reads rule.source.type model then
        (found.get? (className rule.source.type)).map fun distance => (distance, rule)
      else none).toList := by
  unfold candidates
  rw [only, List.filterMap_cons, List.filterMap_nil, acceptsModel_eq_reads]
  cases m.reads rule.source.type model with
  | false => simp
  | true => cases found.get? (className rule.source.type) <;> simp

/-- A rule without a guard, if it is the only one, is chosen by type alone. -/
theorem selectRule_guardless {rule : MatchedRule} (only : m.matched = [rule])
    (guardless : rule.source.guard = none) (typed : (s.store.class? h).isSome) (model : String) :
    selectRule self setting m (.object h) model s =
      .value (if m.reads rule.source.type model && s.store.conformsTo h rule.source.type then some rule
        else none) s := by
  obtain ⟨found, known, conforms⟩ := ancestry_conforms typed rule.source.type
  have holds : guardHolds self setting rule (.object h) s = .value true s := by
    unfold guardHolds
    rw [guardless]
    rfl
  unfold selectRule
  rw [bind_of_value known, candidates_single only, ← conforms]
  cases m.reads rule.source.type model with
  | false => rfl
  | true =>
    cases found.get? (className rule.source.type) with
    | none => rfl
    | some distance =>
      have won : winners self setting (.object h) none [(distance, rule)] s = .value [rule] s := by
        unfold winners
        exact bind_of_value holds
      exact bind_of_value won

theorem matchObjects_value {pick : String × Handle → Option MatchedRule} {objects : List Handle}
    (selects : ∀ h ∈ objects, selectRule self setting m (.object h) model s = .value (pick (model, h)) s)
    (schedule : Schedule) :
    matchObjects self setting m model schedule objects s =
      .value (planning pick schedule (objects.map fun h => (model, h))) s := by
  induction objects generalizing schedule with
  | nil => rfl
  | cons h rest ih =>
    obtain ⟨here, others⟩ := List.forall_mem_cons.1 selects
    exact (bind_of_value here).trans (ih others _)

theorem matchModels_value {pick : String × Handle → Option MatchedRule} {names : List String}
    (listing : Listing t names)
    (selects : ∀ item ∈ enumeration t s.store names,
      selectRule self setting m (.object item.2) item.1 s = .value (pick item) s) (schedule : Schedule) :
    matchModels self setting m t.sources schedule names s =
      .value (planning pick schedule (enumeration t s.store names)) s := by
  induction names generalizing schedule with
  | nil => rfl
  | cons name rest ih =>
    obtain ⟨⟨provider, known, accepts⟩, listing⟩ := List.forall_mem_cons.1 listing
    have split : enumeration t s.store (name :: rest) =
        (s.store.members provider.model).map (fun h => (name, h)) ++ enumeration t s.store rest := by
      simp [enumeration, known]
    have objects : provider.objects s.store = .ok (s.store.members provider.model) := by
      simp [Provider.objects, Provider.refuse, accepts]
    rw [split, List.forall_mem_append] at selects
    obtain ⟨own, others⟩ := selects
    unfold matchModels
    simp only [known]
    rw [state_bind, split]
    refine (bind_of_value (collaborate_eq_value.2 ⟨objects, rfl⟩)).trans ?_
    refine (bind_of_value (matchObjects_value (by simpa using own) schedule)).trans ?_
    refine (ih listing others _).trans ?_
    simp [planning]

/-! What the evaluator answers. -/

/-- No context helper is called by the name. -/
def Unhelped (setting : Setting) (name : String) : Prop := setting.helpers.contextual.get? name = none

theorem contextHelper?_unhelped {name : String} (unhelped : Unhelped setting name) (v : Value)
    (isAttribute : Option Bool) : contextHelper? setting v name isAttribute s = .value none s := by
  obtain ⟨found, known⟩ := ancestry_total setting s v
  have nobody : setting.helpers.lookup name found isAttribute = none := by
    unfold Unhelped at unhelped
    simp [HelperTable.lookup, unhelped, HelperTable.nearest]
  unfold contextHelper?
  split
  · refine (bind_of_value known).trans ?_
    rw [nobody]
    rfl
  · rfl

section
variable {n : Nat} {env : Environment} {receiver : Expr} {w : Engine}

/-- A method called on a value that is neither the module nor a collection. -/
theorem evaluateWithin_method {name : String} {args : List Expr} {v result : Value} {vs : List Value}
    {loc : Location} (received : evaluateWithin setting n env receiver u = .value v w)
    (given : evaluateAll (evaluateWithin setting n) env args w = .value vs s)
    (single : ∀ name, v ≠ .thisModule name) (plain : ∀ kind items, v ≠ .collection kind items)
    (called : callOn (evaluateWithin setting n) setting v name vs s = .value result s) :
    evaluateWithin setting (n + 1) env (.method receiver name args loc) u = .value result s := by
  refine mapFault_eq_value.2 ((bind_of_value received).trans ?_)
  cases v with
  | thisModule name => exact absurd rfl (single name)
  | collection kind items => exact absurd rfl (plain kind items)
  | _ => exact (bind_of_value given).trans called

theorem callOn_allInstances {items : List Handle} (running : setting.transformation = some t)
    (unhelped : Unhelped setting "allInstances")
    (listed : allInstances setting t type s = .value (.collection .set (items.map .object)) s) :
    callOn self setting (.type type) "allInstances" [] s =
      .value (.collection .set (items.map .object)) s := by
  unfold callOn
  rw [bind_of_value (contextHelper?_unhelped unhelped _ _)]
  have own : ownOperation? setting (.type type) "allInstances" [] = some (allInstances setting t type) := by
    simp [ownOperation?, onType, running]
  have universally : Universal.named? "allInstances" = none := rfl
  simp only [universally, own]
  exact listed

theorem callOn_isKindOf (unhelped : Unhelped setting "oclIsKindOf") (typed : (s.store.class? h).isSome) :
    callOn self setting (.object h) "oclIsKindOf" [.type type] s =
      .value (.boolean (s.store.conformsTo h type)) s := by
  obtain ⟨found, known, conforms⟩ := ancestry_conforms typed type
  unfold callOn
  rw [bind_of_value (contextHelper?_unhelped unhelped _ _)]
  have universally : Universal.named? "oclIsKindOf" = some .isKindOf := rfl
  have distance : distanceTo setting .isKindOf (.object h) (.type type) s =
      .value (found.get? (className type)) s := bind_of_value known
  simp only [universally]
  refine (bind_of_value distance).trans ?_
  rw [← conforms]
  rfl

end

theorem evaluateWithin_typeName (n : Nat) (env : Environment) (loc : Location) :
    evaluateWithin setting (n + 1) env (.typeName type loc) s = .value (.type type) s := rfl

theorem appointed_filter (rule : MatchedRule) (test : String × Handle → Bool) (position : Nat)
    (items : List (String × Handle)) :
    (appointed (fun item => if test item then some rule else none) position items).map
        (fun a => (a.rule, a.model, a.source)) =
      (items.filter test).map fun item => (rule, item.1, .object item.2) := by
  induction items generalizing position with
  | nil => rfl
  | cons item rest ih =>
    unfold appointed
    rw [List.filter_cons]
    cases test item with
    | false => exact ih position
    | true => exact congrArg _ (ih (position + 1))

section
variable (listing : Listing t t.module.sources.names)
  (held : ∀ h ∈ t.sourceObjects s.store, (s.store.class? h).isSome)
include listing held

/-- All instances of a type, which are the objects of the type in their order. -/
theorem allInstances_value (once : (t.sourceObjects s.store).Nodup) (type : String) :
    allInstances setting t type s =
      .value (.collection .set (((typed t s.store type).map (·.2)).map .object)) s := by
  have willing : ∀ source ∈ sourcesNamed t (splitTypeName type).1, source.2.refusals.objects = none := by
    intro source member
    obtain ⟨declared, given⟩ := sourcesNamed_subset member
    obtain ⟨provider, known, accepts⟩ := listing _ declared
    cases given.symm.trans known
    exact accepts
  have instances : ∀ source ∈ sourcesNamed t (splitTypeName type).1,
      ∀ h ∈ s.store.members source.2.model, (s.store.class? h).isSome := by
    intro source member h listed
    obtain ⟨declared, given⟩ := sourcesNamed_subset member
    exact held h (List.mem_flatMap.2 ⟨_, List.mem_filterMap.2 ⟨_, declared, given⟩, listed⟩)
  have found := instancesIn_value setting willing instances type
  rw [sourcesNamed_instances once] at found
  refine (bind_of_value found).trans ?_
  rw [Value.collectionOf_objects (once.sublist (typed_sublist s.store type))]
  rfl

/-- A module whose only rule has no guard is applied to the objects of its input type. -/
theorem buildSchedule_guardless (setting : Setting) {rule : MatchedRule} (sources : m.sources = t.module.sources)
    (only : m.matched = [rule]) (guardless : rule.source.guard = none) :
    ∃ schedule, (∀ self, buildSchedule self setting m t.sources s = .value schedule s) ∧
      schedule.applications.map (fun a => (a.rule, a.model, a.source)) =
        (typed t s.store rule.source.type).map fun item => (rule, item.1, .object item.2) := by
  let test (item : String × Handle) : Bool :=
    t.module.reads rule.source.type item.1 && s.store.conformsTo item.2 rule.source.type
  have selects (self : Evaluator) : ∀ item ∈ enumeration t s.store t.module.sources.names,
      selectRule self setting m (.object item.2) item.1 s =
        .value (if test item then some rule else none) s := by
    intro item listed
    have member : item.2 ∈ t.sourceObjects s.store := by
      rw [← enumeration_objects]
      exact List.mem_map_of_mem listed
    rw [selectRule_guardless only guardless (held _ member), Module.reads, sources]
    rfl
  refine ⟨planning (fun item => if test item then some rule else none) {}
    (enumeration t s.store t.module.sources.names), fun self => ?_, ?_⟩
  · unfold buildSchedule
    rw [sources]
    exact matchModels_value listing (selects self) {}
  · rw [planning_eq]
    exact appointed_filter rule test _ _

end

theorem mem_typed_iff_applied {rule : MatchedRule} {applications : List Application} {store : Store}
    (entries : applications.map (fun a => (a.rule, a.model, a.source)) =
      (typed t store type).map fun item => (rule, item.1, .object item.2)) :
    (model, h) ∈ typed t store type ↔
      ∃ a ∈ applications, a.source = .object h ∧ a.model = model ∧ a.rule = rule := by
  have applied (r : MatchedRule) (v : Value) :
      (∃ a ∈ applications, (a.rule, a.model, a.source) = (r, model, v)) ↔
        ∃ item ∈ typed t store type, (rule, item.1, .object item.2) = (r, model, v) := by
    rw [← List.mem_map, entries, List.mem_map]
  constructor
  · intro fits
    obtain ⟨a, member, same⟩ := (applied rule (.object h)).2 ⟨_, fits, rfl⟩
    simp only [Prod.mk.injEq] at same
    exact ⟨a, member, same.2.2, same.2.1, same.1⟩
  · rintro ⟨a, member, source, rfl, -⟩
    obtain ⟨⟨_, _⟩, fits, same⟩ := (applied a.rule (.object h)).1 ⟨a, member, by rw [source]⟩
    cases same
    exact fits

end Engine

/-- The tests of types agree. What is listed of a type are the objects that are of its kind, in the
models that its qualifier stands for; a module whose only rule has that input type, and no guard, is applied
to them, each once and in the same order. An object is of the kind of a type if its class conforms to it. -/
theorem type_tests_agree {setting matching : Setting} {t : Transformation} {s : Engine} {m : Module}
    {rule : MatchedRule} {type : String} (running : setting.transformation = some t)
    (allInstances : Engine.Unhelped setting "allInstances") (isKindOf : Engine.Unhelped setting "oclIsKindOf")
    (listing : Engine.Listing t t.module.sources.names) (apart : (t.sourceObjects s.store).Nodup)
    (held : ∀ h ∈ t.sourceObjects s.store, (s.store.class? h).isSome)
    (sources : m.sources = t.module.sources) (only : m.matched = [rule]) (input : rule.source.type = type)
    (guardless : rule.source.guard = none) :
    ∃ (items : List Handle) (schedule : Schedule),
      (∀ bound env loc loc', Engine.evaluateWithin setting (bound + 2) env
        (.method (.typeName type loc) "allInstances" [] loc') s =
          .value (.collection .set (items.map .object)) s) ∧
      (∀ self, Engine.buildSchedule self matching m t.sources s = .value schedule s) ∧
      schedule.applications.map (·.source) = items.map .object ∧ items.Nodup ∧
      items.Sublist (t.sourceObjects s.store) ∧
      ∀ model metamodel provider,
        (model, metamodel) ∈ t.module.sources → t.sources.get? model = some provider →
        ∀ o ∈ s.store.members provider.model, ∃ kind : Bool,
          (∀ bound env receiver u loc loc',
            Engine.evaluateWithin setting (bound + 1) env receiver u = .value (.object o) s →
              Engine.evaluateWithin setting (bound + 2) env
                (.method receiver "oclIsKindOf" [.typeName type loc] loc') u = .value (.boolean kind) s) ∧
          (kind = true ↔ ∃ cls, s.store.class? o = some cls ∧ cls.conformsTo type = true) ∧
          (o ∈ items ↔ kind = true ∧
            ∀ qualifier ∈ (splitTypeName type).1, qualifier = model ∨ qualifier = metamodel) ∧
          (o ∈ items ↔
            ∃ a ∈ schedule.applications, a.source = .object o ∧ a.model = model ∧ a.rule = rule) := by
  obtain ⟨schedule, built, entries⟩ :=
    Engine.buildSchedule_guardless listing held matching sources only guardless
  rw [input] at entries
  refine ⟨(Engine.typed t s.store type).map (·.2), schedule, fun bound env loc loc' => ?_, built, ?_,
    apart.sublist (Engine.typed_sublist s.store type), Engine.typed_sublist s.store type, ?_⟩
  · refine Engine.evaluateWithin_method (Engine.evaluateWithin_typeName _ _ _) rfl (fun _ => by simp)
      (fun _ _ => by simp) ?_
    exact Engine.callOn_allInstances running allInstances (Engine.allInstances_value listing held apart type)
  · have names := congrArg (List.map fun entry => entry.2.2) entries
    simpa [Function.comp_def] using names
  intro model metamodel provider declared given o member
  have listed := Engine.enumerated_of_member declared given member
  have object : o ∈ t.sourceObjects s.store := by
    rw [← Engine.enumeration_objects]
    exact List.mem_map_of_mem listed
  have among := Engine.mem_typed apart listed type
  refine ⟨s.store.conformsTo o type, fun bound env receiver u loc loc' received => ?_,
    Store.conformsTo_iff (held o object) type, ?_, ?_⟩
  · exact Engine.evaluateWithin_method received rfl (fun _ => by simp) (fun _ _ => by simp)
      (Engine.callOn_isKindOf isKindOf (held o object))
  · exact among.trans (Engine.mem_typed_iff apart declared given member)
  · exact among.trans (Engine.mem_typed_iff_applied entries)

/-! Two models of different metamodels, with objects of a class and of one that extends it. -/
namespace Kinds

def base : Metaclass := { name := "Base", features := [], supertypes := [], abstract := false }

def derived : Metaclass := { name := "Derived", features := [], supertypes := [base], abstract := false }

def objects : Store where
  entities := #[.instance derived [], .instance base [], .instance derived []]
  models := #[⟨"left", .ofClasses "M" [base, derived], [0, 1]⟩,
    ⟨"right", .ofClasses "N" [base, derived], [2]⟩]

def rule : MatchedRule where
  name := "R"
  source := { name := "x", type := "M!Base" }
  outputs := [{ name := "o", type := "Base" }]
  loc := {}
  productive := by simp
  distinct := by simp
  apart := by simp

def program : Transformation where
  module := {
    name := "kinds"
    sources := [("A", "M"), ("B", "N")]
    targets := []
    matched := [rule]
    lazy := []
    called := []
    helpers := [] }
  sources := [("A", { model := 0 }), ("B", { model := 1 })]
  targets := []

end Kinds

open Kinds in
theorem type_tests_agree_qualified :
    ∃ (items : List Handle) (schedule : Schedule),
      (∀ self, Engine.buildSchedule self {} program.module program.sources { store := objects } =
        .value schedule { store := objects }) ∧
      schedule.applications.map (·.source) = items.map .object ∧ 0 ∈ items ∧ 2 ∉ items := by
  have listing : Engine.Listing program program.module.sources.names := by
    intro name member
    obtain rfl | rfl : name = "A" ∨ name = "B" := by simpa [program, Named.names] using member
    · exact ⟨{ model := 0 }, rfl, rfl⟩
    · exact ⟨{ model := 1 }, rfl, rfl⟩
  obtain ⟨items, schedule, -, built, sources, -, -, each⟩ :=
    @type_tests_agree { transformation := some program } {} program { store := objects } program.module
      rule _ rfl rfl rfl listing (by decide +kernel) (by decide +kernel) rfl rfl rfl rfl
  obtain ⟨kind, -, conforms, listed, -⟩ :=
    each "A" "M" { model := 0 } (by simp [program]) rfl 0 (by decide +kernel)
  obtain ⟨_, -, -, apart, -⟩ := each "B" "N" { model := 1 } (by simp [program]) rfl 2 (by decide +kernel)
  refine ⟨items, schedule, built, sources, listed.2 ⟨?_, ?_⟩, fun member => ?_⟩
  · exact conforms.2 ⟨derived, rfl, by decide +kernel⟩
  · decide +kernel
  · exact absurd ((apart.1 member).2 "M" (by decide +kernel)) (by decide)

end Metamorph
