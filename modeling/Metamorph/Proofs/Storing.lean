import Metamorph.Model.Store
import Metamorph.Proofs.Scope

/-! What features of model objects read as after one of them is set and after an object is made. -/
namespace Metamorph

namespace Store
variable {store next : Store} {h g : Handle} {f feature : String} {v : Value} {cls : Metaclass}

def class? (store : Store) (h : Handle) : Option Metaclass :=
  match store.entities[h]? with
  | some (.instance cls _) => some cls
  | _ => none

def value? (store : Store) (h : Handle) (f : String) : Option Value :=
  match store.entities[h]? with
  | some (.instance _ values) => values.get? f
  | _ => none

/-- The feature reads as what is left of the value when it is stored. -/
def Holds (store : Store) (h : Handle) (f : String) (v : Value) : Prop :=
  ∃ cls w, store.class? h = some cls ∧ stored cls f v = .ok w ∧ store.get h f = .ok w

theorem class?_eq_some :
    store.class? h = some cls ↔ ∃ values, store.entities[h]? = some (.instance cls values) := by
  unfold class?
  split
  · rename_i found
    simp [found]
  · rename_i other
    simpa using fun values => other cls values

theorem get_of_class {values : Named Value}
    (known : store.entities[h]? = some (.instance cls values)) (f : String) :
    store.value? h f = values.get? f ∧ store.get h f = read cls values f := by
  simp [value?, get, known]

/-- What a feature reads as depends on the class and on what it was set to. -/
theorem get_eq_of_value (known : store.class? h = some cls) (same : next.class? h = some cls)
    (kept : next.value? h f = store.value? h f) : next.get h f = store.get h f := by
  obtain ⟨before, old⟩ := class?_eq_some.1 known
  obtain ⟨after, new⟩ := class?_eq_some.1 same
  rw [(get_of_class old f).1, (get_of_class new f).1] at kept
  rw [(get_of_class old f).2, (get_of_class new f).2]
  simp only [read, kept]

theorem set_eq_ok (accepted : store.set h f v = .ok next) :
    ∃ cls values w, store.entities[h]? = some (.instance cls values) ∧ stored cls f v = .ok w ∧
      next.entities = store.entities.set! h (.instance cls (values.set f w)) ∧
      next.models = store.models := by
  unfold set at accepted
  split at accepted
  · rename_i cls values known
    cases kept : stored cls f v with
    | error fault => simp [kept, Except.map] at accepted
    | ok w =>
      simp only [kept, Except.map, Except.ok.injEq] at accepted
      exact ⟨cls, values, w, known, kept, by rw [← accepted], by rw [← accepted]⟩
  · cases accepted

theorem entities_set (accepted : store.set h f v = .ok next) :
    ∃ cls values w, store.entities[h]? = some (.instance cls values) ∧ stored cls f v = .ok w ∧
      next.entities[h]? = some (.instance cls (values.set f w)) ∧
      ∀ g, h ≠ g → next.entities[g]? = store.entities[g]? := by
  obtain ⟨cls, values, w, known, kept, entities, -⟩ := set_eq_ok accepted
  have inside := (Array.getElem?_eq_some_iff.1 known).1
  refine ⟨cls, values, w, known, kept, ?_, ?_⟩
  · simp [entities, inside]
  · intro g other
    rw [entities, Array.set!_eq_setIfInBounds, Array.getElem?_setIfInBounds, if_neg other]

theorem set_goes {w : Value} (known : store.class? h = some cls) (kept : stored cls f v = .ok w) :
    ∃ next, store.set h f v = .ok next := by
  obtain ⟨values, found⟩ := class?_eq_some.1 known
  simp [set, found, kept, Except.map]

theorem set_refuses {fault : Fault} (known : store.class? h = some cls)
    (refused : stored cls f v = .error fault) : store.set h f v = .error fault := by
  obtain ⟨values, found⟩ := class?_eq_some.1 known
  simp [set, found, refused, Except.map]

theorem class?_set (accepted : store.set h f v = .ok next) (g : Handle) :
    next.class? g = store.class? g := by
  obtain ⟨cls, values, w, known, -, changed, others⟩ := entities_set accepted
  unfold class?
  by_cases same : h = g
  · subst same
    rw [changed, known]
  · rw [others g same]

theorem value?_set (accepted : store.set h f v = .ok next) (other : ¬ (h = g ∧ f = feature)) :
    next.value? g feature = store.value? g feature := by
  obtain ⟨cls, values, w, known, -, changed, others⟩ := entities_set accepted
  by_cases same : h = g
  · subst same
    have apart : feature ≠ f := fun equal => other ⟨rfl, equal.symm⟩
    rw [(get_of_class changed feature).1, (get_of_class known feature).1, Named.get?_set,
      if_neg apart]
  · unfold value?
    rw [others g same]

theorem holds_set (accepted : store.set h f v = .ok next) : next.Holds h f v := by
  obtain ⟨cls, values, w, known, kept, changed, -⟩ := entities_set accepted
  refine ⟨cls, w, class?_eq_some.2 ⟨_, changed⟩, kept, ?_⟩
  rw [(get_of_class changed f).2, read]
  cases declared : cls.feature? f with
  | none => simp [stored, declared] at kept
  | some feature => simp [Named.get?_set]

theorem create_eq_ok {model : Nat} {type : String}
    (created : store.create model type = .ok (h, next)) :
    ∃ m cls, store.models[model]? = some m ∧ h = store.entities.size ∧
      next.entities = store.entities.push (.instance cls []) ∧
      next.models = store.models.set! model { m with members := m.members ++ [h] } := by
  unfold create at created
  split at created
  · cases created
  · rename_i m known
    cases found : creatable m type with
    | error fault => simp [found, Except.map] at created
    | ok cls =>
      simp only [found, Except.map, Except.ok.injEq, add, Prod.mk.injEq] at created
      obtain ⟨rfl, rfl⟩ := created
      exact ⟨m, cls, known, rfl, rfl, rfl⟩

theorem entities_create {model : Nat} {type : String}
    (created : store.create model type = .ok (h, next)) :
    (∃ cls, next.entities[h]? = some (.instance cls [])) ∧
      ∀ g, g < h → next.entities[g]? = store.entities[g]? := by
  obtain ⟨m, cls, -, rfl, entities, -⟩ := create_eq_ok created
  refine ⟨⟨cls, by simp [entities]⟩, ?_⟩
  intro g earlier
  rw [entities, Array.getElem?_push, if_neg (Nat.ne_of_lt earlier)]

theorem class?_create {model : Nat} {type : String}
    (created : store.create model type = .ok (h, next)) (known : store.class? g = some cls) :
    next.class? g = some cls := by
  obtain ⟨values, found⟩ := class?_eq_some.1 known
  have inside := (Array.getElem?_eq_some_iff.1 found).1
  obtain ⟨m, made, -, rfl, -, -⟩ := create_eq_ok created
  exact class?_eq_some.2 ⟨values, by rw [(entities_create created).2 g inside, found]⟩

/-- A new object has no values. -/
theorem value?_create {model : Nat} {type : String}
    (created : store.create model type = .ok (h, next)) :
    next.value? g f = store.value? g f := by
  obtain ⟨m, made, -, -, entities, -⟩ := create_eq_ok created
  unfold value?
  rw [entities, Array.getElem?_push]
  by_cases new : g = store.entities.size
  · subst new
    simp [Named.get?]
  · rw [if_neg new]

theorem size_create {model : Nat} {type : String}
    (created : store.create model type = .ok (h, next)) :
    h = store.entities.size ∧ next.entities.size = h + 1 := by
  obtain ⟨m, made, -, rfl, entities, -⟩ := create_eq_ok created
  simp [entities]

/-- The new object comes last in its model, and no other model lists it. -/
theorem members_create {model : Nat} {type : String}
    (created : store.create model type = .ok (h, next)) (other : Nat) :
    next.members other = store.members other ++ if other = model then [h] else [] := by
  obtain ⟨m, made, known, -, -, models⟩ := create_eq_ok created
  obtain ⟨inside, found⟩ := Array.getElem?_eq_some_iff.1 known
  unfold members
  rw [models, Array.set!_eq_setIfInBounds, Array.getElem?_setIfInBounds]
  by_cases same : other = model
  · subst same
    simp [inside, found]
  · simp [same, Ne.symm same]

theorem members_set (accepted : store.set h f v = .ok next) (model : Nat) :
    next.members model = store.members model := by
  obtain ⟨cls, values, w, -, -, -, models⟩ := set_eq_ok accepted
  rw [members, models, members]

theorem size_set (accepted : store.set h f v = .ok next) :
    next.entities.size = store.entities.size := by
  obtain ⟨cls, values, w, -, -, entities, -⟩ := set_eq_ok accepted
  simp [entities]

end Store

end Metamorph
