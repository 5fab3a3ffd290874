import Metamorph.Proofs.Ancestry
import Metamorph.Proofs.Frame
import Metamorph.Proofs.ImplicitResolution
import Metamorph.Proofs.Success

/-! What is assigned can be read again. A feature that the class of an object has, or one that it inherits
from, takes any value if it is one of many values, and else any but several values at once; it reads as
the value that was assigned, and nothing else reads in another way than before. A list that the host
nests in others counts as several values, though it is no collection. -/
namespace Metamorph

namespace Metaclass
variable {c d : Metaclass} {name : String}

/-- The class or one that it inherits from has a feature of the name. -/
def Declares (c : Metaclass) (name : String) : Prop :=
  ∃ d, c.Inherits d ∧ ∃ f ∈ d.features, f.name = name

/-- The feature of the name is one of many values. -/
def isMany (c : Metaclass) (name : String) : Bool := (c.feature? name).any (·.many)

theorem inherits_iff : c.Inherits d ↔ d = c ∨ ∃ b ∈ c.supertypes, b.Inherits d := by
  constructor
  · rintro ⟨n, path⟩
    cases path with
    | here c => exact .inl rfl
    | up step rest => exact .inr ⟨_, step, _, rest⟩
  · rintro (rfl | ⟨b, step, n, rest⟩)
    · exact .refl d
    · exact ⟨n + 1, .up step rest⟩

theorem declares_iff :
    c.Declares name ↔ (∃ f ∈ c.features, f.name = name) ∨ ∃ b ∈ c.supertypes, b.Declares name := by
  constructor
  · rintro ⟨d, inherits, own⟩
    rcases inherits_iff.1 inherits with rfl | ⟨b, step, above⟩
    · exact .inl own
    · exact .inr ⟨b, step, d, above, own⟩
  · rintro (own | ⟨b, step, d, above, own⟩)
    · exact ⟨c, .refl c, own⟩
    · exact ⟨d, inherits_iff.2 (.inr ⟨b, step, above⟩), own⟩

mutual

theorem feature?_isSome_iff : ∀ c : Metaclass, (c.feature? name).isSome = true ↔ c.Declares name
  | ⟨_, features, supertypes, _⟩ => by
    rw [feature?, Option.isSome_or, Bool.or_eq_true, inherited?_isSome_iff supertypes, declares_iff]
    simp

theorem inherited?_isSome_iff :
    ∀ classes : List Metaclass, (inherited? classes name).isSome = true ↔
      ∃ c ∈ classes, c.Declares name
  | [] => by simp [inherited?]
  | c :: rest => by
    rw [inherited?, Option.isSome_or, Bool.or_eq_true, feature?_isSome_iff c,
      inherited?_isSome_iff rest]
    simp

end

theorem declares_of_isMany (many : c.isMany name = true) : c.Declares name := by
  obtain ⟨f, found, -⟩ := (Option.any_eq_true _ _).1 many
  exact (feature?_isSome_iff c).1 (by rw [found]; rfl)

end Metaclass

/-- Several values at once. -/
def Value.isMultiple : Value → Bool
  | .collection _ _ | .list _ _ => true
  | _ => false

/-- What a feature of many values has of the value. -/
def Value.entries : Value → List Value
  | .collection _ items | .list _ items => items
  | .undefined => []
  | v => [v]

namespace Store
variable {store next : Store} {h : Handle} {f feature : String} {v w : Value} {cls : Metaclass}

theorem asMany_asFeatureValue (v : Value) :
    asMany (Engine.asFeatureValue v) = .listed v.entries := by
  cases v <;> rfl

/-- What a class keeps of a value, or why it does not. -/
inductive Taking (cls : Metaclass) (f : String) (v : Value) : Result Value → Prop
  | unknown (missing : ¬ cls.Declares f) : Taking cls f v (.error (.of (.unknownFeature cls.name f)))
  | many (declared : cls.Declares f) (many : cls.isMany f = true) : Taking cls f v (.ok (.listed v.entries))
  | single (declared : cls.Declares f) (single : cls.isMany f = false) (alone : v.isMultiple = false) :
      Taking cls f v (.ok v)
  | multiple (declared : cls.Declares f) (single : cls.isMany f = false) (several : v.isMultiple = true) :
      Taking cls f v (.error (.typeMismatch "single value" (toString v.entries.length ++ " values")
        (cls.name ++ "." ++ f)))

theorem stored_taking (cls : Metaclass) (f : String) (v : Value) :
    Taking cls f v (stored cls f (Engine.asFeatureValue v)) := by
  unfold stored
  cases found : cls.feature? f with
  | none =>
    refine .unknown fun declared => ?_
    simp [← Metaclass.feature?_isSome_iff, found] at declared
  | some feature =>
    have declared : cls.Declares f := (Metaclass.feature?_isSome_iff cls).1 (by rw [found]; rfl)
    have kind : cls.isMany f = feature.many := by simp [Metaclass.isMany, found]
    dsimp only
    cases many : feature.many with
    | true =>
      rw [if_pos rfl, asMany_asFeatureValue]
      exact .many declared (kind.trans many)
    | false =>
      rw [if_neg Bool.false_ne_true]
      have single := kind.trans many
      cases v with
      | collection | list => exact .multiple declared single rfl
      | _ => exact .single declared single rfl

theorem readFeature_of_class (known : store.class? h = some cls) (f : String) :
    store.readFeature (.object h) f = store.get h f := by
  obtain ⟨values, found⟩ := class?_eq_some.1 known
  simp only [readFeature, get, found]

theorem navigate_set (known : store.class? h = some cls) (kept : stored cls f v = .ok w)
    (accepted : store.set h f v = .ok next) : next.navigate (.object h) f = .ok (asSequence w) := by
  obtain ⟨cls', w', same, stays, read⟩ := holds_set accepted
  rw [class?_set accepted, known] at same
  cases same
  cases kept.symm.trans stays
  have known' : next.class? h = some cls := (class?_set accepted h).trans known
  rw [navigate, readFeature_of_class known', read]
  rfl

/-- Nothing but the feature that is set reads in another way. -/
theorem navigate_set_other (known : store.class? h = some cls)
    (accepted : store.set h f v = .ok next) {x : Value} (other : ¬ (x = .object h ∧ feature = f)) :
    next.navigate x feature = store.navigate x feature := by
  have known' : next.class? h = some cls := (class?_set accepted h).trans known
  unfold navigate
  congr 1
  cases x with
  | object g =>
    by_cases same : h = g
    · subst same
      have apart : ¬ (h = h ∧ f = feature) := fun equal => other ⟨rfl, equal.2.symm⟩
      rw [readFeature_of_class known', readFeature_of_class known,
        get_eq_of_value known known' (value?_set accepted apart)]
    · obtain ⟨_, _, _, -, -, -, others⟩ := entities_set accepted
      exact readFeature_object (others g same) feature
  | _ => rfl

end Store

/-! The engine's own objects. -/

/-- Objects keep their classes, and whatever the engine made in between has one. -/
structure Typing (s u : Engine) : Prop where
  classes : ∀ {h cls}, s.store.class? h = some cls → u.store.class? h = some cls
  owned : ∀ {h}, u.Owns (.object h) → s.Owns (.object h) ∨ (u.store.class? h).isSome = true

namespace Typing
variable {s u w : Engine} {h : Handle}

theorem same (store : u.store = s.store) (owners : u.owners = s.owners) : Typing s u where
  classes known := by rw [store, known]
  owned owns := .inl (owns.mono (owners ▸ List.suffix_rfl))

theorem trans (first : Typing s u) (rest : Typing u w) : Typing s w where
  classes known := rest.classes (first.classes known)
  owned owns := by
    rcases rest.owned owns with before | typed
    · refine (first.owned before).imp_right fun typed => ?_
      obtain ⟨cls, known⟩ := Option.isSome_iff_exists.1 typed
      rw [rest.classes known]
      rfl
    · exact .inr typed

/-- Typing between two states is one between any that agree with them on the models and the owners. -/
theorem between {a b : Engine} (typing : Typing a b) (before : a.store = s.store ∧ a.owners = s.owners)
    (behind : u.store = b.store ∧ u.owners = b.owners) : Typing s u :=
  ((same before.1 before.2).trans typing).trans (same behind.1 behind.2)

theorem of_starting {rule : String} {argument : Value} {outputs : Outputs} {trace : Trace}
    (typing : Typing (Engine.starting rule argument outputs trace s) u) : Typing s u :=
  typing.between ⟨rfl, rfl⟩ ⟨rfl, rfl⟩

theorem owning {provider : Provider} {type : String} {store : Store}
    (created : s.store.create provider.model type = .ok (h, store)) :
    Typing s (Engine.owning h provider store s) where
  classes known := Store.class?_create created known
  owned {g} owns := by
    by_cases new : g = h
    · subst new
      obtain ⟨⟨cls, made⟩, -⟩ := Store.entities_create created
      exact .inr (Option.isSome_iff_exists.2 ⟨cls, Store.class?_eq_some.2 ⟨[], made⟩⟩)
    · left
      change (List.lookup g ((h, provider) :: s.owners)).isSome = true at owns
      rwa [List.lookup_cons, beq_false_of_ne new] at owns

theorem write {f : String} {v : Value} {store : Store} (accepted : s.store.set h f v = .ok store) :
    Typing s { s with store } where
  classes known := (Store.class?_set accepted _).trans known
  owned owns := .inl owns

end Typing

namespace Engine
open Run
variable {setting : Setting} {t : Transformation} {s u : Engine} {done : List Event}

theorem Makes.typing (makes : Makes t s u) : Typing s u := by
  induction makes with
  | idle idle => exact .same idle.store idle.owners
  | trans _ _ first rest => exact first.trans rest
  | make _ created => exact .owning created

theorem Trail.typing (trail : Trail setting t done s u) : Typing s u := by
  induction trail with
  | idle idle => exact .same idle.store idle.owners
  | trans _ _ first rest => exact first.trans rest
  | counted _ | deferring _ | replayed | hit _ _ => exact .same rfl rfl
  | made makes => exact makes.typing
  | write _ _ accepted => exact .write accepted
  | assignment _ _ _ inner | application _ inner | called _ inner =>
    exact inner.between ⟨rfl, rfl⟩ ⟨rfl, rfl⟩
  | unmade _ _ makes => exact makes.typing.between ⟨rfl, rfl⟩ ⟨rfl, rfl⟩
  | broken _ _ makes _ _ _ inner | filled _ _ makes _ _ _ _ _ inner =>
    exact (makes.typing.trans inner.of_starting).between ⟨rfl, rfl⟩ ⟨rfl, rfl⟩

theorem Career.typing (career : Career setting t done s u) : Typing s u := by
  induction career with
  | trail trail => exact trail.typing
  | trans _ _ first rest => exact first.trans rest
  | advanced | planned _ => exact .same rfl rfl
  | matched _ makes _ _ => exact makes.typing.between ⟨rfl, rfl⟩ ⟨rfl, rfl⟩

/-- Whatever the engine owns is an object of a class. -/
theorem Reaches.typed {store : Store} {log : List LogRecord} {h : Handle}
    (given : setting.transformation = some t) (reaches : Reaches setting t store log u)
    (owns : u.Owns (.object h)) : ∃ cls, u.store.class? h = some cls := by
  obtain ⟨⟨_, career⟩, -⟩ := reaches.career given
  rcases career.typing.owned owns with before | typed
  · cases before
  · exact Option.isSome_iff_exists.1 typed

/-- The value, with objects replaced by what rules made of them unless that is turned off. -/
def replaced (setting : Setting) (s : Engine) (v : Value) : Value :=
  if setting.settings.implicitResolution then v.resolved s.firstTarget? else v

theorem Traced.replaced {size : Nat} (traced : Traced size s) (setting : Setting) (v : Value) :
    (if setting.settings.implicitResolution then Engine.implicitTarget s.trace v else .ok v) =
      .ok (Engine.replaced setting s v) := by
  unfold Engine.replaced
  split
  · exact traced.implicitTarget v
  · rfl

theorem assign_failure {h : Handle} {feature : String} {v w : Value} {provider : Provider}
    {fault : Fault} (owned : s.ownerOf? (.object h) = some provider)
    (resolved : (if setting.settings.implicitResolution then implicitTarget s.trace v else .ok v) =
      .ok w)
    (refused : provider.assign s.store h feature (asFeatureValue w) = .error fault) :
    assign setting (.object h) feature v s =
      .failure (fault.ofCollaborator ("set " ++ feature)) s := by
  unfold assign
  rw [state_bind, owned]
  have handed : (ofResult (if setting.settings.implicitResolution then implicitTarget s.trace v
      else .ok v) : Run Engine Value) s = .value w s := ofResult_eq_value.2 ⟨resolved, rfl⟩
  refine (bind_of_value handed).trans (bind_of_failure ?_)
  rw [refused]
  rfl

end Engine

namespace Listing

/-- The first object was transformed to the second, which takes many values. -/
def furnished (u : Engine) : Bool :=
  (u.ownerOf? (.object 1)).any (·.refusals.assign.isNone) &&
    (u.store.class? 1).any (·.isMany "f") && (u.firstTarget? 0).any (isObject 1)

theorem of_furnished {u : Engine} (is : furnished u = true) :
    (∃ provider, u.ownerOf? (.object 1) = some provider ∧ provider.refusals.assign = none) ∧
      (∃ cls, u.store.class? 1 = some cls ∧ cls.isMany "f" = true) ∧
      u.firstTarget? 0 = some (.object 1) := by
  simp only [furnished, Bool.and_eq_true, Option.any_eq_true, Option.isNone_iff_eq_none] at is
  obtain ⟨⟨owned, many⟩, v, first, made⟩ := is
  exact ⟨owned, many, by rw [first, eq_of_isObject made]⟩

/-- The feature has a Sequence of the one object. -/
def isAlone (h : Handle) : Result Value → Bool
  | .ok (.collection .sequence [v]) => isObject h v
  | _ => false

theorem eq_of_isAlone {h : Handle} {read : Result Value} (is : isAlone h read = true) :
    read = .ok (.sequence [.object h]) := by
  unfold isAlone at is
  split at is
  · rw [eq_of_isObject is]
    rfl
  · cases is

end Listing

end Metamorph
