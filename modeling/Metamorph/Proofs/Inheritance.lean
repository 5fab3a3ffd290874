import Metamorph.Proofs.RoundTrip

/-! Features that a class has from its supertypes. Where several classes declare a feature of one name, the walk
up that goes through the supertypes from left to right, each of them with all that is above it, decides
which one counts: the one that it meets first. -/
namespace Metamorph

namespace Metaclass
variable {c d : Metaclass} {f : MetaFeature} {name : String} {classes : List Metaclass}

mutual

/-- The class, and then what is met on the walk from each of its supertypes. A class that several of them
inherit from is met as often. -/
def walk : Metaclass → List Metaclass
  | ⟨name, features, supertypes, abstract⟩ => ⟨name, features, supertypes, abstract⟩ :: walkAll supertypes

def walkAll : List Metaclass → List Metaclass
  | [] => []
  | c :: rest => c.walk ++ walkAll rest

end

mutual

theorem mem_walk : ∀ c : Metaclass, d ∈ c.walk ↔ c.Inherits d
  | ⟨_, _, supertypes, _⟩ => by rw [walk, List.mem_cons, inherits_iff, mem_walkAll supertypes]

theorem mem_walkAll : ∀ classes : List Metaclass, d ∈ walkAll classes ↔ ∃ c ∈ classes, c.Inherits d
  | [] => by simp [walkAll]
  | c :: rest => by simp [walkAll, mem_walk c, mem_walkAll rest]

end

/-- The feature that the class itself declares under the name, the last one if there are several. -/
def declared? (c : Metaclass) (name : String) : Option MetaFeature :=
  c.features.reverse.find? (·.name == name)

theorem declared?_eq_some :
    c.declared? name = some f ↔ ∃ earlier later, c.features = earlier ++ f :: later ∧ f.name = name ∧
      ∀ g ∈ later, g.name ≠ name := by
  rw [declared?, List.find?_eq_some_iff_append]
  constructor
  · rintro ⟨named, later, earlier, split, others⟩
    refine ⟨earlier.reverse, later.reverse, ?_, by simpa using named, by simpa using others⟩
    simpa using congrArg List.reverse split
  · rintro ⟨earlier, later, split, named, others⟩
    refine ⟨by simpa using named, later.reverse, earlier.reverse, by simp [split], by simpa using others⟩

theorem declared?_eq_none : c.declared? name = none ↔ ∀ g ∈ c.features, g.name ≠ name := by
  simp [declared?]

mutual

/-- The search among the own features and then among those of the supertypes is a search along the walk. -/
theorem feature?_eq : ∀ c : Metaclass, c.feature? name = c.walk.findSome? (·.declared? name)
  | ⟨_, _, supertypes, _⟩ => by
    rw [feature?, walk, List.findSome?_cons, inherited?_eq supertypes, declared?]
    cases List.find? _ _ <;> rfl

theorem inherited?_eq :
    ∀ classes : List Metaclass, inherited? classes name = (walkAll classes).findSome? (·.declared? name)
  | [] => rfl
  | c :: rest => by
    rw [inherited?, walkAll, List.findSome?_append, feature?_eq c, inherited?_eq rest]

end

/-! The merged tables. -/

theorem inheritedFeatures_nodup (classes : List Metaclass) : (inheritedFeatures classes).names.Nodup := by
  induction classes with
  | nil => exact List.nodup_nil
  | cons c rest ih =>
    rw [inheritedFeatures]
    exact Named.update_nodup ih _

theorem allFeatures_nodup (c : Metaclass) : c.allFeatures.names.Nodup := by
  cases c
  rw [allFeatures]
  exact Named.update_nodup (inheritedFeatures_nodup _) _

theorem get?_declarations (features : List MetaFeature) (name : String) :
    Named.get? (features.map fun f => (f.name, f)) name = features.find? (·.name == name) := by
  induction features with
  | nil => rfl
  | cons f rest ih =>
    rw [List.map_cons, Named.get?_cons, ih, List.find?_cons]
    by_cases named : f.name = name
    · simp [named]
    · simp [beq_false_of_ne named, Ne.symm named]

mutual

/-- Of two tables that are merged the second one wins, so the first supertype comes last but for the class. -/
theorem get?_allFeatures : ∀ c : Metaclass, c.allFeatures.get? name = c.feature? name
  | ⟨_, features, supertypes, _⟩ => by
    rw [allFeatures, feature?, Named.get?_update, get?_inheritedFeatures supertypes, ← List.map_reverse,
      get?_declarations]

theorem get?_inheritedFeatures :
    ∀ classes : List Metaclass, (inheritedFeatures classes).get? name = inherited? classes name
  | [] => rfl
  | c :: rest => by
    rw [inheritedFeatures, inherited?, Named.get?_update, Named.get?_reverse (allFeatures_nodup c),
      get?_allFeatures c, get?_inheritedFeatures rest]

end

/-- Of the classes the feature is declared in the first one that declares any of the name, and there it is
the last of the name. -/
def Foremost (classes : List Metaclass) (name : String) (f : MetaFeature) : Prop :=
  ∃ before d after, classes = before ++ d :: after ∧ (∀ b ∈ before, ∀ g ∈ b.features, g.name ≠ name) ∧
    ∃ earlier later, d.features = earlier ++ f :: later ∧ f.name = name ∧ ∀ g ∈ later, g.name ≠ name

theorem findSome?_declared?_iff :
    classes.findSome? (·.declared? name) = some f ↔ Foremost classes name f := by
  simp only [List.findSome?_eq_some_iff, declared?_eq_some, declared?_eq_none, Foremost]
  constructor
  · rintro ⟨before, d, after, split, own, none⟩
    exact ⟨before, d, after, split, none, own⟩
  · rintro ⟨before, d, after, split, none, own⟩
    exact ⟨before, d, after, split, own, none⟩

end Metaclass

namespace Store
variable {store : Store} {h : Handle} {cls : Metaclass} {feature : MetaFeature} {f : String} {v : Value}

theorem get_declared (known : store.class? h = some cls) (found : cls.feature? f = some feature) :
    ∃ v, store.get h f = .ok v := by
  obtain ⟨values, entity⟩ := class?_eq_some.1 known
  rw [(get_of_class entity f).2, read, found]
  exact ⟨_, rfl⟩

/-- Nothing is refused for a feature of many values, and for one of a single value only a list. -/
theorem set_declared (known : store.class? h = some cls) (found : cls.feature? f = some feature)
    (takes : feature.many = true ∨ ∀ identity items, v ≠ .list identity items) :
    ∃ next, store.set h f v = .ok next ∧ next.Holds h f v := by
  have kept : ∃ w, stored cls f v = .ok w := by
    unfold stored
    rw [found]
    dsimp only
    split
    · exact ⟨asMany v, rfl⟩
    · rename_i single
      cases v with
      | list identity items => exact absurd rfl ((takes.resolve_left single) identity items)
      | _ => exact ⟨_, rfl⟩
  obtain ⟨w, kept⟩ := kept
  obtain ⟨next, accepted⟩ := set_goes known kept
  exact ⟨next, accepted, holds_set accepted⟩

theorem undeclared (known : store.class? h = some cls) (missing : cls.feature? f = none) :
    store.get h f = .error (.of (.unknownFeature cls.name f)) ∧
      ∀ v, store.set h f v = .error (.of (.unknownFeature cls.name f)) := by
  obtain ⟨values, entity⟩ := class?_eq_some.1 known
  constructor
  · rw [(get_of_class entity f).2, read, missing]
  · intro v
    apply set_refuses known
    simp [stored, missing]

end Store

open Metaclass in
/-- Features are inherited from the left. The feature that the merged table of a class has under a name is the
foremost one on the walk up, and there is one if and only if the class or one that it inherits from declares
it. So whatever a class declares can be read on each object of a class that inherits from it, and assigned
there, but for a list where the foremost feature has a single value; and nothing else can be. -/
theorem features_leftmost (c : Metaclass) (name : String) :
    c.allFeatures.get? name = c.feature? name ∧
    (∀ f, c.feature? name = some f ↔ Foremost c.walk name f) ∧
    (∀ d, d ∈ c.walk ↔ c.Inherits d) ∧
    ((c.feature? name).isSome = true ↔ ∃ d, c.Inherits d ∧ ∃ f ∈ d.features, f.name = name) ∧
    ∀ (store : Store) (h : Handle), store.class? h = some c →
      (∀ d, c.Inherits d → ∀ f ∈ d.features, f.name = name →
        (∃ v, store.get h name = .ok v) ∧
        ∀ v, c.isMany name = true ∨ (∀ identity items, v ≠ .list identity items) →
          ∃ next, store.set h name v = .ok next ∧ next.Holds h name v) ∧
      (¬ c.Declares name →
        store.get h name = .error (.of (.unknownFeature c.name name)) ∧
        ∀ v, store.set h name v = .error (.of (.unknownFeature c.name name))) := by
  refine ⟨get?_allFeatures c, ?_, fun d => mem_walk c, feature?_isSome_iff c, fun store h known => ⟨?_, ?_⟩⟩
  · intro f
    rw [feature?_eq, findSome?_declared?_iff]
  · intro d inherits f own named
    have declared : c.Declares name := ⟨d, inherits, f, own, named⟩
    obtain ⟨feature, found⟩ := Option.isSome_iff_exists.1 ((feature?_isSome_iff c).2 declared)
    have kind : c.isMany name = feature.many := by simp [isMany, found]
    refine ⟨Store.get_declared known found, fun v takes => ?_⟩
    rw [kind] at takes
    exact Store.set_declared known found takes
  · intro missing
    rw [← feature?_isSome_iff, Option.isSome_iff_ne_none, not_not] at missing
    exact Store.undeclared known missing

/-- The feature of the left supertype comes before that of the right one, and so does what is above both. -/
example :
    let top : Metaclass := ⟨"Top", [{ name := "n" }, { name := "m", many := true }], [], false⟩
    let left : Metaclass := ⟨"Left", [{ name := "n" }, { name := "n", default := .string "left" }], [top], false⟩
    let right : Metaclass := ⟨"Right", [{ name := "n" }, { name := "m" }], [top], false⟩
    let bottom : Metaclass := ⟨"Bottom", [], [left, right], false⟩
    (bottom.feature? "n").map (·.default) = some (.string "left") ∧
      (bottom.feature? "m").map (·.many) = some true := by
  exact ⟨rfl, rfl⟩

end Metamorph
