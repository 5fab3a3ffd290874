import Metamorph.Proofs.Assigning
import Metamorph.Proofs.TraceInverse

/-! Implicit resolution. Whatever a transformation assigns is what the expression came to, with each
object that a matched rule was applied to replaced by the first target of its first application. Lists
that the host nests in others are no collections, and stay as they are. -/
namespace Metamorph

mutual

/-- Objects replaced by what is picked for them, in nested collections too. -/
def Value.resolved (pick : Handle → Option Value) : Value → Value
  | .object h => (pick h).getD (.object h)
  | .collection kind items => .collectionOf kind (resolvedAll pick items)
  | v => v

def resolvedAll (pick : Handle → Option Value) : List Value → List Value
  | [] => []
  | v :: rest => v.resolved pick :: resolvedAll pick rest

end

mutual

/-- The value is none of the marked objects and has none among its items, in nested collections neither. -/
def Value.ClearOf (marked : Handle → Prop) : Value → Prop
  | .object h => ¬ marked h
  | .collection _ items => AllClearOf marked items
  | _ => True

def AllClearOf (marked : Handle → Prop) : List Value → Prop
  | [] => True
  | v :: rest => v.ClearOf marked ∧ AllClearOf marked rest

end

section
variable {marked : Handle → Prop} {pick : Handle → Option Value} {items : List Value}

theorem allClearOf_iff : AllClearOf marked items ↔ ∀ v ∈ items, v.ClearOf marked := by
  induction items with
  | nil => simp [AllClearOf]
  | cons v rest ih => rw [AllClearOf, ih, List.forall_mem_cons]

mutual

/-- Nothing marked is left where something that is not is picked for all that is. -/
theorem Value.resolved_clearOf
    (clear : ∀ h, ((pick h).getD (.object h)).ClearOf marked) :
    ∀ v : Value, (v.resolved pick).ClearOf marked
  | .object h => clear h
  | .collection kind items => by
    have all := allClearOf_iff.1 (resolvedAll_clearOf clear items)
    rw [Value.resolved, Value.collectionOf, Value.ClearOf, allClearOf_iff]
    intro v member
    split at member
    · exact all v ((Value.distinct_sublist _).subset member)
    · exact all v member
  | .undefined | .boolean _ | .integer _ | .real _ | .complex _ _ _ | .string _ | .tuple _
  | .type _ | .list _ _ | .thisModule _ => trivial

theorem resolvedAll_clearOf
    (clear : ∀ h, ((pick h).getD (.object h)).ClearOf marked) :
    ∀ items : List Value, AllClearOf marked (resolvedAll pick items)
  | [] => trivial
  | v :: rest => ⟨v.resolved_clearOf clear, resolvedAll_clearOf clear rest⟩

end

end

namespace Engine

mutual

theorem implicitTarget_eq {trace : Trace} {pick : Handle → Option Value}
    (object : ∀ h, trace.replacement (.object h) = .ok ((pick h).getD (.object h)))
    (other : ∀ v : Value, (∀ h, v.key ≠ (Value.object h).key) → trace.replacement v = .ok v) :
    ∀ v : Value, implicitTarget trace v = .ok (v.resolved pick)
  | .object h => object h
  | .collection kind items => by
    rw [implicitTarget, implicitTargets_eq object other items]
    rfl
  | .undefined | .boolean _ | .integer _ | .real _ | .string _ | .tuple _ | .type _ => rfl
  | .complex _ _ _ | .list _ _ | .thisModule _ => other _ fun h => by simp [Value.key]

theorem implicitTargets_eq {trace : Trace} {pick : Handle → Option Value}
    (object : ∀ h, trace.replacement (.object h) = .ok ((pick h).getD (.object h)))
    (other : ∀ v : Value, (∀ h, v.key ≠ (Value.object h).key) → trace.replacement v = .ok v) :
    ∀ items : List Value, implicitTargets trace items = .ok (resolvedAll pick items)
  | [] => rfl
  | v :: rest => by
    rw [implicitTargets, implicitTarget_eq object other v, implicitTargets_eq object other rest]
    rfl

end

variable {setting : Setting} {s u : Engine} {h : Handle}

/-- A matched rule is scheduled for the object. -/
def Transformed (s : Engine) (h : Handle) : Prop := ∃ a ∈ scheduled s, a.source = .object h

/-- What was created for the first output that is declared by the first rule scheduled for the object. -/
def firstTarget? (s : Engine) (h : Handle) : Option Value := do
  let (a, outputs) ← ((scheduled s).zip s.created).find? fun item => item.1.source.same (.object h)
  outputs.get? (← a.rule.outputs.head?).name

/-- An assignment of the one value hands over the other, where the state is as it is. -/
def Delivers (setting : Setting) (s : Engine) (v w : Value) : Prop :=
  (setting.settings.implicitResolution = true →
    w = asFeatureValue (v.resolved s.firstTarget?) ∧
      (v.resolved s.firstTarget?).ClearOf s.Transformed) ∧
  (setting.settings.implicitResolution = false → w = asFeatureValue v)

/-- What was created so far is linked, for objects that were there before. -/
structure Traced (size : Nat) (s : Engine) : Prop where
  recorded : Recorded s
  linked : (record s).Linked (· < size)
  fresh : ∀ g, s.Owns (.object g) → size ≤ g

/-- Everything is created and linked. -/
structure Furnished (size : Nat) (s : Engine) : Prop extends Traced size s where
  covered : s.created.length = (scheduled s).length

namespace Traced
variable {size : Nat} (traced : Traced size s)
include traced

/-- The links of matched rules for a value are those of what was created for it. -/
theorem find_link (v : Value) :
    ((s.trace.linksOf .matched).find? (·.isFor v)).map TraceLink.application =
      (((scheduled s).zip s.created).find? (·.1.source.same v)).map Application.made := by
  have same := congrArg (List.find? (·.2.1.same v)) traced.linked.matched
  rw [List.find?_map, List.find?_map] at same
  exact same

/-- The first scheduled application made a new object for its first output. -/
theorem first {item : Application × Outputs} (place : ((scheduled s).zip s.created).find?
      (·.1.source.same (.object h)) = some item) :
    ∃ name g rest, item.2 = (name, .object g) :: rest ∧ size ≤ g ∧
      s.firstTarget? h = some (.object g) := by
  obtain ⟨e, outputs⟩ := item
  obtain ⟨i, found⟩ := List.mem_iff_getElem?.1 (List.mem_of_find?_eq_some place)
  obtain ⟨turn, known⟩ := List.getElem?_zip_eq_some.1 found
  obtain ⟨names, -⟩ := traced.recorded.linkedAt turn known
  cases declared : e.rule.outputs with
  | nil => exact absurd declared e.rule.productive
  | cons out others =>
    cases outputs with
    | nil => simp [declared, Named.names] at names
    | cons output rest =>
      obtain ⟨name, v⟩ := output
      have present : (name, v) ∈ s.created.flatten :=
        List.mem_flatten.2 ⟨_, List.mem_of_getElem? known, List.mem_cons_self⟩
      obtain ⟨g, cls, object, inside, owns, -⟩ := traced.recorded.objects _ present
      obtain rfl : v = .object g := object
      have named : name = out.name := by
        rw [declared] at names
        exact (List.cons.inj names).1
      refine ⟨name, g, rest, rfl, traced.fresh g owns, ?_⟩
      simp [firstTarget?, place, declared, named, Named.get?]

theorem replacement_object (h : Handle) :
    s.trace.replacement (.object h) = .ok ((s.firstTarget? h).getD (.object h)) := by
  have same := traced.find_link (.object h)
  unfold Trace.replacement
  rw [Trace.matchedLink?_eq]
  cases place : ((scheduled s).zip s.created).find? (·.1.source.same (.object h)) with
  | none =>
    rw [place] at same
    have missing : s.firstTarget? h = none := by simp [firstTarget?, place]
    rw [Option.map_eq_none_iff.1 same, missing]
    rfl
  | some item =>
    obtain ⟨name, g, rest, outputs, -, target⟩ := traced.first place
    rw [place] at same
    obtain ⟨link, found, made⟩ := Option.map_eq_some_iff.1 same
    have linked : link.outputs = item.2 := congrArg (·.2.2) made
    rw [found, target]
    simp [TraceLink.defaultTarget?, linked, outputs]

/-- No matched rule is applied to anything but objects. -/
theorem replacement_other (v : Value) (other : ∀ h, v.key ≠ (Value.object h).key) :
    s.trace.replacement v = .ok v := by
  have missing : (s.trace.linksOf .matched).find? (·.isFor v) = none := by
    rw [← Option.map_eq_none_iff (f := TraceLink.application), traced.find_link, Option.map_eq_none_iff,
      List.find?_eq_none]
    intro item member same
    have scheduled : item.1 ∈ (record s).applications := (List.of_mem_zip member).1
    obtain ⟨h, object, -⟩ := traced.linked.sources item.1 scheduled
    rw [Value.same_iff, object] at same
    exact other h same.symm
  unfold Trace.replacement
  rw [Trace.matchedLink?_eq, missing]
  rfl

theorem implicitTarget (v : Value) :
    Engine.implicitTarget s.trace v = .ok (v.resolved s.firstTarget?) :=
  implicitTarget_eq traced.replacement_object traced.replacement_other v

end Traced

namespace Furnished
variable {size : Nat} {v w : Value} (furnished : Furnished size s)
include furnished

/-- What is picked is new, and nothing was there before that a rule was applied to. -/
theorem clear (h : Handle) : ((s.firstTarget? h).getD (.object h)).ClearOf s.Transformed := by
  have known {g : Handle} (transformed : s.Transformed g) : g < size := by
    obtain ⟨a, member, object⟩ := transformed
    obtain ⟨k, source, inside⟩ := furnished.linked.sources a member
    cases object.symm.trans source
    exact inside
  cases place : ((scheduled s).zip s.created).find? (·.1.source.same (.object h)) with
  | some item =>
    obtain ⟨-, g, -, -, new, target⟩ := furnished.first place
    rw [target]
    exact fun transformed => Nat.not_le.2 (known transformed) new
  | none =>
    have missing : s.firstTarget? h = none := by simp [firstTarget?, place]
    rw [missing]
    rintro ⟨a, member, object⟩
    obtain ⟨i, turn⟩ := List.mem_iff_getElem?.1 member
    have inside : i < s.created.length := furnished.covered ▸ (List.getElem?_eq_some_iff.1 turn).1
    have listed : (a, s.created[i]) ∈ (scheduled s).zip s.created :=
      List.mem_of_getElem? (List.getElem?_zip_eq_some.2 ⟨turn, List.getElem?_eq_getElem inside⟩)
    have other := List.find?_eq_none.1 place _ listed
    rw [object] at other
    exact other (Value.same_iff.2 rfl)

theorem delivers (hands : Hands setting s.trace v w) : Delivers setting s v w := by
  obtain ⟨resolved, replaced, rfl⟩ := hands
  constructor
  · intro implicit
    rw [if_pos implicit, furnished.implicitTarget] at replaced
    cases replaced
    exact ⟨rfl, v.resolved_clearOf furnished.clear⟩
  · intro plain
    rw [if_neg (by simp [plain])] at replaced
    cases replaced
    rfl

end Furnished

theorem Reaches.traced {setting : Setting} {t : Transformation} {store : Store}
    {log : List LogRecord} (given : setting.transformation = some t)
    (present : ∀ h ∈ t.sourceObjects store, h < store.entities.size)
    (reaches : Reaches setting t store log u) : Traced store.entities.size u := by
  obtain ⟨⟨_, career⟩, -⟩ := reaches.career given
  refine ⟨career.recorded .fresh, reaches.linked given present, fun g owns => ?_⟩
  rcases career.growth.owned owns with before | new
  · cases before
  · exact new

theorem Reaches.furnished {setting : Setting} {t : Transformation} {store : Store}
    {log : List LogRecord} (given : setting.transformation = some t)
    (present : ∀ h ∈ t.sourceObjects store, h < store.entities.size)
    (reaches : Reaches setting t store log u)
    (covered : u.created.length = (scheduled u).length) : Furnished store.entities.size u where
  toTraced := reaches.traced given present
  covered

end Engine

namespace Listing

def cls : Metaclass where
  name := "T"
  features := [{ name := "f", many := true }, { name := "k", many := true }]
  supertypes := []
  abstract := false

/-- The one object of the source has itself within a list in a list. -/
def objects : Store where
  entities := #[.instance cls [("k", .listed [.listed [.object 0]])]]
  models := #[⟨"source", .ofClasses "M" [cls], [0]⟩, ⟨"target", .ofClasses "M" [cls], []⟩]

def transformation (value : Expr) : Transformation where
  module := {
    name := "listing"
    sources := [("IN", "M")]
    targets := [("OUT", "M")]
    matched := [{
      name := "R", source := { name := "x", type := "T" }
      outputs := [{ name := "o", type := "T", bindings := [⟨"f", value⟩] }]
      loc := {}, productive := by simp, distinct := by simp, apart := by simp }]
    lazy := []
    called := []
    helpers := [] }
  sources := [("IN", { model := 0 })]
  targets := [("OUT", { model := 1 })]

/-- The inner list is assigned. -/
def inner : Transformation :=
  transformation (.arrow (.navigation (.variable "x" {}) "k" {}) (.query .first) none none {})

/-- A set of the source is assigned, within a sequence. -/
def nested : Transformation :=
  transformation (.collection .sequence [.collection .set [.variable "x" {}] {}] {})

theorem completes_of_passes (t : Transformation) (test : Engine → Bool)
    (passed : Looping.passes test (Engine.run (Looping.settingOf t) t { store := objects }) = true) :
    ∃ u, Completes (Looping.settingOf t) t objects [] u ∧ test u = true := by
  obtain ⟨_, u, ended, tested⟩ := Looping.of_passes passed
  exact ⟨u, completes_of_run ended, tested⟩

def isObject (h : Handle) : Value → Bool
  | .object g => g == h
  | _ => false

theorem eq_of_isObject {h : Handle} {v : Value} (is : isObject h v = true) : v = .object h := by
  cases v with
  | object g => rw [eq_of_beq is]
  | _ => cases is

/-- The feature has a list of the one object. -/
def isListed (h : Handle) : Result Value → Bool
  | .ok (.list _ [v]) => isObject h v
  | _ => false

theorem eq_of_isListed {h : Handle} {read : Result Value} (is : isListed h read = true) :
    ∃ identity, read = .ok (.list identity [.object h]) := by
  unfold isListed at is
  split at is
  · exact ⟨_, by rw [eq_of_isObject is]⟩
  · cases is

end Listing

end Metamorph
