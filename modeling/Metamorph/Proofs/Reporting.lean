import Metamorph.Proofs.Nesting
import Metamorph.Proofs.RealFree
import Metamorph.Proofs.Stages

/-! States that hold no Real. A run is safe if from such a state it comes to what is asked of it and to
another such state, or fails with an error of the engine. -/
namespace Metamorph
variable {v : Value}

/-- No feature reads as a Real by default. -/
def Metaclass.RealFree (cls : Metaclass) : Prop :=
  ∀ name f, cls.feature? name = some f → f.default.RealFree

/-- No Real is read from the object, whatever is set and whatever is left as it is. -/
def Entity.RealFree : Entity → Prop
  | .instance cls values => cls.RealFree ∧ values.Each Value.RealFree
  | .host object => object.attributes.Each Value.RealFree

structure Store.RealFree (store : Store) : Prop where
  entity : ∀ {h : Handle} {entity : Entity}, store.entities[h]? = some entity → entity.RealFree
  model : ∀ {i : Nat} {m : Model}, store.models[i]? = some m →
    ∀ {name cls}, m.metamodel.class? name = some cls → cls.RealFree

theorem Fault.ofCollaborator_reported {fault : Fault} (target : String)
    (raised : fault.raisable = true) : (fault.ofCollaborator target).reported = true := by
  cases fault <;> first | rfl | exact raised

theorem Fault.locate_reported {fault : Fault} (span : Span) (reported : fault.reported = true) :
    (fault.locate span).reported = true := by
  cases fault <;> exact reported

theorem Environment.lookup_reports {env : Environment} {name : String} {span : Span}
    (each : env.Each Value.RealFree) : Reports (·.RealFree) (env.lookup name span) := by
  unfold Environment.lookup
  split
  · exact .ok (each.get? ‹_›)
  · exact .error rfl

theorem asSequence_realFree (free : v.RealFree) : (asSequence v).RealFree := by
  unfold asSequence
  split
  · exact Value.collection_realFree (allRealFree_iff.1 free)
  · exact free

theorem Engine.asFeatureValue_realFree (free : v.RealFree) : (asFeatureValue v).RealFree := by
  unfold asFeatureValue
  split
  · exact allRealFree_iff.2 free.each
  · exact free

namespace Store.RealFree
variable {store : Store} {h : Handle} {feature type : String} {model : Nat}

theorem asMany_realFree (free : v.RealFree) : (asMany v).RealFree := by
  cases v with
  | list _ items => exact free
  | undefined => exact allRealFree_iff.2 (List.forall_mem_nil _)
  | _ => exact allRealFree_iff.2 (List.forall_mem_singleton.2 free)

theorem stored_answers {cls : Metaclass} (free : v.RealFree) :
    Answers (·.RealFree) (stored cls feature v) := by
  unfold stored
  split
  · exact .error rfl
  · split
    · exact .ok (asMany_realFree free)
    · split
      · exact .error rfl
      · exact .ok free

theorem textOf_reports {cited : Bool} : Reports (fun _ => True) (store.textOf cited v) := by
  unfold textOf
  split
  · exact .error rfl
  · exact .ok trivial

theorem hasFeature_answers : Answers (fun _ => True) (store.hasFeature v feature) := by
  unfold Store.hasFeature
  split
  · split
    · exact .ok trivial
    · split
      · exact .error rfl
      · exact .ok trivial
    · exact .ok trivial
  · split <;> exact .ok trivial

variable (free : store.RealFree)
include free

theorem readFeature (own : v.RealFree) : Answers (·.RealFree) (store.readFeature v feature) := by
  unfold Store.readFeature
  split
  · split
    · rename_i cls values found
      obtain ⟨defaults, each⟩ := free.entity found
      unfold read
      split
      · exact .error rfl
      · rename_i f declared
        refine .ok ?_
        split
        · exact each.getD (allRealFree_iff.2 (List.forall_mem_nil _))
        · exact each.getD (defaults feature f declared)
    · rename_i object found
      unfold HostObject.read
      split
      · exact .error rfl
      · split
        · exact .ok (Named.Each.get? (free.entity found) ‹_›)
        · exact .error rfl
    · exact .error rfl
  · unfold hostAttribute
    split
    · exact own.elim
    · exact own.elim
    · exact .error rfl

theorem navigate (own : v.RealFree) : Answers (·.RealFree) (store.navigate v feature) :=
  (free.readFeature own).map fun _ => asSequence_realFree

theorem set (own : v.RealFree) : Answers Store.RealFree (store.set h feature v) := by
  unfold Store.set
  split
  · rename_i cls values found
    refine (stored_answers own).map fun w kept => ?_
    obtain ⟨defaults, each⟩ := free.entity found
    constructor
    · intro g entity known
      rw [Array.set!_eq_setIfInBounds, Array.getElem?_setIfInBounds] at known
      split at known
      · split at known
        · cases known
          exact ⟨defaults, each.set kept⟩
        · cases known
      · exact free.entity known
    · exact free.model
  · exact .error rfl

theorem create : Answers (fun made => made.2.RealFree) (store.create model type) := by
  unfold Store.create
  split
  · exact .error rfl
  · rename_i m found
    have chosen : Answers Metaclass.RealFree (creatable m type) := by
      unfold creatable
      dsimp only
      split
      · exact .error rfl
      · split
        · exact .error rfl
        · split
          · exact .error rfl
          · exact .ok (free.model found ‹_›)
    refine chosen.map fun cls defaults => ?_
    constructor
    · intro h entity known
      simp only [add, Array.getElem?_push] at known
      split at known
      · cases known
        exact ⟨defaults, List.forall_mem_nil _⟩
      · exact free.entity known
    · intro i m' known name cls' declared
      simp only [add, Array.set!_eq_setIfInBounds, Array.getElem?_setIfInBounds] at known
      split at known
      · split at known
        · cases known
          exact free.model found declared
        · cases known
      · exact free.model known declared

end Store.RealFree

/-- What a link leads to is no Real, and a matched rule made something. -/
structure TraceLink.RealFree (link : TraceLink) : Prop where
  outputs : link.outputs.Each Value.RealFree
  productive : link.kind = .matched → link.outputs ≠ []

namespace Trace
variable {trace : Trace} {store : Store} {source : Value} {output : String}

theorem resolve_reports (links : ∀ link ∈ trace.links, link.RealFree) {rule : Option String} :
    Reports (·.RealFree) (trace.resolve store source output rule) := by
  unfold resolve
  split
  · exact Store.RealFree.textOf_reports.bind fun _ _ => .error rfl
  · rename_i link only
    have member : link ∈ trace.candidates source output rule := only ▸ List.mem_singleton_self link
    have known : link ∈ trace.links := (mem_linksFor.1 (List.mem_of_mem_filter member)).1
    exact .ok ((links link known).outputs.getD trivial)
  · exact .error rfl

theorem replacement_reports (links : ∀ link ∈ trace.links, link.RealFree) (own : source.RealFree) :
    Reports (·.RealFree) (trace.replacement source) := by
  unfold replacement
  cases found : trace.matchedLink? source with
  | none => exact .ok own
  | some link =>
    have known := links link (mem_linksFor.1 (List.mem_of_find?_eq_some found)).1
    have matched : link.kind = .matched := by simpa using List.find?_some found
    -- Without an output the first one could not be asked for: `productive` excludes that.
    obtain ⟨entry, rest, outputs⟩ := List.exists_cons_of_ne_nil (known.productive matched)
    have first : link.defaultTarget? = some entry.2 := by
      simp [TraceLink.defaultTarget?, outputs]
    simp only [Option.map_some, first]
    split
    · exact .ok own
    · exact .ok own
    · rename_i same
      cases same
      exact .ok (known.outputs entry (outputs ▸ List.mem_cons_self))
    · rename_i none
      cases none

end Trace

mutual

theorem Engine.implicitTarget_reports {trace : Trace}
    (links : ∀ link ∈ trace.links, link.RealFree) :
    ∀ v : Value, v.RealFree → Reports (·.RealFree) (implicitTarget trace v)
  | .collection kind items, own => by
    rw [implicitTarget]
    exact (implicitTargets_reports links items own.each).bind fun _ all =>
      .ok (Value.collectionOf_realFree all)
  | .undefined, own | .boolean _, own | .integer _, own | .real _, own | .complex _ _ _, own
  | .string _, own | .tuple _, own | .type _, own | .list _ _, own | .object _, own
  | .thisModule _, own => by
    unfold implicitTarget
    first
      | exact .ok own
      | exact Trace.replacement_reports links own

theorem Engine.implicitTargets_reports {trace : Trace}
    (links : ∀ link ∈ trace.links, link.RealFree) :
    ∀ items : List Value, (∀ v ∈ items, v.RealFree) →
      Reports (fun others => ∀ v ∈ others, v.RealFree) (implicitTargets trace items)
  | [], _ => .ok (List.forall_mem_nil _)
  | v :: rest, own => by
    obtain ⟨first, others⟩ := List.forall_mem_cons.1 own
    exact (Engine.implicitTarget_reports links v first).bind fun _ own =>
      (Engine.implicitTargets_reports links rest others).bind fun _ all =>
        .ok (List.forall_mem_cons.2 ⟨own, all⟩)

end

/-- A model that refuses does so as collaborators do. -/
def Refusals.Raisable (refusals : Refusals) : Prop :=
  ∀ fault, refusals.objects = some fault ∨ refusals.create = some fault ∨
    refusals.assign = some fault → fault.raisable = true

theorem Provider.refuse_answers {α : Type} {post : α → Prop} {refusal : Option Fault}
    {answer : Result α} (raisable : ∀ fault, refusal = some fault → fault.raisable = true)
    (answers : Answers post answer) : Answers post (refuse refusal answer) := by
  cases refusal with
  | some fault => exact .error (raisable fault rfl)
  | none => exact answers

/-- The results that a binding keeps are no Reals. -/
def BindingFrame.RealFree (frame : BindingFrame) : Prop :=
  (∀ call ∈ frame.calls, call.result.RealFree) ∧ ∀ call ∈ frame.replay, call.result.RealFree

namespace BindingFrame.RealFree
variable {frame next : BindingFrame}

theorem empty : BindingFrame.RealFree {} := ⟨nofun, nofun⟩

theorem take? {rule : String} {args : List Value} {call : CalledResult} (free : frame.RealFree)
    (taken : frame.take? rule args = some (call, next)) : call.result.RealFree ∧ next.RealFree := by
  obtain ⟨found, picked, same⟩ := Option.map_eq_some_iff.1 taken
  cases same
  exact ⟨free.2 _ (List.mem_of_find?_eq_some picked), free.1,
    fun call member => free.2 call (List.mem_of_mem_eraseP member)⟩

end BindingFrame.RealFree

/-- What the setting brings along is within the language without Reals: helpers and rules are written in
it, and native operations and models keep to it and fail as collaborators do. -/
structure Setting.RealFree (setting : Setting) : Prop where
  natives : ∀ {name native}, setting.helpers.natives.get? name = some native →
    ∀ (store : Store) args, (∀ v ∈ args, v.RealFree) →
      Answers (·.RealFree) (native.run store.cite args)
  helpers : ∀ {helper}, Engine.HasHelper setting helper → helper.body.RealFree
  rules : ∀ {t}, setting.transformation = some t → ∀ e ∈ t.module.expressions, e.RealFree
  models : ∀ {t}, setting.transformation = some t →
    ∀ entry ∈ t.models, entry.2.refusals.Raisable

namespace Engine
variable {α β : Type}

/-- No Real is in the state, nor did its objects come from models that fail in other ways. -/
structure RealFree (s : Engine) : Prop where
  store : s.store.RealFree
  owners : ∀ entry ∈ s.owners, entry.2.refusals.Raisable
  attributes : s.attributes.Each Value.RealFree
  links : ∀ link ∈ s.trace.links, link.RealFree
  cache : ∀ entry ∈ s.cache.entries, entry.outputs.Each Value.RealFree
  frames : ∀ frame ∈ s.frames, frame.RealFree

theorem RealFree.start {store : Store} {log : List LogRecord} (free : store.RealFree) :
    Engine.RealFree { store, log } where
  store := free
  owners := List.forall_mem_nil _
  attributes := List.forall_mem_nil _
  links := List.forall_mem_nil _
  cache := List.forall_mem_nil _
  frames := List.forall_mem_nil _

/-- What a safe run comes to: a value with the property and a state without Reals, or an error of the
engine. -/
inductive Orderly (post : α → Prop) : Outcome Engine α → Prop
  | value {a s} (holds : post a) (kept : s.RealFree) : Orderly post (.value a s)
  | failure {fault s} (reported : fault.reported = true) : Orderly post (.failure fault s)
  | exhausted : Orderly post .exhausted

def Safe (post : α → Prop) (run : Run Engine α) : Prop := ∀ s, s.RealFree → Orderly post (run s)

namespace Safe
variable {post : α → Prop} {next : β → Prop} {run other : Run Engine α}

theorem pure {a : α} (holds : post a) : Safe post (Pure.pure a) := fun _ kept => .value holds kept

theorem fail {fault : Fault} (reported : fault.reported = true) : Safe post (Run.fail fault) :=
  fun _ _ => .failure reported

theorem cutOff : Safe post Run.cutOff := fun _ _ => .exhausted

theorem bind {f : α → Run Engine β} (first : Safe post run) (rest : ∀ a, post a → Safe next (f a)) :
    Safe next (run >>= f) := by
  intro s kept
  have inner := first s kept
  change Orderly next (Run.bind run f s)
  unfold Run.bind
  generalize run s = outcome at inner ⊢
  cases inner with
  | value holds kept => exact rest _ holds _ kept
  | failure reported => exact .failure reported
  | exhausted => exact .exhausted

theorem state {f : Engine → Run Engine β} (rest : ∀ s, s.RealFree → Safe next (f s)) :
    Safe next (Run.state >>= f) :=
  fun s kept => rest s kept s kept

theorem ofResult {result : Result α} (reports : Reports post result) :
    Safe post (Run.ofResult result) := by
  intro s kept
  cases reports with
  | ok holds => exact .value holds kept
  | error is => exact .failure is

theorem reading {f : Engine → Result α} (reports : ∀ s, s.RealFree → Reports post (f s)) :
    Safe post (Run.state >>= fun s => Run.ofResult (f s)) :=
  .state fun s kept => .ofResult (reports s kept)

theorem mapFault {change : Fault → Fault} (safe : Safe post run)
    (kept : ∀ {fault : Fault}, fault.reported = true → (change fault).reported = true) :
    Safe post (Run.mapFault change run) := by
  intro s free
  have inner := safe s free
  unfold Run.mapFault
  generalize run s = outcome at inner ⊢
  cases inner with
  | value holds free => exact .value holds free
  | failure reported => exact .failure (kept reported)
  | exhausted => exact .exhausted

theorem collaborate {target : String} {answer : Result α} (answers : Answers post answer) :
    Safe post (collaborate target answer) := by
  intro s kept
  cases answers with
  | ok holds => exact .value holds kept
  | error is => exact .failure (Fault.ofCollaborator_reported target is)

theorem asking {f : Engine → Result α} {target : String}
    (answers : ∀ s, s.RealFree → Answers post (f s)) :
    Safe post (Run.state >>= fun s => Engine.collaborate target (f s)) :=
  .state fun s kept => .collaborate (answers s kept)

theorem modify {change : Engine → Engine} (kept : ∀ s, s.RealFree → (change s).RealFree) :
    Safe (fun _ => True) (Run.modify change) :=
  fun s free => .value trivial (kept s free)

theorem ensuring {change : Engine → Engine} (safe : Safe post run)
    (kept : ∀ s, s.RealFree → (change s).RealFree) : Safe post (Run.ensuring change run) := by
  intro s free
  have inner := safe s free
  unfold Run.ensuring
  generalize run s = outcome at inner ⊢
  cases inner with
  | value holds free => exact .value holds (kept _ free)
  | failure reported => exact .failure reported
  | exhausted => exact .exhausted

/-- What a run is known to end with, it ends with safely. -/
theorem tells {told : α → Prop} (safe : Safe post run)
    (ends : ∀ {s a u}, run s = .value a u → told a) : Safe told run := by
  intro s kept
  have inner := safe s kept
  generalize ended : run s = outcome at inner ⊢
  cases inner with
  | value _ kept => exact .value (ends ended) kept
  | failure reported => exact .failure reported
  | exhausted => exact .exhausted

theorem ite {c : Prop} [Decidable c] (yes : Safe post run) (no : Safe post other) :
    Safe post (if c then run else other) := by
  split
  · exact yes
  · exact no

theorem nest {event : Option α → List Event → Event} (safe : Safe post run) :
    Safe post (nest event run) := by
  intro s free
  have inner := safe { s with history := [] } { free with }
  unfold Engine.nest
  generalize run { s with history := [] } = outcome at inner ⊢
  cases inner with
  | value holds kept => exact .value holds { kept with }
  | failure reported => exact .failure reported
  | exhausted => exact .exhausted

theorem applying {rule : String} {patterns : List OutPattern} {body : List Statement}
    {outputs : Outputs} (safe : Safe post run) :
    Safe post (applying rule patterns body outputs run) :=
  safe.nest

end Safe

end Engine

end Metamorph
