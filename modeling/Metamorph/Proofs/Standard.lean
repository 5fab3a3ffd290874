import Metamorph.Proofs.Norm
import Metamorph.Proofs.Selection
import Metamorph.Proofs.Stages
import Metamorph.Proofs.Tally

/-! States that keep to a norm: every value that they hold does. A standard asks more of states, whatever
it is. A run upholds it if, from states that are up to it, it comes to values, faults and states that
are; and so does another one that does the same. -/
namespace Metamorph
variable {norm : Norm} {v : Value}

/-- The defaults of all features keep to the norm. -/
def Metaclass.Meets (norm : Norm) (cls : Metaclass) : Prop :=
  ∀ name f, cls.feature? name = some f → f.default.Meets norm

/-- What an object holds keeps to the norm, and so does what it reads as by default. -/
def Entity.Meets (norm : Norm) : Entity → Prop
  | .instance cls values => cls.Meets norm ∧ norm.Table values
  | .host object => norm.Table object.attributes

structure Store.Meets (norm : Norm) (store : Store) : Prop where
  entity : ∀ {h : Handle} {entity : Entity}, store.entities[h]? = some entity → entity.Meets norm
  model : ∀ {i : Nat} {m : Model}, store.models[i]? = some m →
    ∀ {name cls}, m.metamodel.class? name = some cls → cls.Meets norm

namespace Store.Meets
variable {store : Store} {h : Handle} {feature type : String} {model : Nat}

theorem asMany_meets (meets : v.Meets norm) : (asMany v).Meets norm := by
  cases v with
  | list _ items => exact meets
  | undefined => exact allMeet_iff.2 nofun
  | _ => exact allMeet_iff.2 fun w member => List.mem_singleton.1 member ▸ meets

theorem stored_yields {cls : Metaclass} (meets : v.Meets norm) :
    norm.Yields (stored cls feature v) := by
  unfold stored
  split
  · exact .error rfl
  · split
    · exact .ok (asMany_meets meets)
    · split
      · exact .error rfl
      · exact .ok meets

theorem textOf_fails {cited : Bool} : norm.Fails (store.textOf cited v) := by
  unfold textOf
  split
  · exact .error rfl
  · exact .ok trivial

variable (meets : store.Meets norm)
include meets

theorem readFeature : norm.Yields (store.readFeature v feature) := by
  unfold Store.readFeature
  split
  · split
    · rename_i cls values found
      obtain ⟨defaults, own⟩ := meets.entity found
      unfold read
      split
      · exact .error rfl
      · rename_i f declared
        refine .ok ?_
        split
        · exact own.getD (allMeet_iff.2 nofun)
        · exact own.getD (defaults feature f declared)
    · rename_i object found
      have own := meets.entity found
      unfold HostObject.read
      split
      · exact .error rfl
      · split
        · exact .ok (Norm.Table.get? own ‹_›)
        · exact .error rfl
    · exact .error rfl
  · unfold hostAttribute
    split
    · exact .ok trivial
    · exact .ok trivial
    · exact .error rfl

theorem navigate : norm.Yields (store.navigate v feature) := by
  refine meets.readFeature.map fun w read => ?_
  unfold asSequence
  split
  · exact Value.collection_meets nofun (allMeet_iff.1 read)
  · exact read

omit meets in
theorem hasFeature_fails : norm.Fails (store.hasFeature v feature) := by
  unfold Store.hasFeature
  split
  · split
    · exact .ok trivial
    · split
      · exact .error rfl
      · exact .ok trivial
    · exact .ok trivial
  · split <;> exact .ok trivial

theorem set (own : v.Meets norm) : norm.Sound (Store.Meets norm) (store.set h feature v) := by
  unfold Store.set
  split
  · rename_i cls values found
    refine (stored_yields own).map fun w kept => ?_
    obtain ⟨defaults, table⟩ := meets.entity found
    constructor
    · intro g entity known
      rw [Array.set!_eq_setIfInBounds, Array.getElem?_setIfInBounds] at known
      split at known
      · split at known
        · cases known
          exact ⟨defaults, table.set kept⟩
        · cases known
      · exact meets.entity known
    · exact meets.model
  · exact .error rfl

theorem create : norm.Sound (fun made => made.2.Meets norm) (store.create model type) := by
  unfold Store.create
  split
  · exact .error rfl
  · rename_i m found
    have chosen : norm.Sound (Metaclass.Meets norm) (creatable m type) := by
      unfold creatable
      dsimp only
      split
      · exact .error rfl
      · split
        · exact .error rfl
        · split
          · exact .error rfl
          · exact .ok (meets.model found ‹_›)
    refine chosen.map fun cls defaults => ?_
    constructor
    · intro h entity known
      simp only [add, Array.getElem?_push] at known
      split at known
      · cases known
        exact ⟨defaults, List.forall_mem_nil _⟩
      · exact meets.entity known
    · intro i m' known name cls' declared
      simp only [add, Array.set!_eq_setIfInBounds, Array.getElem?_setIfInBounds] at known
      split at known
      · split at known
        · cases known
          exact meets.model found declared
        · cases known
      · exact meets.model known declared

end Store.Meets

namespace Trace
variable {trace : Trace} {store : Store} {source : Value} {output : String}

theorem resolve_yields (meets : ∀ link ∈ trace.links, norm.Table link.outputs)
    {rule : Option String} : norm.Yields (trace.resolve store source output rule) := by
  unfold resolve
  split
  · exact Store.Meets.textOf_fails.bind fun _ _ => .error rfl
  · rename_i link only
    refine .ok (Norm.Table.getD (meets link ?_) trivial)
    have member : link ∈ trace.candidates source output rule := only ▸ List.mem_singleton_self link
    exact (mem_linksFor.1 (List.mem_of_mem_filter member)).1
  · exact .error rfl

theorem replacement_yields (meets : ∀ link ∈ trace.links, norm.Table link.outputs)
    (own : source.Meets norm) : norm.Yields (trace.replacement source) := by
  unfold replacement
  split
  · exact .ok own
  · exact .ok own
  · rename_i target _ found
    obtain ⟨link, matched, first⟩ := Option.map_eq_some_iff.1 found
    obtain ⟨entry, head, rfl⟩ := Option.map_eq_some_iff.1 first
    have member : link ∈ trace.links := (mem_linksFor.1 (List.mem_of_find?_eq_some matched)).1
    exact .ok (meets link member entry (List.mem_of_head? head))
  · exact .error rfl

end Trace

mutual

theorem Engine.implicitTarget_yields {trace : Trace}
    (meets : ∀ link ∈ trace.links, norm.Table link.outputs) :
    ∀ v : Value, v.Meets norm → norm.Yields (implicitTarget trace v)
  | .collection kind items, own => by
    rw [implicitTarget]
    exact (implicitTargets_sound meets items own.each).bind fun _ all =>
      .ok (Value.collectionOf_meets all)
  | .undefined, own | .boolean _, own | .integer _, own | .real _, own | .complex _ _ _, own
  | .string _, own | .tuple _, own | .type _, own | .list _ _, own | .object _, own
  | .thisModule _, own => by
    unfold implicitTarget
    first
      | exact .ok own
      | exact Trace.replacement_yields meets own

theorem Engine.implicitTargets_sound {trace : Trace}
    (meets : ∀ link ∈ trace.links, norm.Table link.outputs) :
    ∀ items : List Value, (∀ v ∈ items, v.Meets norm) →
      norm.Sound (fun others => ∀ v ∈ others, v.Meets norm) (implicitTargets trace items)
  | [], _ => .ok nofun
  | v :: rest, own => by
    obtain ⟨first, others⟩ := List.forall_mem_cons.1 own
    exact (Engine.implicitTarget_yields meets v first).bind fun _ own =>
      (Engine.implicitTargets_sound meets rest others).bind fun _ all =>
        .ok (List.forall_mem_cons.2 ⟨own, all⟩)

end

/-- None of the ways in which a model may refuse is against the norm. -/
def Refusals.Allowed (norm : Norm) (refusals : Refusals) : Prop :=
  ∀ fault, refusals.objects = some fault ∨ refusals.create = some fault ∨
    refusals.assign = some fault → norm.allowed fault

theorem Provider.refuse_sound {α : Type} {post : α → Prop} {refusal : Option Fault}
    {answer : Result α} (allowed : ∀ fault, refusal = some fault → norm.allowed fault)
    (sound : norm.Sound post answer) : norm.Sound post (refuse refusal answer) := by
  cases refusal with
  | some fault => exact .refused (allowed fault rfl)
  | none => exact sound

/-- The results that a binding keeps keep to the norm. -/
def BindingFrame.Meets (norm : Norm) (frame : BindingFrame) : Prop :=
  (∀ call ∈ frame.calls, call.result.Meets norm) ∧ ∀ call ∈ frame.replay, call.result.Meets norm

structure DeferredBinding.Meets (norm : Norm) (d : DeferredBinding) : Prop where
  scope : norm.Table d.scope
  calls : ∀ call ∈ d.calls, call.result.Meets norm

/-- No value that was handed to the model by one of the events is against the norm. -/
def Norm.Told (norm : Norm) (events : List Event) : Prop :=
  ∀ e ∈ evaluations events, ∀ v, e.stored = some v → v.Meets norm

namespace Norm.Told
variable {events more : List Event} {event : Event}

theorem nil : norm.Told [] := nofun

theorem append (first : norm.Told events) (rest : norm.Told more) : norm.Told (events ++ more) := by
  intro e member
  rw [evaluations_append, List.mem_append] at member
  rcases member with old | new
  · exact first e old
  · exact rest e new

/-- Nothing was handed to the model but within the event. -/
theorem within (told : norm.Told events) (same : evaluations [event] = evaluations events) :
    norm.Told [event] := by
  rw [Told, same]
  exact told

theorem assignment {occasion : Occasion} {work : Assignment} {stored : Option Value}
    (told : norm.Told events) (meets : ∀ v, stored = some v → v.Meets norm) :
    norm.Told [.assignment occasion work stored events] := by
  intro e member
  rw [evaluations_assignment, List.mem_append] at member
  rcases member with old | new
  · exact told e old
  · obtain rfl := List.mem_singleton.1 new
    exact meets

end Norm.Told

/-- What tells which rules were applied to what: the links of the trace, the lazy applications that are
remembered, the schedule and what was created for it, the counts of both kinds and the phases. -/
structure Record where
  links : List TraceLink
  remembered : List (String × Value × Outputs)
  schedule : Option Schedule
  created : List Outputs
  matched : Nat
  lazies : Nat
  visited : List Phase

def LazyEntry.application (entry : LazyEntry) : String × Value × Outputs :=
  (entry.rule, entry.source, entry.outputs)

theorem LazyCache.applications_finish (cache : LazyCache) (rule : String) (source : Value) :
    (cache.finish rule source).entries.map LazyEntry.application =
      cache.entries.map LazyEntry.application := by
  unfold finish
  rw [List.map_map]
  refine List.map_congr_left fun entry _ => ?_
  simp only [Function.comp]
  split <;> rfl

namespace Engine

def record (s : Engine) : Record where
  links := s.trace.links
  remembered := s.cache.entries.map LazyEntry.application
  schedule := s.schedule
  created := s.created
  matched := s.matchedApplied
  lazies := s.lazyApplied
  visited := s.visited

/-- The values of the state keep to the norm, and its objects came from models that do. -/
structure Meets (norm : Norm) (s : Engine) : Prop where
  store : s.store.Meets norm
  owners : ∀ entry ∈ s.owners, entry.2.refusals.Allowed norm
  attributes : norm.Table s.attributes
  trace : ∀ link ∈ s.trace.links, norm.Table link.outputs
  cache : ∀ entry ∈ s.cache.entries, norm.Table entry.outputs
  scheduled : ∀ a ∈ scheduled s, a.source.Meets norm
  created : ∀ outputs ∈ s.created, norm.Table outputs
  deferred : ∀ d ∈ s.deferred, d.Meets norm
  frames : ∀ frame ∈ s.frames, frame.Meets norm
  told : norm.Told s.history

/-- The applications are of rules that the module declares for matching, to different objects of the
sources. -/
structure Planned (t : Transformation) (store : Store) (schedule : Schedule) : Prop where
  declared : schedule.Declared t.module
  sources : List.Sublist (schedule.applications.map (·.source))
    ((t.sourceObjects store).map .object)

/-- What is asked of the applications of rules, whatever it is. Rules are applied without it being lost,
or with a fault that the norm allows. -/
structure Bookkeeping (setting : Setting) (norm : Norm) where
  holds : Record → Prop
  /-- What is asked of the models that are matched. -/
  lists : Transformation → Store → Prop
  enters : ∀ {s phase}, holds (record s) →
    (phase = .initialization → s.created.length = (scheduled s).length) →
      holds { record s with visited := s.visited ++ [phase] }
  plans : ∀ {t s schedule}, setting.transformation = some t → holds (record s) →
    s.created = [] → .initialization ∉ s.visited → lists t s.store → Planned t s.store schedule →
      holds { record s with schedule := some schedule }
  creates : ∀ {t s a outputs link trace}, setting.transformation = some t → holds (record s) →
    (scheduled s)[s.created.length]? = some a →
      s.trace.register s.store a.rule.name a.source outputs .matched = .ok (link, trace) →
        holds { record s with
          links := trace.links
          created := s.created ++ [outputs]
          matched := s.matchedApplied + 1 }
  rejects : ∀ {t s a outputs fault}, setting.transformation = some t → holds (record s) →
    (scheduled s)[s.created.length]? = some a →
      s.trace.register s.store a.rule.name a.source outputs .matched = .error fault →
        norm.allowed fault
  begins : ∀ {t rule s argument outputs link trace}, HasLazy setting t rule → holds (record s) →
    s.cache.lookup? rule.name argument = none →
      s.trace.register s.store rule.name argument outputs .lazy = .ok (link, trace) →
        holds { record s with
          links := trace.links
          remembered := (record s).remembered ++ [(rule.name, argument, outputs)]
          lazies := s.lazyApplied + 1 }
  refuses : ∀ {t rule s argument outputs fault}, HasLazy setting t rule → holds (record s) →
    s.cache.lookup? rule.name argument = none →
      s.trace.register s.store rule.name argument outputs .lazy = .error fault →
        norm.allowed fault

/-- A norm, what is asked of states beside it, and a setting whose native operations and models keep to
the norm. -/
structure Standard (setting : Setting) where
  norm : Norm
  books : Bookkeeping setting norm
  natives : ∀ {name native}, setting.helpers.natives.get? name = some native →
    ∀ (store : Store) args, (∀ v ∈ args, v.Meets norm) → norm.Yields (native.run store.cite args)
  models : ∀ {t : Transformation}, setting.transformation = some t →
    ∀ entry ∈ t.models, entry.2.refusals.Allowed norm

namespace Standard
variable {setting : Setting} (std : Standard setting) {α β : Type}

structure State (s : Engine) : Prop where
  meets : s.Meets std.norm
  books : std.books.holds s.record

/-- What a run may come to. -/
inductive Admits (post : α → Prop) : Outcome Engine α → Prop
  | value {a s} (holds : post a) (kept : std.State s) : Admits post (.value a s)
  | failure {fault s} (allowed : std.norm.allowed fault) (kept : std.State s) :
      Admits post (.failure fault s)
  | exhausted : Admits post .exhausted

/-- From the state the two runs do the same, and what they come to is up to the standard. -/
structure At (post : α → Prop) (s : Engine) (run other : Run Engine α) : Prop where
  same : other s = run s
  admits : std.Admits post (run s)

/-- From every state that is up to the standard. -/
def Upholds (post : α → Prop) (run other : Run Engine α) : Prop :=
  ∀ s, std.State s → std.At post s run other

variable {std} {post : α → Prop} {next : β → Prop} {run other : Run Engine α} {s u : Engine}

/-- No rule was applied in between. -/
theorem State.following (state : std.State s) (meets : u.Meets std.norm)
    (same : u.record = s.record) : std.State u :=
  ⟨meets, same ▸ state.books⟩

theorem State.quiet (state : std.State s) (quiet : Quiet s u)
    (attributes : std.norm.Table u.attributes) : std.State u := by
  obtain ⟨_, _, _, _, _, _, _, _, _, rfl⟩ := quiet
  exact state.following { state.meets with attributes } rfl

theorem Admits.failed {outcome : Outcome Engine α} {fault : Fault}
    (admits : std.Admits post outcome) (failed : outcome = .failure fault u) :
    std.norm.allowed fault ∧ std.State u := by
  cases admits with
  | failure allowed kept =>
    cases failed
    exact ⟨allowed, kept⟩
  | value | exhausted => cases failed

theorem Admits.ended {outcome : Outcome Engine α} {a : α} (admits : std.Admits post outcome)
    (ended : outcome = .value a u) : post a ∧ std.State u := by
  cases admits with
  | value holds kept =>
    cases ended
    exact ⟨holds, kept⟩
  | failure | exhausted => cases ended

theorem Admits.left {outcome : Outcome Engine α} (admits : std.Admits post outcome)
    (left : outcome.state? = some u) : std.State u := by
  cases admits with
  | value _ kept | failure _ kept =>
    cases left
    exact kept
  | exhausted => cases left

namespace At

theorem pure {a : α} (holds : post a) (state : std.State s) :
    std.At post s (Pure.pure a) (Pure.pure a) :=
  ⟨rfl, .value holds state⟩

theorem fail {fault : Fault} (allowed : std.norm.allowed fault) (state : std.State s) :
    std.At post s (Run.fail fault) (Run.fail fault) :=
  ⟨rfl, .failure allowed state⟩

theorem bind {f g : α → Run Engine β} (first : std.At post s run other)
    (rest : ∀ {a u}, run s = .value a u → post a → std.State u → std.At next u (f a) (g a)) :
    std.At next s (run >>= f) (other >>= g) := by
  obtain ⟨same, admits⟩ := first
  constructor
  · change Run.bind other g s = Run.bind run f s
    unfold Run.bind
    rw [same]
    cases ended : run s with
    | value a u =>
      obtain ⟨holds, kept⟩ := admits.ended ended
      exact (rest ended holds kept).same
    | failure => rfl
    | exhausted => rfl
  · change std.Admits next (Run.bind run f s)
    unfold Run.bind
    cases ended : run s with
    | value a u =>
      obtain ⟨holds, kept⟩ := admits.ended ended
      exact (rest ended holds kept).admits
    | failure fault u =>
      obtain ⟨allowed, kept⟩ := admits.failed ended
      exact .failure allowed kept
    | exhausted => exact .exhausted

/-- What follows may depend on the state. -/
theorem state {f g : Engine → Run Engine β} (rest : std.At next s (f s) (g s)) :
    std.At next s (Run.state >>= f) (Run.state >>= g) :=
  ⟨rest.same, rest.admits⟩

/-- What is done on the way does not depend on what follows. -/
theorem of_bind {f : α → Run Engine β} {run : Run Engine α} (leads : ∀ a u, run s = .value a u →
      std.Admits next (f a u)) (fails : ∀ fault u, run s = .failure fault u →
      std.norm.allowed fault ∧ std.State u) :
    std.At next s (run >>= f) (run >>= f) := by
  refine ⟨rfl, ?_⟩
  change std.Admits next (Run.bind run f s)
  unfold Run.bind
  cases ended : run s with
  | value a u => exact leads a u ended
  | failure fault u => exact .failure (fails fault u ended).1 (fails fault u ended).2
  | exhausted => exact .exhausted

theorem ofResult {result : Result α} (sound : std.norm.Sound post result) (state : std.State s) :
    std.At post s (Run.ofResult result) (Run.ofResult result) := by
  refine ⟨rfl, ?_⟩
  cases sound with
  | ok holds => exact .value holds state
  | refused allowed => exact .failure allowed state

theorem mapFault {change : Fault → Fault} (at' : std.At post s run other)
    (kept : ∀ {fault}, std.norm.allowed fault → std.norm.allowed (change fault)) :
    std.At post s (Run.mapFault change run) (Run.mapFault change other) := by
  obtain ⟨same, admits⟩ := at'
  constructor
  · simp only [Run.mapFault, same]
  · unfold Run.mapFault
    cases ended : run s with
    | value a u =>
      obtain ⟨holds, state⟩ := admits.ended ended
      exact .value holds state
    | failure fault u =>
      obtain ⟨allowed, state⟩ := admits.failed ended
      exact .failure (kept allowed) state
    | exhausted => exact .exhausted

/-- The change is made to a state that is up to the standard, into one that is. -/
theorem modify {change : Engine → Engine} (state : std.State (change s)) :
    std.At (fun _ => True) s (Run.modify change) (Run.modify change) :=
  ⟨rfl, .value trivial state⟩

theorem ensuring {change : Engine → Engine} (at' : std.At post s run other)
    (kept : ∀ {u}, std.State u → std.State (change u)) :
    std.At post s (Run.ensuring change run) (Run.ensuring change other) := by
  obtain ⟨same, admits⟩ := at'
  constructor
  · simp only [Run.ensuring, same]
  · unfold Run.ensuring
    cases ended : run s with
    | value a u =>
      obtain ⟨holds, state⟩ := admits.ended ended
      exact .value holds (kept state)
    | failure fault u =>
      obtain ⟨allowed, state⟩ := admits.failed ended
      exact .failure allowed (kept state)
    | exhausted => exact .exhausted

theorem rescue {handler other' : Fault → Run Engine α} (at' : std.At post s run other)
    (handled : ∀ {fault u}, std.norm.allowed fault → std.State u →
      std.At post u (handler fault) (other' fault)) :
    std.At post s (Run.rescue run handler) (Run.rescue other other') := by
  obtain ⟨same, admits⟩ := at'
  constructor
  · unfold Run.rescue
    rw [same]
    cases ended : run s with
    | value | exhausted => rfl
    | failure fault u =>
      obtain ⟨allowed, state⟩ := admits.failed ended
      exact (handled allowed state).same
  · unfold Run.rescue
    cases ended : run s with
    | value a u =>
      obtain ⟨holds, state⟩ := admits.ended ended
      exact .value holds state
    | failure fault u =>
      obtain ⟨allowed, state⟩ := admits.failed ended
      exact (handled allowed state).admits
    | exhausted => exact .exhausted

end At

namespace Upholds

theorem pure {a : α} (holds : post a) : std.Upholds post (Pure.pure a) (Pure.pure a) :=
  fun _ state => .pure holds state

theorem fail {fault : Fault} (usual : fault.isDuplicate = false) :
    std.Upholds post (Run.fail fault) (Run.fail fault) :=
  fun _ state => .fail (std.norm.ordinary usual) state

theorem cutOff : std.Upholds post Run.cutOff Run.cutOff := fun _ _ => ⟨rfl, .exhausted⟩

theorem bind {f g : α → Run Engine β} (first : std.Upholds post run other)
    (rest : ∀ a, post a → std.Upholds next (f a) (g a)) :
    std.Upholds next (run >>= f) (other >>= g) :=
  fun s state => (first s state).bind fun _ holds kept => rest _ holds _ kept

theorem state {f g : Engine → Run Engine β} (rest : ∀ s, std.State s → std.At next s (f s) (g s)) :
    std.Upholds next (Run.state >>= f) (Run.state >>= g) :=
  fun s kept => .state (rest s kept)

theorem ofResult {result : Result α} (sound : std.norm.Sound post result) :
    std.Upholds post (Run.ofResult result) (Run.ofResult result) :=
  fun _ state => .ofResult sound state

/-- A result got from the state. -/
theorem reading {f : Engine → Result α} (sound : ∀ s, std.State s → std.norm.Sound post (f s)) :
    std.Upholds post (Run.state >>= fun s => Run.ofResult (f s))
      (Run.state >>= fun s => Run.ofResult (f s)) :=
  state fun s kept => .ofResult (sound s kept) kept

theorem collaborate {result : Result α} {target : String} (sound : std.norm.Sound post result) :
    std.Upholds post (collaborate target result) (Engine.collaborate target result) :=
  fun _ state => (At.ofResult sound state).mapFault (Norm.collaborator target)

theorem asking {f : Engine → Result α} {target : String}
    (sound : ∀ s, std.State s → std.norm.Sound post (f s)) :
    std.Upholds post (Run.state >>= fun s => Engine.collaborate target (f s))
      (Run.state >>= fun s => Engine.collaborate target (f s)) :=
  state fun s kept => collaborate (sound s kept) s kept

theorem modify {change : Engine → Engine} (kept : ∀ s, std.State s → std.State (change s)) :
    std.Upholds (fun _ => True) (Run.modify change) (Run.modify change) :=
  fun s state => .modify (kept s state)

theorem ite {c : Prop} [Decidable c] {run' other' : Run Engine α}
    (yes : std.Upholds post run other) (no : std.Upholds post run' other') :
    std.Upholds post (if c then run else run') (if c then other else other') := by
  split
  · exact yes
  · exact no

/-- Nothing but counts, timings and reports changes. -/
theorem noting {change : Engine → Engine} (quiet : ∀ s, Quiet s (change s))
    (attributes : ∀ s : Engine, (change s).attributes = s.attributes) :
    std.Upholds (fun _ => True) (Run.modify change) (Run.modify change) :=
  .modify fun s state => state.quiet (quiet s) (by rw [attributes]; exact state.meets.attributes)

end Upholds

end Standard

end Engine

end Metamorph
