import Metamorph.Engine.Pipeline
import Metamorph.Proofs.Evaluation
import Metamorph.Proofs.History
import Metamorph.Proofs.Making

/-! The course of a successful run, apart from the evaluator: which events follow one another, what
each leaves behind in the engine, and what happens within it. Evaluation follows a course, and so do
rules; the assignments of an application come in the order of its program. -/
namespace Metamorph

/-- The assignments among the events, without those within them. -/
def jobs (events : List Event) : List (Occasion × Assignment) :=
  (events.filterMap Event.evaluation?).map fun e => (e.occasion, e.work)

@[simp]
theorem jobs_nil : jobs [] = [] := rfl

@[simp]
theorem jobs_append (events more : List Event) :
    jobs (events ++ more) = jobs events ++ jobs more := by
  simp [jobs]

def bindingJobs (target : Value) (scope : Named Value) (bindings : List Binding) :
    List (Occasion × Assignment) :=
  bindings.map fun binding => (.first, ⟨target, binding.feature, binding.value, scope⟩)

def outputJobs (outputs : Outputs) (scope : Named Value) (patterns : List OutPattern) :
    List (Occasion × Assignment) :=
  patterns.flatMap fun out =>
    bindingJobs ((outputs.get? out.name).getD .undefined) scope out.bindings

def Statement.job? (env : Environment) : Statement → Option (Occasion × Assignment)
  | .assign target feature value =>
    some (.statement, ⟨(env.get? target).getD .undefined, feature, value, env.snapshot⟩)
  | .evaluate _ => none

/-- What an application assigns, in the order of its program: bindings as they are declared, then
the statements of the body. -/
def programJobs (outputs : Outputs) (env : Environment) (patterns : List OutPattern)
    (body : List Statement) : List (Occasion × Assignment) :=
  outputJobs outputs env.snapshot patterns ++ body.filterMap (·.job? env)

def Assignment.deferral (work : Assignment) (rule : String) (calls : List CalledResult) :
    DeferredBinding where
  rule
  target := work.target
  binding := ⟨work.feature, work.value⟩
  scope := work.scope
  calls

namespace Engine

/-- The state in which an assignment or a called rule starts: with a frame and a history of its own.
-/
def opened (frame : BindingFrame) (s : Engine) : Engine := pushFrame frame { s with history := [] }

def frame (s : Engine) : BindingFrame := s.frames.head?.getD {}

def settled (store : Store) (s : Engine) : Engine :=
  { s with store, bindingsEvaluated := s.bindingsEvaluated + 1 }

/-- What happened is told as one event after the events of another state. -/
def telling (before : Engine) (event : Event) (s : Engine) : Engine :=
  { s with history := before.history ++ [event] }

/-- A binding that met something incomplete waits for its second evaluation. -/
def waiting (met : Bool) (d : DeferredBinding) (s : Engine) : Engine :=
  if met then { s with deferred := s.deferred ++ [d] } else s

/-- The innermost binding meets an application that is not complete. -/
def noticing (complete : Bool) (s : Engine) : Engine :=
  if complete then s else changeFrame (fun frame => { frame with sawIncomplete := true }) s

/-- The innermost binding has run a called rule, whose body had the given frame. -/
def calling (call : CalledResult) (body : BindingFrame) (s : Engine) : Engine :=
  changeFrame
    (fun outer =>
      { outer with
        sawIncomplete := outer.sawIncomplete || body.sawIncomplete
        calls := call :: outer.calls })
    { s with calledApplied := s.calledApplied + 1 }

section
variable (s : Engine)

@[simp]
theorem waiting_store (met : Bool) (d : DeferredBinding) : (waiting met d s).store = s.store := by
  unfold waiting
  split <;> rfl

@[simp]
theorem waiting_cache (met : Bool) (d : DeferredBinding) : (waiting met d s).cache = s.cache := by
  unfold waiting
  split <;> rfl

@[simp]
theorem waiting_frames (met : Bool) (d : DeferredBinding) :
    (waiting met d s).frames = s.frames := by
  unfold waiting
  split <;> rfl

@[simp]
theorem waiting_resolved (met : Bool) (d : DeferredBinding) :
    (waiting met d s).deferredResolved = s.deferredResolved := by
  unfold waiting
  split <;> rfl

@[simp]
theorem waiting_bindingsEvaluated (met : Bool) (d : DeferredBinding) :
    (waiting met d s).bindingsEvaluated = s.bindingsEvaluated := by
  unfold waiting
  split <;> rfl

@[simp]
theorem waiting_history (met : Bool) (d : DeferredBinding) :
    (waiting met d s).history = s.history := by
  unfold waiting
  split <;> rfl

theorem waiting_deferred (met : Bool) (d : DeferredBinding) :
    (waiting met d s).deferred = s.deferred ++ if met then [d] else [] := by
  cases met <;> simp [waiting]

/-- Noticing changes flags only. -/
theorem noticing_eq (complete : Bool) :
    noticing complete s = { s with frames := (noticing complete s).frames } := by
  unfold noticing
  split <;> rfl

theorem flags_noticing (complete : Bool) :
    (noticing complete s).frames.map (·.sawIncomplete) =
      (s.frames.map (·.sawIncomplete)).modifyHead (· || !complete) := by
  cases complete <;> cases frames : s.frames <;> simp [noticing, changeFrame, frames]

end

end Engine

open Engine in
/-- From one state to another by the given events. -/
inductive Course (setting : Setting) : List Event → Engine → Engine → Prop
  | quiet {s t} (quiet : Quiet s t) : Course setting [] s t
  | aside {s phase visited schedule created matchedApplied} :
      Course setting [] s { s with phase, visited, schedule, created, matchedApplied }
  | trans {s t u done more} (first : Course setting done s t) (rest : Course setting more t u) :
      Course setting (done ++ more) s u
  | create {s h provider store type} (created : s.store.create provider.model type = .ok (h, store)) :
      Course setting [] s (owning h provider store s)
  | link {s rule source outputs kind link trace}
      (registered : s.trace.register s.store rule source outputs kind = .ok (link, trace)) :
      Course setting [] s { s with trace }
  | binding {s t rule h work scope v store inner}
      (visible : work.scope = (setting.rootEnvironment scope).snapshot)
      (target : work.target = .object h)
      (evaluated : Course setting inner (opened {} s) t)
      (accepted : t.store.set h work.feature v = .ok store) :
      Course setting [.assignment .first work (some v) inner] s
        (waiting t.frame.sawIncomplete (work.deferral rule t.frame.calls.reverse)
          (telling s (.assignment .first work (some v) inner) (settled store t.popFrame)))
  | statement {s t h work v store inner}
      (target : work.target = .object h)
      (evaluated : Course setting inner { s with history := [] } t)
      (accepted : t.store.set h work.feature v = .ok store) :
      Course setting [.assignment .statement work (some v) inner] s
        (telling s (.assignment .statement work (some v) inner) (settled store t))
  | application {s t rule patterns body outputs inner} {scope : Named Value}
      (done : Course setting inner { s with history := [] } t)
      (ordered : jobs inner = programJobs outputs
        (setting.rootEnvironment (scope.update outputs)) patterns body) :
      Course setting [.application rule patterns body outputs inner] s
        (telling s (.application rule patterns body outputs inner) t)
  | hit {s rule argument entry result} (found : s.cache.lookup? rule argument = some entry) :
      Course setting [.lazy rule argument entry.complete (some result) []] s
        (noticing entry.complete
          (telling s (.lazy rule argument entry.complete (some result) [])
            { s with cache := s.cache.hit }))
  | miss {s a t rule argument outputs complete result inner}
      (missing : s.cache.lookup? rule argument = none)
      (created : Course setting [] { s.enter with history := [], cache := s.cache.miss } a)
      (filled : Course setting inner
        { a with lazyApplied := a.lazyApplied + 1, cache := a.cache.start rule argument outputs } t)
      (apart : Apart inner)
      (known : (t.cache.finish rule argument).isComplete rule argument = complete) :
      Course setting [.lazy rule argument complete (some result) inner] s
        (noticing complete (telling s (.lazy rule argument complete (some result) inner)
          { t.leave with cache := t.cache.finish rule argument }))
  | called {s t rule args result inner}
      (unkept : s.frames.head?.bind (·.take? rule args) = none)
      (ran : Course setting inner (opened {} s.enter) t) :
      Course setting [.called rule args (some result) inner] s
        (calling ⟨rule, args, result⟩ t.frame
          (telling s (.called rule args (some result) inner) t.popFrame.leave))
  | replayed {s rule args call frame}
      (kept : s.frames.head?.bind (·.take? rule args) = some (call, frame)) :
      Course setting [.replayed rule args call.result] s
        ((s.changeFrame fun _ => frame).note (.replayed rule args call.result))

/-- What is worked on when a binding is evaluated again. -/
def DeferredBinding.work (d : DeferredBinding) (setting : Setting) : Assignment :=
  ⟨d.target, d.binding.feature, d.binding.value, (setting.rootEnvironment d.scope).snapshot⟩

open Engine in
/-- The walk over the bindings that wait, from a position on. -/
inductive Redoing (setting : Setting) : Nat → List Event → Engine → Engine → Prop
  | finished {s position} (last : s.deferred[position]? = none) : Redoing setting position [] s s
  | next {s t u position d h v store inner more}
      (turn : s.deferred[position]? = some d)
      (target : d.target = .object h)
      (evaluated : Course setting inner (opened { replay := d.calls } s) t)
      (accepted : t.store.set h d.binding.feature v = .ok store)
      (rest : Redoing setting (position + 1) more
        { telling s (.assignment .again (d.work setting) (some v) inner)
            (settled store t.popFrame) with
          deferredResolved := t.deferredResolved + 1 } u) :
      Redoing setting position (.assignment .again (d.work setting) (some v) inner :: more) s u

namespace Course
variable {setting : Setting} {s t : Engine} {done : List Event}

theorem refl (s : Engine) : Course setting [] s s := .quiet ⟨_, _, _, _, _, _, _, _, _, rfl⟩

theorem history (course : Course setting done s t) : t.history = s.history ++ done := by
  induction course with
  | quiet quiet =>
    obtain ⟨_, _, _, _, _, _, _, _, _, rfl⟩ := quiet
    simp
  | aside => simp
  | trans _ _ first rest => rw [rest, first, List.append_assoc]
  | create _ => simp [Engine.owning]
  | link _ => simp
  | binding _ _ _ _ _ => simp [Engine.telling]
  | statement _ _ _ _ => rfl
  | application _ _ _ => rfl
  | hit _ =>
    rw [Engine.noticing_eq]
    rfl
  | miss _ _ _ _ _ _ _ =>
    rw [Engine.noticing_eq]
    rfl
  | called _ _ _ => rfl
  | replayed _ => rfl

end Course

theorem Redoing.history {setting : Setting} {s t : Engine} {position : Nat} {done : List Event}
    (walk : Redoing setting position done s t) : t.history = s.history ++ done := by
  induction walk with
  | finished _ => simp
  | next _ _ _ _ _ rest => simp [rest, Engine.telling]

namespace Engine
open Run
variable {setting : Setting} {self : Evaluator} {s t : Engine}

theorem nest_eq_telling {α : Type} {event : Option α → List Event → Event} {body : Run Engine α}
    {a : α} :
    nest event body s = .value a t ↔
      ∃ u, body { s with history := [] } = .value a u ∧
        telling s (event (some a) u.history) u = t :=
  nest_eq_value

theorem inFrame_eq_value {α : Type} {frame after : BindingFrame} {body : Run Engine α} {a : α} :
    inFrame frame body s = .value (a, after) t ↔
      ∃ u, body (pushFrame frame s) = .value a u ∧ u.frames.head?.getD frame = after ∧
        u.popFrame = t := by
  simp only [inFrame, bind_eq_value, modify_eq_value, ensuring_eq_value, state_eq_value,
    pure_eq_value, Prod.mk.injEq]
  constructor
  · rintro ⟨_, _, rfl, u, ⟨_, _, ran, _, _, ⟨rfl, rfl⟩, ⟨rfl, rfl⟩, rfl⟩, rfl⟩
    exact ⟨_, ran, rfl, rfl⟩
  · rintro ⟨u, ran, rfl, rfl⟩
    exact ⟨(), _, rfl, u, ⟨_, _, ran, _, _, ⟨rfl, rfl⟩, ⟨rfl, rfl⟩, rfl⟩, rfl⟩

theorem working_eq_value {α : Type} {occasion : Occasion} {work : Assignment}
    {body : Run Engine (α × Value)} {a : α} :
    working occasion work body s = .value a t ↔
      ∃ v u, body { s with history := [] } = .value (a, v) u ∧
        telling s (.assignment occasion work (some v) u.history) u = t := by
  simp [working, bind_eq_value, nest_eq_telling]

theorem applying_eq_value {α : Type} {rule : String} {patterns : List OutPattern}
    {body : List Statement} {outputs : Outputs} {work : Run Engine α} {a : α} :
    applying rule patterns body outputs work s = .value a t ↔
      ∃ u, work { s with history := [] } = .value a u ∧
        telling s (.application rule patterns body outputs u.history) u = t :=
  nest_eq_value

theorem assign_eq_value {target v w : Value} {feature : String}
    (ended : assign setting target feature v s = .value w t) :
    ∃ h store, target = .object h ∧ s.Owns target ∧ s.store.set h feature w = .ok store ∧
      t = { s with store } := by
  obtain ⟨_, _, read, ended⟩ := bind_eq_value.1 ended
  obtain ⟨rfl, rfl⟩ := state_eq_value.1 read
  cases owned : s.ownerOf? target with
  | none => simp [owned, bind_eq_value] at ended
  | some provider =>
    cases target with
    | object h =>
      simp only [owned, bind_eq_value, ofResult_eq_value, collaborate_eq_value, modify_eq_value,
        pure_eq_value] at ended
      obtain ⟨resolved, _, ⟨-, rfl⟩, store, _, ⟨accepted, rfl⟩, _, _, rfl, rfl, rfl⟩ := ended
      exact ⟨h, store, rfl, Option.isSome_iff_exists.2 ⟨provider, owned⟩, refuse_eq_ok accepted, rfl⟩
    | _ => simp [ownerOf?] at owned

theorem makeTarget_course {transformation : Transformation} {out : OutPattern} {v : Value}
    (ended : makeTarget transformation out s = .value v t) : Course setting [] s t := by
  obtain ⟨provider, h, store, -, created, -, rfl⟩ := makeTarget_eq_value ended
  exact .create created

theorem makeTargets_course {transformation : Transformation} {patterns : List OutPattern}
    {outputs : Outputs} (ended : makeTargets transformation patterns s = .value outputs t) :
    Course setting [] s t := by
  induction patterns generalizing s outputs with
  | nil =>
    obtain ⟨-, rfl⟩ := pure_eq_value.1 ended
    exact .refl s
  | cons out rest ih =>
    obtain ⟨v, u, made, ended⟩ := bind_eq_value.1 ended
    obtain ⟨others, w, more, ended⟩ := bind_eq_value.1 ended
    obtain ⟨-, rfl⟩ := pure_eq_value.1 ended
    exact .trans (makeTarget_course made) (ih more)

theorem registerLink_course {rule : String} {source : Value} {outputs : Outputs} {kind : LinkKind}
    (ended : registerLink rule source outputs kind s = .value () t) : Course setting [] s t := by
  simp only [registerLink, bind_eq_value, state_eq_value, ofResult_eq_value,
    modify_eq_value] at ended
  obtain ⟨_, _, ⟨rfl, rfl⟩, ⟨link, trace⟩, _, ⟨registered, rfl⟩, rfl⟩ := ended
  exact .link registered

theorem applyBinding_eq_value {rule : String} {target : Value} {binding : Binding}
    {env : Environment} {deferrable : Bool} {replay : List CalledResult}
    (ended : applyBinding self setting rule target binding env deferrable replay s = .value () t) :
    let work : Assignment := ⟨target, binding.feature, binding.value, env.snapshot⟩
    ∃ v u h stored store, self env binding.value (opened { replay } s) = .value v u ∧
      target = .object h ∧ u.store.set h binding.feature stored = .ok store ∧
      t = waiting ((u.frames.head?.getD { replay }).sawIncomplete && deferrable)
        (work.deferral rule (u.frames.head?.getD { replay }).calls.reverse)
        (telling s (.assignment (if deferrable then .first else .again) work (some stored) u.history)
          (settled store u.popFrame)) := by
  obtain ⟨after, w, worked, ended⟩ := bind_eq_value.1 ended
  obtain ⟨stored, x, inside, rfl⟩ := working_eq_value.1 worked
  obtain ⟨⟨v, after⟩, y, framed, inside⟩ := bind_eq_value.1 inside
  obtain ⟨u, evaluated, rfl, rfl⟩ := inFrame_eq_value.1 framed
  simp only [bind_eq_value, modify_eq_value, pure_eq_value] at inside
  obtain ⟨_, _, rfl, stored, z, assigned, same, rfl⟩ := inside
  cases same
  obtain ⟨h, store, rfl, -, accepted, rfl⟩ := assign_eq_value assigned
  refine ⟨v, u, h, stored, store, evaluated, rfl, accepted, ?_⟩
  unfold waiting
  split at ended
  · simp only [*, modify_eq_value] at ended ⊢
    exact ended.symm
  · simp only [*, pure_eq_value] at ended ⊢
    exact ended.2.symm

theorem lookup_eq_ok {env : Environment} {name : String} {span : Span} {v : Value}
    (found : env.lookup name span = .ok v) : env.get? name = some v := by
  unfold Environment.lookup at found
  cases bound : env.get? name with
  | none => simp [bound] at found
  | some w =>
    rw [bound] at found
    cases found
    rfl

theorem enterRule_eq_value {rule : String} (ended : enterRule setting rule s = .value () t) :
    t = s.enter := by
  obtain ⟨_, _, read, ended⟩ := bind_eq_value.1 ended
  obtain ⟨rfl, rfl⟩ := state_eq_value.1 read
  split at ended
  · cases ended
  · exact (modify_eq_value.1 ended).symm

theorem recorded?_eq_value {rule : String} {args : List Value} {answer : Option Value}
    (ended : recorded? rule args s = .value answer t) :
    (s.frames.head?.bind (·.take? rule args) = none ∧ answer = none ∧ t = s) ∨
      ∃ call frame, s.frames.head?.bind (·.take? rule args) = some (call, frame) ∧
        answer = some call.result ∧ t = s.changeFrame fun _ => frame := by
  obtain ⟨_, _, read, ended⟩ := bind_eq_value.1 ended
  obtain ⟨rfl, rfl⟩ := state_eq_value.1 read
  cases kept : s.frames.head?.bind (·.take? rule args) with
  | none =>
    simp only [kept, pure_eq_value] at ended
    exact .inl ⟨rfl, ended.1.symm, ended.2.symm⟩
  | some found =>
    simp only [kept, bind_eq_value, modify_eq_value, pure_eq_value] at ended
    obtain ⟨_, _, rfl, rfl, rfl⟩ := ended
    exact .inr ⟨found.1, found.2, rfl, rfl, rfl⟩

theorem request_eq_value {create : Run Engine Outputs} {fill : Outputs → Run Engine Unit}
    {rule : String} {source : Value} {outputs : Outputs}
    (ended : LazyCache.request cachePlace create fill rule source s = .value outputs t) :
    (∃ entry, s.cache.lookup? rule source = some entry ∧ outputs = entry.outputs ∧
        t = { s with cache := s.cache.hit }) ∨
      (s.cache.lookup? rule source = none ∧
        ∃ u v, create { s with cache := s.cache.miss } = .value outputs u ∧
          fill outputs { u with cache := u.cache.start rule source outputs } = .value () v ∧
          t = { v with cache := v.cache.finish rule source }) := by
  obtain ⟨_, _, read, ended⟩ := bind_eq_value.1 ended
  obtain ⟨rfl, rfl⟩ := state_eq_value.1 read
  cases found : s.cache.lookup? rule source with
  | some entry =>
    simp only [cachePlace, found, bind_eq_value, modify_eq_value, pure_eq_value] at ended
    obtain ⟨_, _, rfl, rfl, rfl⟩ := ended
    exact .inl ⟨entry, rfl, rfl, rfl⟩
  | none =>
    simp only [cachePlace, found, bind_eq_value, modify_eq_value, pure_eq_value] at ended
    obtain ⟨_, _, rfl, made, u, created, _, _, rfl, _, v, filled, _, _, rfl, rfl, rfl⟩ := ended
    exact .inr ⟨rfl, u, v, created, filled, rfl⟩

theorem request_eq_failure {create : Run Engine Outputs} {fill : Outputs → Run Engine Unit}
    {rule : String} {source : Value} {fault : Fault}
    (failed : LazyCache.request cachePlace create fill rule source s = .failure fault t) :
    s.cache.lookup? rule source = none ∧
      (create { s with cache := s.cache.miss } = .failure fault t ∨
        ∃ outputs u, create { s with cache := s.cache.miss } = .value outputs u ∧
          fill outputs { u with cache := u.cache.start rule source outputs } = .failure fault t) := by
  obtain failed | ⟨_, _, read, failed⟩ := bind_eq_failure.1 failed
  · exact absurd failed state_ne_failure
  obtain ⟨rfl, rfl⟩ := state_eq_value.1 read
  cases found : s.cache.lookup? rule source with
  | some entry => simp [cachePlace, found, bind_eq_failure] at failed
  | none =>
    simp only [cachePlace, found, bind_eq_failure, modify_eq_value, modify_ne_failure,
      pure_ne_failure, false_or, or_false, and_false, exists_false] at failed
    obtain ⟨_, _, rfl, failed | ⟨outputs, u, created, _, _, rfl, failed⟩⟩ := failed
    · exact ⟨rfl, .inl failed⟩
    · exact ⟨rfl, .inr ⟨outputs, u, created, failed⟩⟩

theorem noticing_eq_value {complete : Bool} {v w : Value}
    (ended : (if !complete then
        Run.modify (changeFrame fun frame => { frame with sawIncomplete := true }) >>= fun _ => pure v
      else pure v : Run Engine Value) s = .value w t) : t = noticing complete s := by
  cases complete with
  | true => exact (pure_eq_value.1 ended).2.symm
  | false =>
    obtain ⟨_, _, noted, ended⟩ := bind_eq_value.1 ended
    obtain rfl := modify_eq_value.1 noted
    exact (pure_eq_value.1 ended).2.symm

theorem createLazy_course {transformation : Transformation} {rule : LazyRule} {source : Value}
    {outputs : Outputs} (ended : createLazy transformation rule source s = .value outputs t) :
    ∃ u, Course setting [] s u ∧ t = { u with lazyApplied := u.lazyApplied + 1 } := by
  obtain ⟨_, u, noted, ended⟩ := bind_eq_value.1 ended
  obtain rfl := modify_eq_value.1 noted
  obtain ⟨made, u, created, ended⟩ := bind_eq_value.1 ended
  obtain ⟨_, w, registered, ended⟩ := bind_eq_value.1 ended
  simp only [bind_eq_value, modify_eq_value, pure_eq_value] at ended
  obtain ⟨_, _, rfl, rfl, rfl⟩ := ended
  have before : Course setting [] s u :=
    .trans (.quiet (noteRule_quiet _ s)) (makeTargets_course created)
  exact ⟨w, before.trans (registerLink_course registered), rfl⟩

/-- Expressions are evaluated along courses that assign nothing themselves. -/
def Follows (setting : Setting) (self : Evaluator) : Prop :=
  ∀ ⦃env e s v t⦄, self env e s = .value v t → ∃ done, Course setting done s t ∧ jobs done = []

namespace Follows

theorem applyBinding (follows : Follows setting self) {rule : String} {target : Value}
    {binding : Binding} {scope : Named Value}
    (ended : applyBinding self setting rule target binding (setting.rootEnvironment scope) true [] s =
      .value () t) :
    ∃ done, Course setting done s t ∧ Apart done ∧
      jobs done = bindingJobs target (setting.rootEnvironment scope).snapshot [binding] := by
  obtain ⟨v, u, h, stored, store, evaluated, rfl, accepted, rfl⟩ := applyBinding_eq_value ended
  obtain ⟨inner, course, -⟩ := follows evaluated
  obtain rfl : u.history = inner := course.history
  simp only [Bool.and_true]
  exact ⟨_, .binding rfl rfl course accepted, ⟨rfl, rfl⟩, rfl⟩

theorem applyBindings (follows : Follows setting self) {rule : String} {target : Value}
    {scope : Named Value} {bindings : List Binding}
    (ended : applyBindings self setting rule target (setting.rootEnvironment scope) bindings s =
      .value () t) :
    ∃ done, Course setting done s t ∧ Apart done ∧
      jobs done = bindingJobs target (setting.rootEnvironment scope).snapshot bindings := by
  induction bindings generalizing s with
  | nil =>
    obtain ⟨-, rfl⟩ := pure_eq_value.1 ended
    exact ⟨[], .refl s, .nil, rfl⟩
  | cons binding rest ih =>
    obtain ⟨_, u, applied, ended⟩ := bind_eq_value.1 ended
    obtain ⟨done, first, alone, here⟩ := follows.applyBinding applied
    obtain ⟨more, behind, apart, there⟩ := ih ended
    refine ⟨done ++ more, first.trans behind, alone.append apart, ?_⟩
    rw [jobs_append, here, there]
    rfl

theorem fillOutputs (follows : Follows setting self) {rule : String} {outputs : Outputs}
    {scope : Named Value} {patterns : List OutPattern}
    (ended : fillOutputs self setting rule outputs (setting.rootEnvironment scope) patterns s =
      .value () t) :
    ∃ done, Course setting done s t ∧ Apart done ∧
      jobs done = outputJobs outputs (setting.rootEnvironment scope).snapshot patterns := by
  induction patterns generalizing s with
  | nil =>
    obtain ⟨-, rfl⟩ := pure_eq_value.1 ended
    exact ⟨[], .refl s, .nil, rfl⟩
  | cons out rest ih =>
    obtain ⟨_, u, applied, ended⟩ := bind_eq_value.1 ended
    obtain ⟨done, first, alone, here⟩ := follows.applyBindings applied
    obtain ⟨more, behind, apart, there⟩ := ih ended
    refine ⟨done ++ more, first.trans behind, alone.append apart, ?_⟩
    rw [jobs_append, here, there]
    rfl

theorem fillApplication (follows : Follows setting self) {rule : String}
    {patterns : List OutPattern} {outputs : Outputs} {scope : Named Value}
    (ended : fillApplication self setting rule patterns outputs scope s = .value () t) :
    ∃ done, Course setting done s t ∧ Apart done ∧
      jobs done = outputJobs outputs (setting.rootEnvironment (scope.update outputs)).snapshot
        patterns := by
  obtain ⟨_, u, noted, ended⟩ := bind_eq_value.1 ended
  obtain rfl := modify_eq_value.1 noted
  obtain ⟨done, course, apart, ordered⟩ := follows.fillOutputs ended
  exact ⟨done, .trans (.quiet (noteRule_quiet rule s)) course, apart, ordered⟩

theorem executeStatement (follows : Follows setting self) {env : Environment} {v : Value}
    {statement : Statement}
    (ended : executeStatement self setting env statement s = .value v t) :
    ∃ done, Course setting done s t ∧ jobs done = (statement.job? env).toList := by
  cases statement with
  | evaluate e => exact follows ended
  | assign target feature e =>
    obtain ⟨stored, x, inside, rfl⟩ := working_eq_value.1 ended
    obtain ⟨w, u, evaluated, inside⟩ := bind_eq_value.1 inside
    simp only [bind_eq_value, ofResult_eq_value, state_eq_value, guarded_eq_value, modify_eq_value,
      pure_eq_value, Prod.mk.injEq] at inside
    obtain ⟨object, _, ⟨found, rfl⟩, _, _, ⟨rfl, rfl⟩, -, _, _, rfl, value, z, assigned,
      ⟨rfl, rfl⟩, rfl⟩ := inside
    obtain ⟨h, store, rfl, -, accepted, rfl⟩ := assign_eq_value assigned
    obtain ⟨inner, course, -⟩ := follows evaluated
    obtain rfl : u.history = inner := course.history
    have target : (env.get? target).getD .undefined = .object h := by rw [lookup_eq_ok found]; rfl
    exact ⟨_, .statement target course accepted, rfl⟩

theorem executeBody (follows : Follows setting self) {env : Environment} {last v : Value}
    {body : List Statement} (ended : executeBody self setting env last body s = .value v t) :
    ∃ done, Course setting done s t ∧ jobs done = body.filterMap (·.job? env) := by
  induction body generalizing s last with
  | nil =>
    obtain ⟨-, rfl⟩ := pure_eq_value.1 ended
    exact ⟨[], .refl s, rfl⟩
  | cons statement rest ih =>
    obtain ⟨w, u, executed, ended⟩ := bind_eq_value.1 ended
    obtain ⟨done, first, here⟩ := follows.executeStatement executed
    obtain ⟨more, behind, there⟩ := ih ended
    refine ⟨done ++ more, first.trans behind, ?_⟩
    rw [jobs_append, here, there]
    cases job : statement.job? env <;> simp [job]

theorem fillLazy (follows : Follows setting self) {rule : LazyRule} {source : Value}
    {outputs : Outputs} (ended : fillLazy self setting rule source outputs s = .value () t) :
    ∃ done, Course setting done s t ∧ Apart done := by
  unfold Engine.fillLazy at ended
  obtain ⟨u, filled, rfl⟩ := applying_eq_value.1 ended
  obtain ⟨inner, course, apart, ordered⟩ := follows.fillApplication filled
  obtain rfl : u.history = inner := course.history
  refine ⟨_, .application course (by simpa [programJobs] using ordered), ?_, ?_⟩
  · simpa [Event.met] using apart.met
  · simpa [repliesAmong, Event.replies] using apart.replies

theorem executeCalled (follows : Follows setting self) {transformation : Transformation}
    {rule : CalledRule} {args : List Value} {v : Value}
    (ended : executeCalled self setting transformation rule args s = .value v t) :
    ∃ done, Course setting done s t ∧ jobs done = [] := by
  obtain ⟨_, u, noted, ended⟩ := bind_eq_value.1 ended
  obtain rfl := modify_eq_value.1 noted
  obtain ⟨outputs, u, made, ended⟩ := bind_eq_value.1 ended
  obtain ⟨last, w, worked, ended⟩ := bind_eq_value.1 ended
  obtain ⟨-, rfl⟩ := pure_eq_value.1 ended
  obtain ⟨x, inside, rfl⟩ := applying_eq_value.1 worked
  obtain ⟨_, y, filled, executed⟩ := bind_eq_value.1 inside
  obtain ⟨done, first, -, here⟩ := follows.fillApplication filled
  obtain ⟨more, behind, there⟩ := follows.executeBody executed
  have course := first.trans behind
  have told : x.history = done ++ more := course.history
  have before : Course setting [] s u :=
    .trans (.quiet (noteRule_quiet _ s)) (makeTargets_course made)
  have ordered := jobs_append done more
  rw [here, there] at ordered
  rw [told]
  exact ⟨_, before.trans (.application course ordered), rfl⟩

theorem invokeLazy (follows : Follows setting self) {transformation : Transformation}
    {rule : LazyRule} {argument v : Value}
    (ended : invokeLazy self setting transformation rule argument s = .value v t) :
    ∃ done, Course setting done s t ∧ jobs done = [] := by
  obtain ⟨_, _, refused, ended⟩ := bind_eq_value.1 ended
  obtain rfl := (refuseWhileMatching_keeps (c := .still) _).value refused
  split at ended
  · obtain ⟨-, rfl⟩ := pure_eq_value.1 ended
    exact ⟨[], .refl s, rfl⟩
  · obtain ⟨_, _, checked, ended⟩ := bind_eq_value.1 ended
    obtain rfl := (checkArgument_keeps (c := .still) _ _ _).value checked
    obtain ⟨_, _, entered, ended⟩ := bind_eq_value.1 ended
    obtain rfl := enterRule_eq_value entered
    obtain ⟨⟨result, complete⟩, w, invoked, ended⟩ := bind_eq_value.1 ended
    obtain ⟨u, inside, rfl⟩ := nest_eq_telling.1 invoked
    obtain ⟨made, _, requested, inside⟩ := bind_eq_value.1 inside
    obtain ⟨x, answered, rfl⟩ := ensuring_eq_value.1 requested
    simp only [bind_eq_value, state_eq_value, pure_eq_value, Prod.mk.injEq] at inside
    obtain ⟨_, _, ⟨rfl, rfl⟩, ⟨rfl, rfl⟩, rfl⟩ := inside
    obtain rfl := noticing_eq_value ended
    obtain ⟨entry, found, rfl, rfl⟩ | ⟨missing, a, b, created, filled, rfl⟩ :=
      request_eq_value answered
    · have known : s.cache.hit.isComplete rule.name argument = entry.complete := by
        change (s.cache.lookup? rule.name argument).any (·.complete) = entry.complete
        rw [show s.cache.lookup? rule.name argument = some entry from found]
        rfl
      have course : Course setting
          [.lazy rule.name argument entry.complete (some (answer rule entry.outputs)) []] s _ :=
        .hit found
      rw [← known] at course
      exact ⟨_, course, rfl⟩
    · obtain ⟨y, made, rfl⟩ := createLazy_course created
      obtain ⟨inner, course, apart⟩ := follows.fillLazy filled
      have told : y.history = [] := made.history
      have told : b.history = inner := by
        rw [course.history]
        exact congrArg (· ++ inner) told
      subst told
      exact ⟨_, .miss missing made course apart rfl, rfl⟩

theorem invokeCalled (follows : Follows setting self) {transformation : Transformation}
    {rule : CalledRule} {args : List Value} {v : Value}
    (ended : invokeCalled self setting transformation rule args s = .value v t) :
    ∃ done, Course setting done s t ∧ jobs done = [] := by
  obtain ⟨_, _, refused, ended⟩ := bind_eq_value.1 ended
  obtain rfl := (refuseWhileMatching_keeps (c := .still) _).value refused
  obtain ⟨-, ended⟩ := guarded_eq_value.1 ended
  obtain ⟨_, _, checked, ended⟩ := bind_eq_value.1 ended
  obtain rfl := (checkArguments_keeps (c := .still) _ _ _).value checked
  obtain ⟨answer, u, asked, answered⟩ := bind_eq_value.1 ended
  obtain ⟨unkept, rfl, rfl⟩ | ⟨call, frame, kept, rfl, rfl⟩ := recorded?_eq_value asked
  · obtain ⟨_, _, entered, going⟩ := bind_eq_value.1 answered
    obtain rfl := enterRule_eq_value entered
    obtain ⟨⟨result, after⟩, w, invoked, going⟩ := bind_eq_value.1 going
    obtain ⟨u, inside, rfl⟩ := nest_eq_telling.1 invoked
    obtain ⟨x, framed, rfl⟩ := ensuring_eq_value.1 inside
    obtain ⟨y, ran, rfl, rfl⟩ := inFrame_eq_value.1 framed
    obtain ⟨inner, course, -⟩ := follows.executeCalled ran
    obtain rfl : y.history = inner := course.history
    simp only [bind_eq_value, modify_eq_value, pure_eq_value] at going
    obtain ⟨_, _, rfl, _, _, rfl, rfl, rfl⟩ := going
    exact ⟨_, .called unkept course, rfl⟩
  · simp only [bind_eq_value, modify_eq_value, pure_eq_value] at answered
    obtain ⟨_, _, rfl, rfl, rfl⟩ := answered
    exact ⟨_, .replayed kept, rfl⟩

theorem fillAll (follows : Follows setting self) {work : List (Application × Outputs)}
    (ended : fillAll self setting work s = .value () t) : ∃ done, Course setting done s t := by
  induction work generalizing s with
  | nil =>
    obtain ⟨-, rfl⟩ := pure_eq_value.1 ended
    exact ⟨[], .refl s⟩
  | cons item rest ih =>
    obtain ⟨_, u, worked, ended⟩ := bind_eq_value.1 ended
    obtain ⟨x, filled, rfl⟩ := applying_eq_value.1 worked
    obtain ⟨inner, course, -, ordered⟩ := follows.fillApplication filled
    obtain rfl : x.history = inner := course.history
    obtain ⟨more, behind⟩ := ih ended
    exact ⟨_, .trans (.application course (by simpa [programJobs] using ordered)) behind⟩

theorem resolveDeferred (follows : Follows setting self) {d : DeferredBinding}
    (ended : resolveDeferred self setting d s = .value () t) :
    ∃ h v store u inner, d.target = .object h ∧
      Course setting inner (opened { replay := d.calls } s) u ∧
      u.store.set h d.binding.feature v = .ok store ∧
      t = { telling s (.assignment .again (d.work setting) (some v) inner)
          (settled store u.popFrame) with deferredResolved := u.deferredResolved + 1 } := by
  obtain ⟨_, w, applied, counted⟩ := bind_eq_value.1 ended
  obtain rfl := modify_eq_value.1 counted
  obtain ⟨v, x, h, stored, store, evaluated, target, accepted, rfl⟩ :=
    applyBinding_eq_value applied
  obtain ⟨inner, course, -⟩ := follows evaluated
  obtain rfl : x.history = inner := course.history
  exact ⟨h, stored, store, x, _, target, course, accepted, by simp only [Bool.and_false]; rfl⟩

theorem resolveFrom (follows : Follows setting self) {bound position : Nat}
    (ended : resolveFrom self setting bound position s = .value () t) :
    ∃ done, Redoing setting position done s t := by
  induction bound generalizing s position with
  | zero => cases ended
  | succ bound ih =>
    obtain ⟨_, _, read, ended⟩ := bind_eq_value.1 ended
    obtain ⟨rfl, rfl⟩ := state_eq_value.1 read
    cases turn : s.deferred[position]? with
    | none =>
      simp only [turn, pure_eq_value] at ended
      obtain ⟨-, rfl⟩ := ended
      exact ⟨[], .finished turn⟩
    | some d =>
      simp only [turn] at ended
      obtain ⟨_, u, redone, ended⟩ := bind_eq_value.1 ended
      obtain ⟨h, v, store, x, inner, target, course, accepted, rfl⟩ := follows.resolveDeferred redone
      obtain ⟨more, rest⟩ := ih ended
      exact ⟨_, .next turn target course accepted rest⟩

end Follows

def along (setting : Setting) : Conduct Engine :=
  .ofEnds (fun s t => ∃ done, Course setting done s t ∧ jobs done = [])
    (fun s => ⟨[], .refl s, rfl⟩)
    (fun ⟨done, first, here⟩ ⟨more, rest, there⟩ =>
      ⟨done ++ more, first.trans rest, by rw [jobs_append, here, there]; rfl⟩)

theorem follows_iff_along : Follows setting self ↔ ∀ env e, Keeps (along setting) (self env e) :=
  ⟨fun follows _ _ => .ofEnds (fun _ _ => trivial) (fun _ => trivial) fun ended => follows ended,
    fun kept _ _ _ _ _ ended => (kept _ _).value ended⟩

theorem Follows.serves (follows : Follows setting self) : Serves (along setting) setting self where
  quiet quiet := ⟨[], .quiet quiet, rfl⟩
  expression := follows_iff_along.1 follows
  lazy _ _ := .ofEnds (fun _ _ => trivial) (fun _ => trivial) follows.invokeLazy
  called _ _ := .ofEnds (fun _ _ => trivial) (fun _ => trivial) follows.invokeCalled

theorem evaluateWithin_follows (setting : Setting) (bound : Nat) :
    Follows setting (evaluateWithin setting bound) :=
  follows_iff_along.2
    (evaluateWithin_keeps (fun _ => trivial)
      (fun _ kept => (follows_iff_along.2 kept).serves) bound)

end Engine

end Metamorph
