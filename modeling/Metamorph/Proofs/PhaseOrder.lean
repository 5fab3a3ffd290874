import Metamorph.Proofs.Bearing
import Metamorph.Proofs.Resolution
import Metamorph.Proofs.Stages

/-! The phases of a pipeline over any sequence of calls. They come in their order, a failure ends them,
and what is done belongs to its phase: nothing is touched while matching, and no feature is set before
initialization. -/
namespace Metamorph

namespace Phase

/-- The phases of a run that succeeds. -/
def order : List Phase := [ready, matching, creation, initialization, resolution, complete]

/-- The phases up to one of them. -/
def path (phase : Phase) : List Phase := order.take (order.idxOf phase + 1)

theorem path_prefix (phase : Phase) : phase.path <+: order := List.take_prefix _ _

theorem path_next {phase next : Phase} (follows : phase.next? = some next) :
    next.path = phase.path ++ [next] := by
  cases phase <;> cases follows <;> rfl

end Phase

namespace Engine
open Run
variable {setting : Setting} {t : Transformation} {self : Evaluator} {s u : Engine}
  {phase next : Phase}

/-- The phase is reached, those before it were gone through, and no rule is being applied. -/
structure At (reached : Phase) (s : Engine) : Prop where
  phase : s.phase = reached
  visited : s.visited = reached.path
  depth : s.depth = 0

theorem At.enter (here : At phase s) (follows : phase.next? = some next) :
    At next (enterPhase next s) where
  phase := rfl
  visited := by
    rw [Phase.path_next follows, ← here.visited]
    rfl
  depth := here.depth

/-- The states agree on the phases and on how deep rules are nested. -/
def Steady (s u : Engine) : Prop :=
  u.phase = s.phase ∧ u.visited = s.visited ∧ u.depth = s.depth

theorem Level.steady (level : Level s u) : Steady s u := ⟨level.phase, level.visited, level.depth⟩

theorem Steady.trans {w : Engine} (first : Steady s u) (rest : Steady u w) : Steady s w :=
  ⟨rest.1.trans first.1, rest.2.1.trans first.2.1, rest.2.2.trans first.2.2⟩

/-- Entering a rule and leaving it again comes back to the depth. -/
theorem Steady.leave {r : Engine} (level : Level s.enter r) (kept : Steady r u) :
    Steady s u.leave := by
  obtain ⟨phase, visited, depth⟩ := level.steady.trans kept
  refine ⟨phase, visited, ?_⟩
  change u.depth - 1 = s.depth
  rw [depth]
  rfl

/-- Runs within a phase. -/
def steady : Conduct Engine := .both Steady (fun _ => ⟨rfl, rfl, rfl⟩) Steady.trans

theorem At.steady (here : At phase s) (kept : Steady s u) : At phase u :=
  ⟨kept.1.trans here.phase, kept.2.1.trans here.visited, kept.2.2.trans here.depth⟩

theorem At.quiet (here : At phase s) (quiet : Quiet s u) : At phase u :=
  here.steady quiet.level.steady

theorem steady_bears : Bears steady fun _ => True :=
  .of_level Level.steady (fun kept level => Steady.trans kept level.steady) fun _ => ⟨rfl, rfl, rfl⟩

theorem steady_encloses (setting : Setting) : Encloses setting steady steady := by
  refine Encloses.of_level Level.steady (fun kept level => Steady.trans kept level.steady) ?_
  intro α s r run _ level kept
  unfold Run.ensuring
  cases ended : run r with
  | value a u =>
    rw [ended] at kept
    exact Steady.leave level kept
  | failure fault u =>
    rw [ended] at kept
    exact Steady.leave level kept
  | exhausted => trivial

theorem steady_serves (kept : ∀ env e, Keeps steady (self env e)) :
    Serves steady setting self :=
  steady_bears.serves kept (fun quiet => quiet.level.steady) (steady_encloses setting)

theorem resolveFrom_steady (kept : ∀ env e, Keeps steady (self env e)) (bound position : Nat) :
    Keeps steady (resolveFrom self setting bound position) :=
  steady_bears.resolveFrom kept (fun _ => trivial) bound position

theorem callRuleWith_steady (kept : ∀ env e, Keeps steady (self env e)) (name : String)
    (args : List Value) : Keeps steady (callRuleWith self setting t name args) :=
  steady_bears.callRuleWith kept (steady_encloses setting) name args

theorem filling_steady (kept : ∀ env e, Keeps steady (self env e)) :
    Keeps steady (fillScheduled self setting) :=
  .bind .state fun _ => steady_bears.fillAll (fun env _ _ => kept env _)
    fun _ _ out _ => out.binds_any

theorem advance_at (here : At phase s) (follows : phase.next? = some next) :
    advance next s = .value () (enterPhase next s) := by
  refine bind_eq_value.2 ⟨s, s, rfl, ?_⟩
  rw [here.phase, if_pos follows]
  rfl

/-- What is left of a phase is left of its work. -/
theorem runPhase_left {work : Run Engine Unit} (here : At phase s)
    (follows : phase.next? = some next)
    (left : (runPhase setting next work s).state? = some u) :
    ∃ w, (work (enterPhase next s)).state? = some w ∧ Quiet w u := by
  obtain ⟨fault, failed⟩ | ⟨_, v, entered, left⟩ := Outcome.state?_bind left
  · rw [advance_at here follows] at failed
    cases failed
  rw [advance_at here follows] at entered
  cases entered
  obtain ⟨fault, failed⟩ | ⟨_, w, worked, left⟩ := Outcome.state?_bind left
  · exact ⟨u, Outcome.state?_failure failed, .refl u⟩
  · refine ⟨w, Outcome.state?_value worked, ?_⟩
    split at left
    · cases left
      exact ⟨_, _, _, _, _, _, _, _, _, rfl⟩
    · cases left
      exact .refl _

theorem runPhase_at {work : Run Engine Unit} (kept : Keeps steady work) (here : At phase s)
    (follows : phase.next? = some next)
    (left : (runPhase setting next work s).state? = some u) : At next u := by
  obtain ⟨w, worked, quiet⟩ := runPhase_left here follows left
  exact ((here.enter follows).steady (kept.left id worked)).quiet quiet

/-- Matching leaves everything but the schedule as it is, and whatever guards evaluate leaves no more
than counts behind. -/
theorem matchSources_left (guarded : ∀ env e, Keeps guarding (self env e))
    (matching : s.phase = .matching) (left : (matchSources self setting t s).state? = some u) :
    ∃ schedule, Quiet { s with schedule } u := by
  have still : Keeps guarding (buildSchedule self setting t.module t.sources) :=
    buildSchedule_guarded guarded
  obtain ⟨fault, failed⟩ | ⟨schedule, w, built, left⟩ := Outcome.state?_bind left
  · exact ⟨s.schedule, still.failure failed matching⟩
  · cases left
    obtain ⟨_, _, _, _, _, _, _, _, _, rfl⟩ := still.value built matching
    exact ⟨some schedule, _, _, _, _, _, _, _, _, _, rfl⟩

/-- The states agree on the values of features, on the schedule, on what bindings did, and on the
history. -/
structure Unwritten (s u : Engine) : Prop where
  values : ∀ h f, u.store.value? h f = s.store.value? h f
  bindingsEvaluated : u.bindingsEvaluated = s.bindingsEvaluated
  cache : u.cache = s.cache
  schedule : u.schedule = s.schedule
  deferred : u.deferred = s.deferred
  history : u.history = s.history

theorem Unwritten.refl (s : Engine) : Unwritten s s := ⟨fun _ _ => rfl, rfl, rfl, rfl, rfl, rfl⟩

theorem Unwritten.trans {w : Engine} (first : Unwritten s u) (rest : Unwritten u w) :
    Unwritten s w where
  values h f := (rest.values h f).trans (first.values h f)
  bindingsEvaluated := rest.bindingsEvaluated.trans first.bindingsEvaluated
  cache := rest.cache.trans first.cache
  schedule := rest.schedule.trans first.schedule
  deferred := rest.deferred.trans first.deferred
  history := rest.history.trans first.history

theorem Makes.unwritten (makes : Makes t s u) : Unwritten s u where
  values := makes.values
  bindingsEvaluated := makes.others.bindingsEvaluated
  cache := makes.others.cache
  schedule := makes.others.schedule
  deferred := makes.others.deferred
  history := makes.others.history

def unwritten : Conduct Engine := .both Unwritten .refl .trans

theorem createAll_unwritten (scheduled : List Application) :
    Keeps unwritten (createAll t scheduled) := by
  have step {change : Engine → Engine} (same : ∀ s, Unwritten s (change s)) :
      Keeps unwritten (Run.modify change) := .modify same
  induction scheduled with
  | nil => exact .pure _
  | cons e rest ih =>
    refine .bind (step fun s => (Makes.idle (noteRule_quiet _ s).idle : Makes t s _).unwritten)
      fun _ => ?_
    have made : Keeps unwritten (makeTargets t e.rule.outputs) :=
      (makeTargets_keeps e.rule.outputs).imp Makes.unwritten Makes.unwritten id
    refine .bind made fun outputs => .bind ?_ fun _ => ?_
    · refine .bind .state fun s => .bind (.ofResult _) fun _ => step fun s => ?_
      exact ⟨fun _ _ => rfl, rfl, rfl, rfl, rfl, rfl⟩
    · exact .bind (step fun s => ⟨fun _ _ => rfl, rfl, rfl, rfl, rfl, rfl⟩) fun _ => ih

end Engine

/-- The pipeline was set up with the models and has done nothing to them, nor applied any rule. -/
structure Untouched (store : Store) (u : Engine) : Prop where
  store : u.store = store
  owners : u.owners = []
  trace : u.trace.links = []
  cache : u.cache.entries = []
  created : u.created = []
  deferred : u.deferred = []
  history : u.history = []
  objectsCreated : u.objectsCreated = 0
  bindingsEvaluated : u.bindingsEvaluated = 0
  matchedApplied : u.matchedApplied = 0
  lazyApplied : u.lazyApplied = 0
  calledApplied : u.calledApplied = 0

/-- No feature of any object was set, and no lazy or called rule applied. -/
structure Unset (store : Store) (u : Engine) : Prop where
  values : ∀ h f, u.store.value? h f = store.value? h f
  bindingsEvaluated : u.bindingsEvaluated = 0
  cache : u.cache.entries = []
  deferred : u.deferred = []
  history : u.history = []

theorem Untouched.unset {store : Store} {u : Engine} (untouched : Untouched store u) :
    Unset store u where
  values h f := by rw [untouched.store]
  bindingsEvaluated := untouched.bindingsEvaluated
  cache := untouched.cache
  deferred := untouched.deferred
  history := untouched.history

namespace Engine
open Run
variable {setting : Setting} {t : Transformation} {self : Evaluator} {store : Store}
  {log : List LogRecord} {u : Engine}

theorem at_ready : At .ready { store, log } := ⟨rfl, rfl, rfl⟩

theorem matching_untouched (guarded : ∀ env e, Keeps guarding (self env e))
    (left : (runPhase setting .matching (matchSources self setting t) { store, log }).state? = some u) :
    At .matching u ∧ Untouched store u := by
  obtain ⟨w, worked, quiet⟩ := runPhase_left at_ready rfl left
  obtain ⟨schedule, still⟩ := matchSources_left guarded rfl worked
  obtain ⟨_, _, _, _, _, _, _, _, _, rfl⟩ := still.trans quiet
  exact ⟨⟨rfl, rfl, rfl⟩, by constructor <;> rfl⟩

/-- Creation goes on where matching ended. -/
theorem creation_unset {s : Engine} (here : At .matching s) (untouched : Untouched store s)
    (left : (runPhase setting .creation (do createAll t (scheduled (← Run.state))) s).state? =
      some u) : At .creation u ∧ Unset store u := by
  have kept : Keeps unwritten (do createAll t (scheduled (← Run.state))) :=
    .bind .state fun s => createAll_unwritten _
  have placed : Keeps steady (do createAll t (scheduled (← Run.state))) :=
    .bind .state fun s => steady_bears.createAll _
  obtain ⟨w, worked, quiet⟩ := runPhase_left here rfl left
  have done := kept.left id worked
  refine ⟨runPhase_at placed here rfl left, ?_⟩
  obtain ⟨_, _, _, _, _, _, _, _, _, rfl⟩ := quiet
  have before := untouched.unset
  exact {
    values := fun h f => (done.values h f).trans (before.values h f)
    bindingsEvaluated := done.bindingsEvaluated.trans before.bindingsEvaluated
    cache := (congrArg LazyCache.entries done.cache).trans before.cache
    deferred := done.deferred.trans before.deferred
    history := done.history.trans before.history }

/-- What is known of a pipeline whose run was left in a phase. -/
structure Left (store : Store) (reached : Phase) (u : Engine) : Prop where
  here : At reached u
  matching : .creation ∉ reached.path → Untouched store u
  creation : .initialization ∉ reached.path → Unset store u

theorem matchAndCreate_left (guarded : ∀ env e, Keeps guarding (self env e))
    (left : (matchAndCreate self setting t { store, log }).state? = some u) :
    (∃ fault, matchAndCreate self setting t { store, log } = .failure fault u ∧
      Left store .matching u) ∨ Left store .creation u := by
  obtain ⟨fault, failed⟩ | ⟨_, w, matched, left⟩ := Outcome.state?_bind left
  · obtain ⟨here, untouched⟩ := matching_untouched guarded (Outcome.state?_failure failed)
    exact .inl ⟨fault, bind_eq_failure.2 (.inl failed), here, fun _ => untouched,
      fun _ => untouched.unset⟩
  · obtain ⟨here, untouched⟩ := matching_untouched guarded (Outcome.state?_value matched)
    obtain ⟨there, unset⟩ := creation_unset here untouched left
    exact .inr ⟨there, fun early => absurd (by decide) early, fun _ => unset⟩

theorem matchAndCreate_at (guarded : ∀ env e, Keeps guarding (self env e))
    (ended : matchAndCreate self setting t { store, log } = .value () u) :
    At .creation u ∧ Unset store u := by
  obtain ⟨_, failed, -⟩ | left := matchAndCreate_left guarded (Outcome.state?_value ended)
  · rw [ended] at failed
    cases failed
  · exact ⟨left.here, left.creation (by decide)⟩

section
variable (guarded : ∀ env e, Keeps guarding (self env e)) (kept : ∀ env e, Keeps steady (self env e))
include guarded kept

theorem prepareWalk_at (ended : prepareWalk self setting t { store, log } = .value () u) :
    At .initialization u := by
  obtain ⟨_, b, created, filled⟩ := bind_eq_value.1 ended
  obtain ⟨here, -⟩ := matchAndCreate_at guarded created
  exact runPhase_at (filling_steady kept) here rfl (Outcome.state?_value filled)

theorem prepareWalk_left (left : (prepareWalk self setting t { store, log }).state? = some u) :
    ∃ reached, Left store reached u := by
  obtain ⟨fault, failed⟩ | ⟨_, b, created, left⟩ := Outcome.state?_bind left
  · obtain ⟨_, -, left⟩ | left := matchAndCreate_left guarded (Outcome.state?_failure failed)
    · exact ⟨_, left⟩
    · exact ⟨_, left⟩
  · obtain ⟨here, -⟩ := matchAndCreate_at guarded created
    have there := runPhase_at (filling_steady kept) here rfl left
    exact ⟨_, there, fun early => absurd (by decide) early, fun early => absurd (by decide) early⟩

theorem phases_left {bound : Nat}
    (left : (phases self bound setting t { store, log }).state? = some u) :
    ∃ reached, Left store reached u := by
  rw [phases_eq_bind] at left
  obtain ⟨fault, failed⟩ | ⟨_, c, prepared, left⟩ := Outcome.state?_bind left
  · exact prepareWalk_left guarded kept (Outcome.state?_failure failed)
  · have here := prepareWalk_at guarded kept prepared
    have last := runPhase_at (resolveFrom_steady kept bound 0) here rfl left
    exact ⟨_, last, fun early => absurd (by decide) early, fun early => absurd (by decide) early⟩

theorem phases_at {bound : Nat}
    (ended : phases self bound setting t { store, log } = .value () u) : At .resolution u := by
  rw [phases_eq_bind] at ended
  obtain ⟨_, c, prepared, resolved⟩ := bind_eq_value.1 ended
  have here := prepareWalk_at guarded kept prepared
  exact runPhase_at (resolveFrom_steady kept bound 0) here rfl (Outcome.state?_value resolved)

end

theorem evaluateWithin_guarding (setting : Setting) (depth : Nat) (env : Environment) (e : Expr) :
    Keeps guarding (evaluateWithin setting depth env e) :=
  evaluateWithin_keeps (fun _ => trivial) (fun _ kept => guarding_serves kept) depth env e

theorem evaluateWithin_steady (setting : Setting) (depth : Nat) (env : Environment) (e : Expr) :
    Keeps steady (evaluateWithin setting depth env e) :=
  evaluateWithin_keeps (fun _ => trivial) (fun _ kept => steady_serves kept) depth env e

/-- The pipeline is found in the state after calls of any kind in any order, each of which may have
succeeded or failed. -/
inductive Uses (setting : Setting) (t : Transformation) (store : Store) (log : List LogRecord) :
    Engine → Prop
  | setUp : Uses setting t store log { store, log }
  | run {depth bound s u} (earlier : Uses setting t store log s)
      (left : (runWith (evaluateWithin setting depth) bound setting t s).state? = some u) :
      Uses setting t store log u
  | call {depth name args s u} (earlier : Uses setting t store log s)
      (left : (callRuleWith (evaluateWithin setting depth) setting t name args s).state? = some u) :
      Uses setting t store log u

theorem runWith_refused {s : Engine} (begun : s.phase ≠ .ready) (bound : Nat) :
    runWith self bound setting t s = .failure (illegalTransition s.phase "MATCHING") s := by
  refine bind_eq_failure.2 (.inr ⟨s, s, rfl, ?_⟩)
  rw [if_pos begun]
  rfl

/-- What holds wherever the phases of a run are left holds wherever the run is, if it does not depend on
the phase and on what is reported. -/
theorem runWith_left {holds : Engine → Prop} {bound : Nat}
    (left : (runWith self bound setting t { store, log }).state? = some u)
    (worked : ∀ w, (phases self bound setting t { store, log }).state? = some w → holds w)
    (moved : ∀ phase w, holds w → holds (enterPhase phase w))
    (noted : ∀ fault w, holds w → holds (failed t fault w)) : holds u := by
  obtain ⟨fault, failed⟩ | ⟨_, w, ended, left⟩ := Outcome.state?_bind left
  · cases failed
  cases ended
  dsimp only at left
  rw [if_neg (by simp)] at left
  obtain ⟨fault, failed⟩ | ⟨_, w, ended, left⟩ := Outcome.state?_bind left
  · obtain ⟨other, stopped, failed, told⟩ := rescue_eq_failure.1 failed
    have before := worked stopped (Outcome.state?_failure failed)
    cases told
    exact noted _ _ before
  · have ended := (rescue_eq_value fun fault u told => by simp [bind_eq_value] at told).1 ended
    have before := worked w (Outcome.state?_value ended)
    obtain ⟨fault, failed⟩ | ⟨_, x, read, left⟩ := Outcome.state?_bind left
    · cases failed
    cases read
    split at left
    · cases left
      exact moved .complete w before
    · cases left
      exact before

theorem callRuleWith_refused {s : Engine} (other : s.phase ≠ .complete) (name : String)
    (args : List Value) :
    callRuleWith self setting t name args s =
      .failure (illegalTransition s.phase "execute_called_rule") s := by
  refine bind_eq_failure.2 (.inr ⟨s, s, rfl, ?_⟩)
  rw [if_pos other]
  rfl

/-- What a pipeline may look like between calls. -/
inductive Found (store : Store) (log : List LogRecord) : Engine → Prop
  | setUp : Found store log { store, log }
  | complete {reached : Engine} (here : At .complete reached) : Found store log reached
  | failed {stopped : Engine} {reached : Phase} (left : Left store reached stopped)
      (running : Transformation) (fault : Fault) : Found store log (failed running fault stopped)

theorem runWith_found {bound depth : Nat}
    (left : (runWith (evaluateWithin setting depth) bound setting t { store, log }).state? = some u) :
    Found store log u ∧ u.phase ≠ .ready := by
  have guarded := evaluateWithin_guarding setting depth
  have kept := evaluateWithin_steady setting depth
  -- The run is the phases, whose failure is noted, and the last step.
  obtain ⟨fault, failed⟩ | ⟨_, w, ended, left⟩ := Outcome.state?_bind left
  · cases failed
  cases ended
  dsimp only at left
  rw [if_neg (by simp)] at left
  obtain ⟨fault, failed⟩ | ⟨_, w, ended, left⟩ := Outcome.state?_bind left
  · obtain ⟨other, stopped, failed, noted⟩ := rescue_eq_failure.1 failed
    obtain ⟨reached, before⟩ := phases_left guarded kept (Outcome.state?_failure failed)
    cases noted
    exact ⟨.failed before t fault, by simp [Engine.failed, enterPhase, report]⟩
  · have ended := (rescue_eq_value fun fault u noted => by simp [bind_eq_value] at noted).1 ended
    have here := phases_at guarded kept ended
    rw [advance_at here rfl] at left
    cases left
    exact ⟨.complete (here.enter rfl), by simp [enterPhase]⟩

theorem Found.at_complete (found : Found store log u) (complete : u.phase = .complete) :
    At .complete u := by
  cases found with
  | setUp => cases complete
  | complete here => exact here
  | failed left running fault => cases complete

theorem Uses.found (uses : Uses setting t store log u) : Found store log u := by
  induction uses with
  | setUp => exact .setUp
  | @run depth bound s u _ left before =>
    by_cases ready : s.phase = .ready
    · cases before with
      | setUp => exact (runWith_found left).1
      | complete here =>
        rw [here.phase] at ready
        cases ready
      | failed _ running fault => cases ready
    · rw [runWith_refused ready] at left
      cases left
      exact before
  | @call depth name args s u _ left before =>
    by_cases complete : s.phase = .complete
    · have here := before.at_complete complete
      exact .complete (here.steady ((callRuleWith_steady
        (evaluateWithin_steady setting depth) name args).left id left))
    · rw [callRuleWith_refused complete] at left
      cases left
      exact before

end Engine

/-- A pipeline between calls. It went through the phases in their order, and perhaps failed after
that. Its run cannot begin again, its called rules wait for the end of it, and before a phase was
reached nothing of what belongs to it was done. -/
structure Disciplined (setting : Setting) (t : Transformation) (store : Store) (u : Engine) :
    Prop where
  order : u.visited <+: Phase.order ∨ ∃ front, u.visited = front ++ [.failed] ∧ front <+: Phase.order
  current : u.visited.getLast? = some u.phase
  once : u.phase ≠ .ready → ∀ self bound,
    Engine.runWith self bound setting t u =
      .failure (Engine.illegalTransition u.phase "MATCHING") u
  afterwards : u.phase ≠ .complete → ∀ self name args,
    Engine.callRuleWith self setting t name args u =
      .failure (Engine.illegalTransition u.phase "execute_called_rule") u
  matching : .creation ∉ u.visited → Untouched store u
  creation : .initialization ∉ u.visited → Unset store u

namespace Engine
open Run
variable {setting : Setting} {t : Transformation} {store : Store} {log : List LogRecord}
  {u : Engine}

theorem Found.disciplined (found : Found store log u) : Disciplined setting t store u := by
  have once (begun : u.phase ≠ .ready) (self : Evaluator) (bound : Nat) :
      runWith self bound setting t u = .failure (illegalTransition u.phase "MATCHING") u :=
    runWith_refused begun bound
  have afterwards (other : u.phase ≠ .complete) (self : Evaluator) (name : String)
      (args : List Value) : callRuleWith self setting t name args u =
        .failure (illegalTransition u.phase "execute_called_rule") u :=
    callRuleWith_refused other name args
  cases found with
  | setUp =>
    have nothing : Untouched store { store, log } := by constructor <;> rfl
    exact ⟨.inl (Phase.path_prefix .ready), rfl, once, afterwards, fun _ => nothing,
      fun _ => nothing.unset⟩
  | complete here =>
    have all : u.visited = Phase.order := here.visited
    refine ⟨.inl (here.visited ▸ Phase.path_prefix _), ?_, once, afterwards, ?_, ?_⟩
    · rw [all, here.phase]
      rfl
    · rw [all]
      exact fun early => absurd (by decide) early
    · rw [all]
      exact fun early => absurd (by decide) early
  | @failed stopped reached left running fault =>
    have visited : (Engine.failed running fault stopped).visited = reached.path ++ [.failed] := by
      rw [← left.here.visited]
      rfl
    refine ⟨.inr ⟨_, visited, Phase.path_prefix _⟩, ?_, once, afterwards, fun early => ?_,
      fun early => ?_⟩
    · rw [visited, List.getLast?_concat]
      rfl
    · have before : .creation ∉ reached.path := by simpa [visited] using early
      exact { left.matching before with }
    · have before : .initialization ∉ reached.path := by simpa [visited] using early
      exact { left.creation before with }

end Engine

/-- Guards are evaluated without a trace, whatever they come across. -/
theorem phase_discipline (setting : Setting) (t : Transformation) (store : Store)
    (log : List LogRecord) :
    (∀ u, Engine.Uses setting t store log u → Disciplined setting t store u) ∧
      ∀ depth u,
        ((Engine.runPhase setting .matching
          (Engine.matchSources (Engine.evaluateWithin setting depth) setting t)
          { store, log }).state? = some u → Untouched store u) ∧
        ((Engine.matchAndCreate (Engine.evaluateWithin setting depth) setting t
          { store, log }).state? = some u → Unset store u) := by
  refine ⟨fun u uses => uses.found.disciplined, fun depth u => ⟨fun left => ?_, fun left => ?_⟩⟩
  · exact (Engine.matching_untouched (Engine.evaluateWithin_guarding setting depth) left).2
  · obtain ⟨_, -, before⟩ | before :=
      Engine.matchAndCreate_left (Engine.evaluateWithin_guarding setting depth) left
    · exact before.creation (by decide)
    · exact before.creation (by decide)

namespace Looping

/-- No rule may be applied within another. -/
def shallow : Setting := { transformation := some direct, settings := { depthLimit := 0 } }

end Looping

/-- The first run fails where the lazy rule is asked for, and the second one is refused. -/
theorem phase_discipline_shallow :
    ∃ u, Engine.Uses Looping.shallow Looping.direct Looping.objects [] u ∧
      u.visited = [.ready, .matching, .creation, .initialization, .failed] ∧
      u.visited.getLast? = some u.phase ∧
      Engine.run Looping.shallow Looping.direct u =
        .failure (Engine.illegalTransition .failed "MATCHING") u := by
  have fails : ((Engine.run Looping.shallow Looping.direct { store := Looping.objects }).state?.map
      (·.visited)) = some [.ready, .matching, .creation, .initialization, .failed] := by
    decide +kernel
  obtain ⟨u, left, visited⟩ := Option.map_eq_some_iff.1 fails
  have uses : Engine.Uses Looping.shallow Looping.direct Looping.objects [] u :=
    .run .setUp left
  have disciplined := (phase_discipline Looping.shallow Looping.direct Looping.objects []).1 u uses
  have phase : u.phase = .failed := by simpa [visited] using disciplined.current.symm
  refine ⟨u, uses, visited, disciplined.current, ?_⟩
  have refused := disciplined.once (by simp [phase])
  rw [phase] at refused
  exact refused _ _

end Metamorph
