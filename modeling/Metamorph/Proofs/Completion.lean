import Metamorph.Proofs.Following
import Metamorph.Proofs.Walk

/-! Runs that come to an end. A transformation that completes does so in one way, however deep its
evaluations may go. Where all rules are matched rules it completes if it can match, create and fill in:
evaluations then change nothing that a rule looks at, and no binding has to wait. -/
namespace Metamorph.Engine
open Run
variable {setting : Setting} {self other : Evaluator} {t : Transformation} {s u : Engine}

/-! With more depth. -/

namespace Approximates
variable (below : Approximates self other)
include below

theorem resolveFrom {bound further : Nat} (more : bound ≤ further) (position : Nat) :
    Run.Below (resolveFrom self setting bound position)
      (resolveFrom other setting further position) := by
  induction bound generalizing further position with
  | zero => exact .cutOff _
  | succ bound ih =>
    obtain ⟨further, rfl⟩ : ∃ k, further = k + 1 := ⟨further - 1, by omega⟩
    refine .after fun s => ?_
    split
    · exact .refl _
    · refine .bind (.before (below.heeds.applyBinding _ _ _ _ _ _).below) fun _ => ?_
      exact ih (by omega) _

theorem runWith {bound further : Nat} (more : bound ≤ further) :
    Run.Below (runWith self bound setting t) (runWith other further setting t) := by
  have phases : Run.Below (phases self bound setting t) (phases other further setting t) := by
    refine .bind (Heeds.runPhase below.heeds.matchSources).below fun _ => .after fun _ => ?_
    refine .bind (Heeds.runPhase (.after fun s => below.heeds.fillAll _)).below fun _ => ?_
    exact (Heeds.runPhase (below.resolveFrom more 0).toUnless).below
  refine .after fun s => ?_
  split
  · exact .refl _
  · exact .before (.rescue _ phases)

end Approximates

/-- The transformation takes the one state to the other, if its evaluations may go deep enough. -/
def Completes (setting : Setting) (t : Transformation) (s u : Engine) : Prop :=
  ∃ depth, runWith (evaluateWithin setting depth) depth setting t s = .value () u

theorem Completes.unique {v : Engine} (first : Completes setting t s u)
    (second : Completes setting t s v) : u = v := by
  obtain ⟨depth, ended⟩ := first
  obtain ⟨deeper, ended'⟩ := second
  have further (n : Nat) (more : n ≤ max depth deeper) :
      Run.Below (runWith (evaluateWithin setting n) n setting t)
        (runWith (evaluateWithin setting (max depth deeper)) (max depth deeper) setting t) :=
    (evaluateWithin_approximates setting more).runWith more
  have same := ((further depth (Nat.le_max_left _ _)).value ended).symm.trans
    ((further deeper (Nat.le_max_right _ _)).value ended')
  cases same
  rfl

/-- A transformation that completes although it is cut off where it would find out about target objects
does so if it is not. -/
theorem completes_of_watched {depth : Nat}
    (ended : runWith (watchedWithin setting depth) depth setting t s = .value () u) :
    Completes setting t s u :=
  ⟨depth, ((watchedWithin_approximates setting depth).runWith le_rfl).value ended⟩

/-- No guard, binding or helper that is evaluated asks a type for its instances or reads a feature of an
object of the engine, by its name or to show the object as text: where the transformation completes it
does so without. -/
def Discreet (setting : Setting) (t : Transformation) (s : Engine) : Prop :=
  ∀ u, Completes setting t s u →
    ∃ depth, runWith (watchedWithin setting depth) depth setting t s = .value () u

theorem discreet_of_watched {depth : Nat}
    (ended : runWith (watchedWithin setting depth) depth setting t s = .value () u) :
    Discreet setting t s := by
  intro v completes
  rw [completes.unique (completes_of_watched ended)]
  exact ⟨depth, ended⟩

/-! Evaluations without rules. -/

def quieting : Conduct Engine := .both Quiet .refl .trans

theorem keeps_of_below {α : Type} {run other : Run Engine α} (below : Run.Below run other)
    (kept : Keeps quieting other) : Keeps quieting run := by
  intro s
  have allowed := kept s
  cases ended : run s with
  | value a u => exact below.value ended ▸ allowed
  | failure fault u => exact below.failure ended ▸ allowed
  | exhausted => trivial

theorem Innocent.watched_quiet (innocent : Innocent setting) (n : Nat) (env : Environment) (e : Expr) :
    Keeps quieting (watchedWithin setting n env e) := by
  refine keeps_of_below (watchedWithin_approximates setting n env e)
    (evaluateWithin_keeps (fun _ => trivial) (fun self keeps => ?_) n env e)
  refine { quiet := id, expression := keeps, lazy := fun has => ?_, called := fun has => ?_ }
  · obtain ⟨given, declared⟩ := has
    simp [Module.lazyRule?, innocent.lazy given] at declared
  · obtain ⟨given, declared⟩ := has
    simp [Module.calledRule?, innocent.called given] at declared

/-! What phases leave alone. -/

/-- The states agree but for objects, attributes of the module and what is counted and reported. -/
structure Settled (s u : Engine) : Prop where
  phase : u.phase = s.phase
  trace : u.trace = s.trace
  schedule : u.schedule = s.schedule
  created : u.created = s.created
  owners : u.owners = s.owners
  deferred : u.deferred = s.deferred

theorem Settled.refl (s : Engine) : Settled s s := ⟨rfl, rfl, rfl, rfl, rfl, rfl⟩

theorem Settled.trans {v : Engine} (first : Settled s u) (rest : Settled u v) : Settled s v :=
  ⟨rest.phase.trans first.phase, rest.trace.trans first.trace, rest.schedule.trans first.schedule,
    rest.created.trans first.created, rest.owners.trans first.owners,
    rest.deferred.trans first.deferred⟩

theorem Quiet.settled (quiet : Quiet s u) : Settled s u := by
  obtain ⟨_, _, _, _, _, _, _, _, _, rfl⟩ := quiet
  exact ⟨rfl, rfl, rfl, rfl, rfl, rfl⟩

/-- At the end of a phase its name is noted, if it is to be. -/
def closing (setting : Setting) (phase : Phase) (s : Engine) : Engine :=
  if setting.settings.recordPhases then notePhase phase s else s

theorem closing_still (phase : Phase) : Still s (closing setting phase s) := by
  unfold closing
  split <;> exact ⟨rfl, rfl, rfl, rfl, rfl⟩

theorem closing_settled (phase : Phase) : Settled s (closing setting phase s) := by
  unfold closing
  split <;> exact ⟨rfl, rfl, rfl, rfl, rfl, rfl⟩

theorem runPhase_value_iff {phase : Phase} {work : Run Engine Unit} :
    runPhase setting phase work s = .value () u ↔
      s.phase.next? = some phase ∧
        ∃ v, work (enterPhase phase s) = .value () v ∧ closing setting phase v = u := by
  have advanced : advance phase s =
      if s.phase.next? = some phase then .value () (enterPhase phase s)
      else .failure (illegalTransition s.phase phase.title) s := by
    unfold advance
    rw [state_bind]
    split <;> rfl
  have closed (v : Engine) :
      (if setting.settings.recordPhases then Run.modify (notePhase phase) else pure ()) v =
        .value () (closing setting phase v) := by
    unfold closing
    split <;> rfl
  unfold runPhase
  rw [bind_eq_value]
  constructor
  · rintro ⟨_, v, entered, ended⟩
    rw [advanced] at entered
    split at entered
    · cases entered
      obtain ⟨_, w, worked, ended⟩ := bind_eq_value.1 ended
      rw [closed w] at ended
      cases ended
      exact ⟨‹_›, w, worked, rfl⟩
    · cases entered
  · rintro ⟨next, w, worked, rfl⟩
    refine ⟨(), enterPhase phase s, ?_, bind_eq_value.2 ⟨(), w, worked, closed w⟩⟩
    rw [advanced, if_pos next]

/-! The stages of a run. -/

/-- The applications of the schedule with what was created for them. -/
def creations (s : Engine) : List (Application × Outputs) := (scheduled s).zip s.created

/-- Where creation starts, after matching. -/
def creating (setting : Setting) (a : Engine) : Engine :=
  enterPhase .creation (closing setting .matching a)

/-- Where filling in starts, after creation. -/
def initializing (setting : Setting) (b : Engine) : Engine :=
  enterPhase .initialization (closing setting .creation b)

/-- The end of a run for which no binding waits. -/
def concluded (setting : Setting) (c : Engine) : Engine :=
  enterPhase .complete
    (closing setting .resolution (enterPhase .resolution (closing setting .initialization c)))

/-- A run matches, creates and fills in. -/
structure Stages (evaluator : Evaluator) (setting : Setting) (t : Transformation) (s a b c : Engine) :
    Prop where
  ready : s.phase = .ready
  matched : matchSources evaluator setting t (enterPhase .matching s) = .value () a
  created : createAll t (scheduled a) (creating setting a) = .value () b
  filled : fillAll evaluator setting (creations b) (initializing setting b) = .value () c

variable {a b c : Engine}

theorem scheduled_creating : scheduled (creating setting a) = scheduled a := by
  have same : (closing setting .matching a).schedule = a.schedule := (closing_settled .matching).schedule
  simp only [scheduled, creating, enterPhase, same]

theorem creations_initializing : creations (initializing setting b) = creations b := by
  have same : (closing setting .creation b).schedule = b.schedule := (closing_settled .creation).schedule
  have made : (closing setting .creation b).created = b.created := (closing_settled .creation).created
  simp only [creations, scheduled, initializing, enterPhase, same, made]

/-- No binding waits. -/
theorem resolution_over {bound : Nat} (nothing : c.deferred = []) :
    resolveFrom self setting (bound + 1) 0
      (enterPhase .resolution (closing setting .initialization c)) =
        .value () (enterPhase .resolution (closing setting .initialization c)) := by
  refine resolveFrom_finished ?_ bound
  have same : (closing setting .initialization c).deferred = c.deferred :=
    (closing_settled (s := c) .initialization).deferred
  simp [enterPhase, same, nothing]

theorem Stages.runWith_value {bound : Nat} (stages : Stages self setting t s a b c)
    (afterMatching : a.phase = .matching) (afterCreation : b.phase = .creation)
    (afterFilling : c.phase = .initialization) (nothing : c.deferred = []) :
    runWith self (bound + 1) setting t s = .value () (concluded setting c) := by
  have phaseOf (phase : Phase) (s : Engine) : (closing setting phase s).phase = s.phase :=
    (closing_settled phase).phase
  have worked : phases self (bound + 1) setting t s = .value ()
      (closing setting .resolution (enterPhase .resolution (closing setting .initialization c))) := by
    refine bind_eq_value.2
      ⟨(), _, runPhase_value_iff.2 ⟨by rw [stages.ready]; rfl, a, stages.matched, rfl⟩, ?_⟩
    refine bind_eq_value.2 ⟨(), _, runPhase_value_iff.2 ⟨?_, b, ?_, rfl⟩, ?_⟩
    · rw [phaseOf, afterMatching]
      rfl
    · rw [state_bind]
      exact (congrArg (createAll t · _) scheduled_creating).trans stages.created
    refine bind_eq_value.2 ⟨(), _, runPhase_value_iff.2 ⟨?_, c, ?_, rfl⟩, ?_⟩
    · rw [phaseOf, afterCreation]
      rfl
    · rw [state_bind]
      exact (congrArg (fillAll self setting · _) creations_initializing).trans stages.filled
    · refine runPhase_value_iff.2 ⟨?_, _, resolution_over nothing, rfl⟩
      rw [phaseOf, afterFilling]
      rfl
  unfold runWith
  rw [state_bind, if_neg (by simp [stages.ready])]
  refine bind_eq_value.2 ⟨(), _, (rescue_eq_value (by simp [bind_eq_value])).2 worked, ?_⟩
  unfold advance
  rw [state_bind, if_pos (by rw [phaseOf]; rfl)]
  rfl

/-- What a run that completes went through. -/
theorem stages_of_runWith {bound : Nat} (ended : runWith self bound setting t s = .value () u) :
    ∃ a b c, Stages self setting t s a b c ∧ (c.deferred = [] → u = concluded setting c) := by
  unfold runWith at ended
  rw [state_bind] at ended
  split at ended
  · simp at ended
  rename_i ready
  obtain ⟨_, v, worked, ended⟩ := bind_eq_value.1 ended
  obtain ⟨_, x, first, rest⟩ :=
    bind_eq_value.1 ((rescue_eq_value (by simp [bind_eq_value])).1 worked)
  obtain ⟨-, a, matched, rfl⟩ := runPhase_value_iff.1 first
  obtain ⟨_, y, second, rest⟩ := bind_eq_value.1 rest
  obtain ⟨-, b, created, rfl⟩ := runPhase_value_iff.1 second
  obtain ⟨_, z, third, last⟩ := bind_eq_value.1 rest
  obtain ⟨-, c, filled, rfl⟩ := runPhase_value_iff.1 third
  obtain ⟨-, d, resolved, rfl⟩ := runPhase_value_iff.1 last
  rw [state_bind] at created filled
  refine ⟨a, b, c, ⟨not_not.1 ready, matched, ?_, ?_⟩, fun nothing => ?_⟩
  · exact (congrArg (createAll t · _) scheduled_creating.symm).trans created
  · exact (congrArg (fillAll self setting · _) creations_initializing.symm).trans filled
  cases bound with
  | zero => cases resolved
  | succ bound =>
    rw [resolution_over nothing] at resolved
    cases resolved
    unfold advance at ended
    rw [state_bind] at ended
    split at ended
    · cases ended
      rfl
    · cases ended

end Metamorph.Engine
