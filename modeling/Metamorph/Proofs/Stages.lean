import Metamorph.Proofs.Career
import Metamorph.Proofs.Tracking

/-! A run, stage by stage, and the called rules executed after it, wherever any of them ends. No
binding is evaluated before everything is created, and what was created is there from then on. -/
namespace Metamorph

namespace Outcome
variable {σ α : Type}

/-- The state that is left, by a value or a fault. -/
def state? : Outcome σ α → Option σ
  | .value _ s | .failure _ s => some s
  | .exhausted => none

/-- What is left of two runs in turn is left of the first, which failed, or of the second. -/
theorem state?_bind {β : Type} {run : Run σ α} {next : α → Run σ β} {s u : σ}
    (left : ((run >>= next) s).state? = some u) :
    (∃ fault, run s = .failure fault u) ∨
      ∃ a w, run s = .value a w ∧ (next a w).state? = some u := by
  change (Run.bind run next s).state? = some u at left
  unfold Run.bind at left
  cases outcome : run s with
  | value a w =>
    rw [outcome] at left
    exact .inr ⟨a, w, rfl, left⟩
  | failure fault w =>
    rw [outcome] at left
    cases left
    exact .inl ⟨fault, rfl⟩
  | exhausted =>
    rw [outcome] at left
    cases left

theorem state?_failure {outcome : Outcome σ α} {fault : Fault} {u : σ}
    (failed : outcome = .failure fault u) : outcome.state? = some u := by
  rw [failed]
  rfl

theorem state?_value {outcome : Outcome σ α} {a : α} {u : σ} (ended : outcome = .value a u) :
    outcome.state? = some u := by
  rw [ended]
  rfl

end Outcome

/-- What holds however a run ends holds of the state that is left. -/
theorem Run.Keeps.left {σ α : Type} {c : Conduct σ} {run : Run σ α} (kept : Run.Keeps c run)
    (same : ∀ {s t}, c.fails s t → c.ends s t) {s u : σ} (left : (run s).state? = some u) :
    c.ends s u := by
  have before := kept s
  cases outcome : run s with
  | value a w =>
    rw [outcome] at before left
    cases left
    exact before
  | failure fault w =>
    rw [outcome] at before left
    cases left
    exact same before
  | exhausted =>
    rw [outcome] at left
    cases left

namespace Engine

/-- Bindings are evaluated when everything is created, not before. -/
structure Staged (s : Engine) : Prop where
  before : s.phase = .ready ∨ s.phase = .matching ∨ s.phase = .creation → s.bindingsEvaluated = 0
  behind : s.phase = .initialization ∨ s.phase = .resolution ∨ s.phase = .complete →
    s.created.length = (scheduled s).length

/-- The bindings that wait are those of the engine's own objects. -/
def Waits (s : Engine) : Prop := ∀ d ∈ s.deferred, s.Owns d.target

/-- Nothing is created yet. -/
structure Preparing (phase : Phase) (s : Engine) : Prop where
  phase : s.phase = phase
  nothing : s.created = []
  unevaluated : s.bindingsEvaluated = 0
  recorded : Recorded s
  waits : Waits s

/-- The last applications of the schedule are still to be created. -/
structure Creating (left : List Application) (s : Engine) : Prop where
  phase : s.phase = .creation
  left : (scheduled s).drop s.created.length = left
  unevaluated : s.bindingsEvaluated = 0
  recorded : Recorded s
  waits : Waits s

/-- The whole schedule is created. -/
structure Working (phase : Phase) (s : Engine) : Prop where
  phase : s.phase = phase
  created : s.created.length = (scheduled s).length
  recorded : Recorded s
  waits : Waits s

theorem Waits.grow {t : Transformation} {s u : Engine} (waits : Waits s) (growth : Growth t s u) :
    Waits u := by
  obtain ⟨added, deferred, owned⟩ := growth.waiting
  intro d member
  rw [deferred] at member
  rcases List.mem_append.1 member with old | new
  · exact growth.owns (waits d old)
  · exact owned d new

theorem Preparing.staged {phase : Phase} {s : Engine} (preparing : Preparing phase s)
    (early : phase = .ready ∨ phase = .matching ∨ phase = .creation) : Staged s where
  before _ := preparing.unevaluated
  behind := by
    rw [preparing.phase]
    rcases early with rfl | rfl | rfl <;> simp

theorem Creating.staged {left : List Application} {s : Engine} (creating : Creating left s) :
    Staged s where
  before _ := creating.unevaluated
  behind := by simp [creating.phase]

theorem Working.staged {phase : Phase} {s : Engine} (working : Working phase s)
    (late : phase = .initialization ∨ phase = .resolution ∨ phase = .complete) : Staged s where
  before := by
    rw [working.phase]
    rcases late with rfl | rfl | rfl <;> simp
  behind _ := working.created

theorem Trail.working {setting : Setting} {t : Transformation} {phase : Phase} {s u : Engine}
    {done : List Event} (trail : Trail setting t done s u) (working : Working phase s) :
    Working phase u := by
  obtain ⟨schedule, created, same⟩ := trail.fixed
  exact {
    phase := same.trans working.phase
    created := by
      rw [created, scheduled, schedule]
      exact working.created
    recorded := trail.recorded working.recorded
    waits := working.waits.grow trail.growth }

open Run

/-- What is left of a stage: a state with the property if it ends, one that is in order if it fails. -/
def Leaves (setting : Setting) (t : Transformation) (behind : Engine → Prop) (s : Engine)
    {α : Type} : Outcome Engine α → Prop
  | .value _ u => (∃ done, Career setting t done s u) ∧ behind u
  | .failure _ u => (∃ done, Career setting t done s u) ∧ Staged u
  | .exhausted => True

namespace Leaves
variable {setting : Setting} {t : Transformation} {α β : Type} {s u : Engine}
  {between behind : Engine → Prop}

theorem state {outcome : Outcome Engine α} (leaves : Leaves setting t behind s outcome)
    (staged : ∀ u, behind u → Staged u) (left : outcome.state? = some u) :
    (∃ done, Career setting t done s u) ∧ Staged u := by
  cases outcome with
  | value a w =>
    cases left
    exact ⟨leaves.1, staged _ leaves.2⟩
  | failure fault w =>
    cases left
    exact leaves
  | exhausted => cases left

theorem after {outcome : Outcome Engine α} (career : ∃ done, Career setting t done s u)
    (leaves : Leaves setting t behind u outcome) : Leaves setting t behind s outcome := by
  obtain ⟨_, first⟩ := career
  cases outcome with
  | value a w =>
    obtain ⟨⟨_, rest⟩, holds⟩ := leaves
    exact ⟨⟨_, first.trans rest⟩, holds⟩
  | failure fault w =>
    obtain ⟨⟨_, rest⟩, holds⟩ := leaves
    exact ⟨⟨_, first.trans rest⟩, holds⟩
  | exhausted => trivial

theorem of_bind {r : Engine} {run : Run Engine α} {next : α → Run Engine β}
    (ended : ∀ {a u}, run r = .value a u → Leaves setting t behind s (next a u))
    (failed : ∀ {fault u}, run r = .failure fault u →
      (∃ done, Career setting t done s u) ∧ Staged u) :
    Leaves setting t behind s ((run >>= next) r) := by
  change Leaves setting t behind s (Run.bind run next r)
  unfold Run.bind
  cases outcome : run r with
  | value a u => exact ended outcome
  | failure fault u => exact failed outcome
  | exhausted => trivial

theorem bind {run : Run Engine α} {next : α → Run Engine β}
    (first : Leaves setting t between s (run s))
    (rest : ∀ a u, between u → Leaves setting t behind u (next a u)) :
    Leaves setting t behind s ((run >>= next) s) := by
  refine of_bind (fun {a u} ended => ?_) (fun {fault u} failed => ?_)
  · rw [ended] at first
    exact after first.1 (rest a u first.2)
  · rw [failed] at first
    exact first

theorem pure {a : α} (holds : behind s) :
    Leaves setting t behind s ((Pure.pure a : Run Engine α) s) :=
  ⟨⟨[], .refl s⟩, holds⟩

/-- Rules at work while everything is created. -/
theorem working {phase : Phase} {run : Run Engine α} (working : Working phase s)
    (late : phase = .initialization ∨ phase = .resolution ∨ phase = .complete)
    (kept : (tracked setting t).Allows s (run s)) :
    Leaves setting t (Working phase) s (run s) := by
  cases outcome : run s with
  | value a u =>
    obtain ⟨_, trail⟩ := kept.value outcome
    exact ⟨⟨_, .trail trail⟩, trail.working working⟩
  | failure fault u =>
    obtain ⟨_, trail⟩ := kept.failure outcome
    exact ⟨⟨_, .trail trail⟩, (trail.working working).staged late⟩
  | exhausted => trivial

end Leaves

/-- Runs while matching leave objects, rules and bindings as they are. -/
def guarding : Conduct Engine :=
  .both (fun s u => s.phase = .matching → Quiet s u) (fun s _ => .refl s)
    (fun first rest matching =>
      have quiet := first matching
      quiet.trans (rest (quiet.phase.trans matching)))

section
variable {setting : Setting} {t : Transformation} {self : Evaluator} {s : Engine}

theorem refused_keeps {α : Type} {rule : String} {next : Unit → Run Engine α} :
    Keeps guarding (refuseWhileMatching rule >>= next) := by
  intro s
  by_cases matching : s.phase = .matching
  · obtain ⟨fault, refused⟩ : ∃ fault, refuseWhileMatching rule s = .failure fault s := by
      unfold refuseWhileMatching
      exact ⟨_, bind_eq_failure.2 (.inr ⟨s, s, rfl, by rw [if_pos matching]; rfl⟩)⟩
    have failed : (refuseWhileMatching rule >>= next) s = .failure fault s :=
      bind_eq_failure.2 (.inl refused)
    rw [failed]
    exact fun _ => .refl s
  · cases (refuseWhileMatching rule >>= next) s with
    | value a u => exact fun now => absurd now matching
    | failure fault u => exact fun now => absurd now matching
    | exhausted => trivial

theorem guarding_serves (kept : ∀ env e, Keeps guarding (self env e)) :
    Serves guarding setting self where
  quiet quiet _ := quiet
  expression := kept
  lazy _ _ := refused_keeps
  called _ _ := refused_keeps

theorem advance_leaves {phase : Phase} {behind : Engine → Prop} (staged : Staged s)
    (holds : behind (enterPhase phase s)) :
    Leaves setting t behind s (advance phase s) := by
  refine .of_bind (fun {read u} current => ?_) fun failed => absurd failed state_ne_failure
  obtain ⟨rfl, rfl⟩ := state_eq_value.1 current
  split
  · exact ⟨⟨_, .advanced⟩, holds⟩
  · exact ⟨⟨_, .refl s⟩, staged⟩

theorem runPhase_leaves {phase : Phase} {work : Run Engine Unit} {behind : Engine → Prop}
    (staged : Staged s)
    (worked : Leaves setting t behind (enterPhase phase s) (work (enterPhase phase s)))
    (quiet : ∀ {u w}, Quiet u w → behind u → behind w) :
    Leaves setting t behind s (runPhase setting phase work s) := by
  have advanced : Leaves setting t (· = enterPhase phase s) s (advance phase s) :=
    advance_leaves staged rfl
  refine .bind advanced ?_
  rintro _ _ rfl
  refine .bind worked fun _ u holds => ?_
  split
  · exact ⟨⟨_, .trail (.idle (by constructor <;> rfl))⟩,
      quiet ⟨_, _, _, _, _, _, _, _, _, rfl⟩ holds⟩
  · exact .pure holds

theorem Preparing.quiet {phase : Phase} {u : Engine} (preparing : Preparing phase s)
    (quiet : Quiet s u) : Preparing phase u := by
  have recorded := preparing.recorded.quiet quiet
  obtain ⟨_, _, _, _, _, _, _, _, _, rfl⟩ := quiet
  exact ⟨preparing.phase, preparing.nothing, preparing.unevaluated, recorded, preparing.waits⟩

/-- No guard changes what matters of the state. -/
theorem buildSchedule_guarded (guarded : ∀ env e, Keeps guarding (self env e)) :
    Keeps guarding (buildSchedule self setting t.module t.sources) := by
  have serves : Serves guarding setting self := guarding_serves guarded
  exact (serves.guards _).matchModels _ _ _

theorem matchSources_leaves (guarded : ∀ env e, Keeps guarding (self env e))
    (preparing : Preparing .matching s) :
    Leaves setting t (Preparing .matching) s (matchSources self setting t s) := by
  have still : Keeps guarding (buildSchedule self setting t.module t.sources) :=
    buildSchedule_guarded guarded
  refine .of_bind (fun {schedule u} ended => ?_) (fun {fault u} failed => ?_)
  · have quiet := still.value ended preparing.phase
    have after := preparing.quiet quiet
    refine .after ⟨_, .trail (.idle quiet.idle)⟩ ⟨⟨_, .planned after.nothing⟩, ?_⟩
    exact ⟨after.phase, after.nothing, after.unevaluated, after.recorded.planned after.nothing,
      after.waits⟩
  · have quiet := still.failure failed preparing.phase
    exact ⟨⟨_, .trail (.idle quiet.idle)⟩, (preparing.quiet quiet).staged (.inr (.inl rfl))⟩

theorem Creating.makes {left : List Application} {u : Engine} (creating : Creating left s)
    (makes : Makes t s u) : Creating left u := by
  have others := makes.others
  exact {
    phase := others.phase.trans creating.phase
    left := by
      rw [scheduled, others.schedule, others.created]
      exact creating.left
    unevaluated := others.bindingsEvaluated.trans creating.unevaluated
    recorded := creating.recorded.grow makes.growth others.created others.schedule
      (others.trace ▸ creating.recorded.unique)
    waits := creating.waits.grow makes.growth }

/-- The outputs of the next application are made and linked, or the run fails on the way. -/
theorem Creating.next {e : Application} {rest : List Application} (creating : Creating (e :: rest) s) :
    Leaves setting t (Creating rest) s
      ((do
        let outputs ← makeTargets t e.rule.outputs
        registerLink e.rule.name e.source outputs .matched
        Run.modify fun s =>
          { s with created := s.created ++ [outputs], matchedApplied := s.matchedApplied + 1 } :
        Run Engine Unit) s) := by
  -- What is left begins where the outputs created so far end.
  have turn : (scheduled s)[s.created.length]? = some e := by
    have first := congrArg (·[0]?) creating.left
    simpa using first
  refine .of_bind (fun {outputs u} made => ?_) (fun {fault u} failed => ?_)
  · have makes : Makes t s u := (makeTargets_keeps _).value made
    have before := creating.makes makes
    obtain ⟨fresh, -⟩ := makeTargets_fresh made
    refine .of_bind (fun {_ w} linked => ?_) (fun {fault w} refused => ?_)
    · obtain ⟨link, trace, registered, rfl⟩ := registerLink_eq_value linked
      have career : Career setting t [] s _ := .matched turn makes fresh registered
      have recorded := creating.recorded.next turn makes fresh registered
      refine ⟨⟨_, career.thenIdle (by constructor <;> rfl)⟩, ?_⟩
      refine ⟨before.phase, ?_, before.unevaluated,
        recorded.alike ⟨rfl, rfl, rfl, rfl, rfl⟩ rfl rfl, before.waits⟩
      have left := congrArg List.tail before.left
      rw [List.tail_drop, List.tail_cons] at left
      change (scheduled u).drop (u.created ++ [outputs]).length = rest
      simpa using left
    · obtain rfl := registerLink_eq_failure refused
      exact ⟨⟨_, .trail (.made makes)⟩, before.staged⟩
  · have makes : Makes t s u := (makeTargets_keeps _).failure failed
    exact ⟨⟨_, .trail (.made makes)⟩, (creating.makes makes).staged⟩

theorem createAll_leaves {left : List Application} (creating : Creating left s) :
    Leaves setting t (Creating []) s (createAll t left s) := by
  induction left generalizing s with
  | nil => exact .pure creating
  | cons e rest ih =>
    have noted : Makes t s (noteRule e.rule.name s) := .idle (noteRule_quiet _ s).idle
    refine .after ⟨_, .trail (.made noted)⟩ ?_
    have step := (creating.makes noted).next.bind fun _ u created => ih created
    simp only [Run.bind_assoc] at step
    exact step

theorem fillAll_tracked (track : Tracked setting t self) {work : List (Application × Outputs)}
    (owned : ∀ item ∈ work, ∀ out ∈ item.1.rule.outputs,
      s.Owns ((item.2.get? out.name).getD .undefined)) :
    (tracked setting t).Allows s (fillAll self setting work s) := by
  induction work generalizing s with
  | nil => exact Keeps.pure _ s
  | cons item rest ih =>
    have first : (tracked setting t).Allows s (applying item.1.rule.name item.1.rule.outputs []
        item.2 (fillApplication self setting item.1.rule.name item.1.rule.outputs item.2
          [(item.1.rule.source.name, item.1.source)]) s) :=
      applying_tracked (track.fillApplication (owned item List.mem_cons_self))
    refine .bind first fun filled => ih fun other later out declared => ?_
    exact owns_of_allows first filled (owned other (List.mem_cons_of_mem _ later) out declared)

theorem resolveFrom_tracked (track : Tracked setting t self) {bound position : Nat}
    (waits : Waits s) : (tracked setting t).Allows s (resolveFrom self setting bound position s) := by
  induction bound generalizing s position with
  | zero => trivial
  | succ bound ih =>
    refine .bind (Keeps.state s) fun {read u} current => ?_
    obtain ⟨rfl, rfl⟩ := state_eq_value.1 current
    cases turn : s.deferred[position]? with
    | none => exact Keeps.pure _ s
    | some d =>
      have first : (tracked setting t).Allows s (resolveDeferred self setting d s) := by
        refine .bind (track.applyBinding (waits d (List.mem_of_getElem? turn))) fun {_ u} _ => ?_
        refine modify_tracked ?_ u
        exact fun _ => by constructor <;> rfl
      refine .bind first fun resolved => ih ?_
      obtain ⟨_, trail⟩ := first.value resolved
      exact waits.grow trail.growth

theorem Recorded.owned {e : Application} {outputs : Outputs} (recorded : Recorded s)
    (member : (e, outputs) ∈ (scheduled s).zip s.created) :
    ∀ out ∈ e.rule.outputs, s.Owns ((outputs.get? out.name).getD .undefined) := by
  obtain ⟨place, found⟩ := List.mem_iff_getElem?.1 member
  obtain ⟨turn, known⟩ := List.getElem?_zip_eq_some.1 found
  obtain ⟨names, -⟩ := recorded.linkedAt turn known
  intro out declared
  have named : out.name ∈ outputs.names := names ▸ List.mem_map_of_mem declared
  obtain ⟨v, entry⟩ := Named.get?_of_mem_names named
  have present : (out.name, v) ∈ s.created.flatten :=
    List.mem_flatten.2 ⟨outputs, List.mem_of_getElem? known, Named.mem_of_get? entry⟩
  obtain ⟨h, cls, object, -, owns, -⟩ := recorded.objects _ present
  obtain rfl : v = .object h := object
  rwa [entry]

theorem Working.advanced {phase next : Phase} (working : Working phase s) :
    Working next (enterPhase next s) :=
  ⟨rfl, working.created, working.recorded.inPhase next, working.waits⟩

theorem Working.quiet {phase : Phase} {u : Engine} (working : Working phase s) (quiet : Quiet s u) :
    Working phase u := by
  have recorded := working.recorded.quiet quiet
  obtain ⟨_, _, _, _, _, _, _, _, _, rfl⟩ := quiet
  exact ⟨working.phase, working.created, recorded, working.waits⟩

theorem Creating.quiet {left : List Application} {u : Engine} (creating : Creating left s)
    (quiet : Quiet s u) : Creating left u := by
  have recorded := creating.recorded.quiet quiet
  obtain ⟨_, _, _, _, _, _, _, _, _, rfl⟩ := quiet
  exact ⟨creating.phase, creating.left, creating.unevaluated, recorded, creating.waits⟩

/-- Nothing is left to create. -/
theorem Creating.finished (creating : Creating [] s) :
    Working .initialization (enterPhase .initialization s) := by
  have recorded := creating.recorded
  have covered : (scheduled s).length ≤ s.created.length := List.drop_eq_nil_iff.1 creating.left
  have within : s.created.length ≤ (scheduled s).length := by
    refine Nat.le_of_not_lt fun beyond => ?_
    obtain ⟨e, next, -⟩ := recorded.linked _ _ (List.getElem?_eq_getElem beyond)
    simp at next
  exact ⟨rfl, Nat.le_antisymm within covered, recorded.inPhase _, creating.waits⟩

theorem phases_leaves {bound : Nat} (track : Tracked setting t self)
    (guarded : ∀ env e, Keeps guarding (self env e)) (preparing : Preparing .ready s) :
    Leaves setting t (Working .resolution) s (phases self bound setting t s) := by
  have matching : Preparing .matching (enterPhase .matching s) :=
    ⟨rfl, preparing.nothing, preparing.unevaluated, preparing.recorded.inPhase _, preparing.waits⟩
  refine .bind (runPhase_leaves (preparing.staged (.inl rfl))
    (matchSources_leaves guarded matching) fun quiet matched =>
      matched.quiet quiet) fun _ a matched => ?_
  have creating : Creating (scheduled a) (enterPhase .creation a) := by
    refine ⟨rfl, ?_, matched.unevaluated, matched.recorded.inPhase _, matched.waits⟩
    change (scheduled a).drop a.created.length = _
    rw [matched.nothing, List.length_nil, List.drop_zero]
  refine .bind (runPhase_leaves (matched.staged (.inr (.inl rfl))) (createAll_leaves creating)
    fun quiet created => created.quiet quiet) fun _ b created => ?_
  have filling := created.finished
  have filled : Leaves setting t (Working .initialization) (enterPhase .initialization b)
      (fillAll self setting ((scheduled b).zip b.created) (enterPhase .initialization b)) :=
    .working filling (.inl rfl) (fillAll_tracked track fun item member => filling.recorded.owned member)
  refine .bind (runPhase_leaves created.staged filled fun quiet filled =>
    filled.quiet quiet) fun _ c filled => ?_
  have resolving : Working .resolution (enterPhase .resolution c) := filled.advanced
  refine runPhase_leaves (filled.staged (.inl rfl)) (.working resolving (.inr (.inl rfl)) ?_)
    fun quiet resolved => resolved.quiet quiet
  exact resolveFrom_tracked track resolving.waits

theorem failed_staged (fault : Fault) (s : Engine) : Staged (failed t fault s) where
  before := by simp [failed, report, enterPhase]
  behind := by simp [failed, report, enterPhase]

theorem runWith_leaves {bound : Nat} (track : Tracked setting t self)
    (guarded : ∀ env e, Keeps guarding (self env e)) (preparing : Preparing .ready s) :
    Leaves setting t (Working .complete) s (runWith self bound setting t s) := by
  refine .of_bind (fun {read u} current => ?_) fun failed => absurd failed state_ne_failure
  obtain ⟨rfl, rfl⟩ := state_eq_value.1 current
  rw [if_neg (not_not_intro preparing.phase)]
  refine .bind ?_ fun _ u (working : Working .resolution u) =>
    advance_leaves (working.staged (.inr (.inl rfl))) working.advanced
  have worked : Leaves setting t (Working .resolution) s (phases self bound setting t s) :=
    phases_leaves track guarded preparing
  unfold Run.rescue
  cases outcome : phases self bound setting t s with
  | value _ u =>
    rw [outcome] at worked
    exact worked
  | failure fault u =>
    rw [outcome] at worked
    obtain ⟨⟨_, career⟩, -⟩ := worked
    have ended : Career setting t [] u (failed t fault u) :=
      Career.advanced.thenIdle (by constructor <;> rfl)
    exact ⟨⟨_, career.trans ended⟩, failed_staged fault u⟩
  | exhausted => trivial

theorem callRuleWith_tracked (track : Tracked setting t self) (name : String)
    (args : List Value) : Keeps (tracked setting t) (callRuleWith self setting t name args) := by
  refine .bind .state fun s => ?_
  split
  · exact .fail _
  · split
    · exact .fail _
    · exact track.invokeCalled _ args

theorem Trail.staged {u : Engine} {done : List Event} (trail : Trail setting t done s u)
    (staged : Staged s) (complete : s.phase = .complete) : Staged u := by
  obtain ⟨schedule, created, phase⟩ := trail.fixed
  refine ⟨by simp [phase, complete], fun _ => ?_⟩
  rw [created, scheduled, schedule]
  exact staged.behind (.inr (.inr complete))

/-- A called rule is executed after a complete run, or nothing is done. -/
theorem callRuleWith_leaves {name : String} {args : List Value} (track : Tracked setting t self)
    (staged : Staged s) : Leaves setting t Staged s (callRuleWith self setting t name args s) := by
  by_cases complete : s.phase = .complete
  · have kept := callRuleWith_tracked track name args s
    cases outcome : callRuleWith self setting t name args s with
    | value v u =>
      obtain ⟨_, trail⟩ := kept.value outcome
      exact ⟨⟨_, .trail trail⟩, trail.staged staged complete⟩
    | failure fault u =>
      obtain ⟨_, trail⟩ := kept.failure outcome
      exact ⟨⟨_, .trail trail⟩, trail.staged staged complete⟩
    | exhausted => trivial
  · refine .of_bind (fun {read u} current => ?_) fun failed => absurd failed state_ne_failure
    obtain ⟨rfl, rfl⟩ := state_eq_value.1 current
    rw [if_pos complete]
    exact ⟨⟨_, .refl s⟩, staged⟩

end

end Engine

end Metamorph
