import Metamorph.Proofs.Bearing
import Metamorph.Proofs.Interruption
import Metamorph.Proofs.LaterCalls
import Metamorph.Proofs.Stages

/-! The states in which a pipeline may be found: in the course of its run, after it, and after called
rules, whether they succeed, fail or are broken off. -/
namespace Metamorph

namespace Engine
open Run

/-- The pipeline for the transformation and its models may be found in the state: at some point of its
run, after it, or after called rules executed later, each of which may have failed or been broken
off. -/
inductive Reaches (setting : Setting) (t : Transformation) (store : Store) (log : List LogRecord) :
    Engine → Prop
  | within {stop depth bound s}
      (left : (phases (evaluateUntil stop setting depth) bound setting t { store, log }).state? =
        some s) : Reaches setting t store log s
  | ran {stop depth bound s}
      (left : (runWith (evaluateUntil stop setting depth) bound setting t { store, log }).state? =
        some s) : Reaches setting t store log s
  | called {stop depth name args s u}
      (earlier : Reaches setting t store log s)
      (left : (callRuleWith (evaluateUntil stop setting depth) setting t name args s).state? =
        some u) : Reaches setting t store log u

/-- The states agree on what rules and bindings at work change, whatever the phase and the schedule. -/
structure Undisturbed (s t : Engine) : Prop where
  depth : t.depth = s.depth
  frames : t.frames = s.frames
  deferred : t.deferred = s.deferred
  attributes : t.attributes = s.attributes
  readings : t.readings = s.readings
  history : t.history = s.history

section
variable {c : Conduct Engine} {setting : Setting} {t : Transformation} {self : Evaluator}

theorem advance_keeps (undisturbed : ∀ {s t}, Undisturbed s t → c.ends s t) (phase : Phase) :
    Keeps c (advance phase) := by
  refine .bind .state fun s => ?_
  split
  · exact .modify fun _ => undisturbed (by constructor <;> rfl)
  · exact .fail _

theorem runPhase_keeps (undisturbed : ∀ {s t}, Undisturbed s t → c.ends s t) {phase : Phase}
    {work : Run Engine Unit} (kept : Keeps c work) : Keeps c (runPhase setting phase work) := by
  refine .bind (advance_keeps undisturbed phase) fun _ => .bind kept fun _ => ?_
  split
  · exact .modify fun _ => undisturbed (by constructor <;> rfl)
  · exact .pure _

namespace Bears
variable (bears : Bears c fun _ => True) (undisturbed : ∀ {s t}, Undisturbed s t → c.ends s t)
  (cut : ∀ s, c.cut s) (kept : ∀ env e, Keeps c (self env e))
include bears undisturbed cut kept

theorem phases (bound : Nat) : Keeps c (phases self bound setting t) := by
  have guards : GuardsKeep c self t.module := fun _ _ guard _ env => kept env guard
  refine .bind (runPhase_keeps undisturbed ?_) fun _ => .bind (runPhase_keeps undisturbed ?_) ?_
  · refine .bind (guards.matchModels _ _ _) fun _ => .modify fun _ => ?_
    exact undisturbed (by constructor <;> rfl)
  · exact .bind .state fun _ => bears.createAll _
  · refine fun _ => .bind (runPhase_keeps undisturbed ?_) fun _ => runPhase_keeps undisturbed ?_
    · exact .bind .state fun _ => bears.fillAll (fun env _ _ => kept env _)
        fun _ _ out _ => out.binds_any
    · exact bears.resolveFrom kept cut bound 0

theorem runWith (caught : ∀ {s t}, c.fails s t → c.ends s t) (bound : Nat) :
    Keeps c (runWith self bound setting t) := by
  refine .bind .state fun s => ?_
  split
  · exact .fail _
  · refine .bind (.rescue (bears.phases undisturbed cut kept bound) caught fun fault => ?_)
      fun _ => advance_keeps undisturbed _
    exact .bind (.modify fun _ => undisturbed (by constructor <;> rfl)) fun _ => .fail _

end Bears

/-- What rules and whatever they evaluate keep, whether they succeed or fail, is kept wherever a
pipeline is found. -/
theorem Reaches.keeps {ends : Engine → Engine → Prop} {refl : ∀ s, ends s s}
    {trans : ∀ {s t u}, ends s t → ends t u → ends s u}
    (bears : Bears (.both ends refl trans) fun _ => True)
    (undisturbed : ∀ {s t}, Undisturbed s t → ends s t)
    (encloses : Encloses setting (.both ends refl trans) (.both ends refl trans))
    (kept : ∀ stop depth env e, Keeps (.both ends refl trans) (evaluateUntil stop setting depth env e))
    {store : Store} {log : List LogRecord} {u : Engine} (reaches : Reaches setting t store log u) :
    ends { store, log } u := by
  induction reaches with
  | within left => exact (bears.phases undisturbed (fun _ => trivial) (kept _ _) _).left id left
  | ran left => exact (bears.runWith undisturbed (fun _ => trivial) (kept _ _) id _).left id left
  | called _ left before =>
    exact trans before ((bears.callRuleWith (kept _ _) encloses _ _).left id left)

end

theorem Reaches.career {setting : Setting} {t : Transformation} {store : Store}
    {log : List LogRecord} {u : Engine} (reaches : Reaches setting t store log u)
    (given : setting.transformation = some t) :
    (∃ done, Career setting t done { store, log } u) ∧ Staged u := by
  have preparing : Preparing .ready { store, log } :=
    ⟨rfl, rfl, rfl, .fresh, by simp [Waits]⟩
  have guarded (stop depth) : ∀ env e, Keeps guarding (evaluateUntil stop setting depth env e) :=
    evaluateUntil_keeps (fun _ => trivial) (fun _ kept => guarding_serves kept) depth
  induction reaches with
  | @within stop depth bound s left =>
    have track := evaluateUntil_tracked given stop depth
    exact Leaves.state (phases_leaves track (guarded stop depth) preparing)
      (fun _ working => working.staged (.inr (.inl rfl))) left
  | @ran stop depth bound s left =>
    have track := evaluateUntil_tracked given stop depth
    exact Leaves.state (runWith_leaves track (guarded stop depth) preparing)
      (fun _ working => working.staged (.inr (.inr rfl))) left
  | @called stop depth name args s u earlier left ih =>
    obtain ⟨⟨_, before⟩, staged⟩ := ih
    have track := evaluateUntil_tracked given stop depth
    obtain ⟨⟨_, behind⟩, staged⟩ :=
      Leaves.state (callRuleWith_leaves track staged) (fun _ staged => staged) left
    exact ⟨⟨_, before.trans behind⟩, staged⟩

end Engine

variable {setting : Setting} {t : Transformation} {store : Store} {log : List LogRecord}
  {s u : Engine}

theorem Completes.reaches (completes : Completes setting t store log s) :
    Engine.Reaches setting t store log s := by
  obtain ⟨depth, walk, ended⟩ := completes
  refine @Engine.Reaches.ran _ _ _ _ .never depth walk s ?_
  rw [Engine.evaluateUntil_never, ended]
  rfl

/-- A call may succeed or fail. -/
theorem reaches_of_call {depth : Nat} {name : String} {args : List Value}
    (earlier : Engine.Reaches setting t store log s)
    (left : (Engine.callRuleWith (Engine.evaluateWithin setting depth) setting t name args s).state? =
      some u) : Engine.Reaches setting t store log u := by
  rw [← Engine.evaluateUntil_never] at left
  exact .called earlier left

theorem CallsLead.reaches (calls : CallsLead setting t s u)
    (earlier : Engine.Reaches setting t store log s) : Engine.Reaches setting t store log u := by
  induction calls with
  | none => exact earlier
  | call _ ended before => exact reaches_of_call before (by rw [ended]; rfl)

end Metamorph
