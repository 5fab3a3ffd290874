import Metamorph.Proofs.Course

/-! A successful run, phase by phase. Matching, creation and initialization follow one course; the
walk over the bindings that wait comes after it and nothing after that but the last change of phase.
A called rule executed later follows a course of its own. -/
namespace Metamorph.Engine
open Run
variable {setting : Setting} {self : Evaluator} {s t : Engine}

theorem candidates_declared {m : Module} {found : Named Nat} {model : String}
    {candidate : Nat × MatchedRule} (member : candidate ∈ candidates m found model) :
    candidate.2 ∈ m.matched := by
  unfold candidates at member
  rw [List.mem_mergeSort] at member
  obtain ⟨rule, declared, fits⟩ := List.mem_filterMap.1 member
  split at fits
  · obtain ⟨_, -, rfl⟩ := Option.map_eq_some_iff.1 fits
    exact declared
  · cases fits

/-- The guards of the module are kept to the conduct. -/
def GuardsKeep (c : Conduct Engine) (evaluator : Evaluator) (m : Module) : Prop :=
  ∀ rule ∈ m.matched, ∀ guard, rule.source.guard = some guard → ∀ env, Keeps c (evaluator env guard)

theorem Serves.guards {c : Conduct Engine} (serves : Serves c setting self) (m : Module) :
    GuardsKeep c self m :=
  fun _ _ guard _ env => serves.expression env guard

namespace GuardsKeep
variable {c : Conduct Engine} {m : Module}

theorem guardHolds (kept : GuardsKeep c self m) {rule : MatchedRule}
    (declared : rule ∈ m.matched) (source : Value) :
    Keeps c (guardHolds self setting rule source) := by
  unfold Engine.guardHolds
  split
  · exact .pure _
  next guard given => exact .bind (kept rule declared guard given _) fun _ => .pure _

theorem winners (kept : GuardsKeep c self m) (source : Value) (best : Option Nat)
    {fitting : List (Nat × MatchedRule)} (declared : ∀ candidate ∈ fitting, candidate.2 ∈ m.matched) :
    Keeps c (winners self setting source best fitting) := by
  induction fitting generalizing best with
  | nil => exact .pure _
  | cons candidate rest ih =>
    obtain ⟨first, others⟩ := List.forall_mem_cons.1 declared
    unfold Engine.winners
    split
    · exact .pure _
    · refine .bind (kept.guardHolds first _) fun holds => ?_
      split
      · exact .bind (ih _ others) fun _ => .pure _
      · exact ih _ others

theorem selectRule (kept : GuardsKeep c self m) (source : Value) (model : String) :
    Keeps c (selectRule self setting m source model) := by
  refine .bind (ancestry_keeps source) fun found => ?_
  refine .bind (kept.winners _ _ fun _ => candidates_declared) fun rules => ?_
  split
  · exact .pure _
  · exact .pure _
  · exact .bind .state fun s => .bind (.ofResult _) fun _ => .fail _

theorem matchObjects (kept : GuardsKeep c self m) (model : String) (schedule : Schedule)
    (objects : List Handle) : Keeps c (matchObjects self setting m model schedule objects) := by
  induction objects generalizing schedule with
  | nil => exact .pure _
  | cons h rest ih => exact .bind (kept.selectRule _ _) fun _ => ih _

theorem matchModels (kept : GuardsKeep c self m) (providers : Named Provider)
    (schedule : Schedule) (names : List String) :
    Keeps c (matchModels self setting m providers schedule names) := by
  induction names generalizing schedule with
  | nil => exact .pure _
  | cons name rest ih =>
    unfold Engine.matchModels
    split
    · exact .fail _
    · refine .bind .state fun s => .bind (.collaborate _ _) fun objects => ?_
      exact .bind (kept.matchObjects _ _ _) fun _ => ih _

end GuardsKeep

theorem createAll_course {transformation : Transformation} {scheduled : List Application}
    (ended : createAll transformation scheduled s = .value () t) : Course setting [] s t := by
  induction scheduled generalizing s with
  | nil =>
    obtain ⟨-, rfl⟩ := pure_eq_value.1 ended
    exact .refl s
  | cons a rest ih =>
    obtain ⟨_, _, noted, ended⟩ := bind_eq_value.1 ended
    obtain rfl := modify_eq_value.1 noted
    obtain ⟨outputs, u, made, ended⟩ := bind_eq_value.1 ended
    obtain ⟨_, w, registered, ended⟩ := bind_eq_value.1 ended
    obtain ⟨_, _, counted, ended⟩ := bind_eq_value.1 ended
    obtain rfl := modify_eq_value.1 counted
    have before : Course setting [] s u :=
      .trans (.quiet (noteRule_quiet _ s)) (makeTargets_course made)
    have behind : Course setting [] w t := .trans .aside (ih ended)
    exact (before.trans (registerLink_course registered)).trans behind

theorem advance_eq_value {phase : Phase} (ended : advance phase s = .value () t) :
    t = enterPhase phase s := by
  obtain ⟨_, _, read, ended⟩ := bind_eq_value.1 ended
  obtain ⟨rfl, rfl⟩ := state_eq_value.1 read
  split at ended
  · exact (modify_eq_value.1 ended).symm
  · cases ended

theorem runPhase_eq_value {phase : Phase} {work : Run Engine Unit}
    (ended : runPhase setting phase work s = .value () t) :
    ∃ u, work (enterPhase phase s) = .value () u ∧ Quiet u t := by
  obtain ⟨_, v, advanced, ended⟩ := bind_eq_value.1 ended
  obtain rfl := advance_eq_value advanced
  obtain ⟨_, u, worked, ended⟩ := bind_eq_value.1 ended
  refine ⟨u, worked, ?_⟩
  split at ended
  · obtain rfl := modify_eq_value.1 ended
    exact ⟨_, _, _, _, _, _, _, _, _, rfl⟩
  · obtain ⟨-, rfl⟩ := pure_eq_value.1 ended
    exact ⟨_, _, _, _, _, _, _, _, _, rfl⟩

/-- What is done before any rule is at work: the sources are matched and the targets are created. -/
def matchAndCreate (self : Evaluator) (setting : Setting) (t : Transformation) : Run Engine Unit := do
  runPhase setting .matching (matchSources self setting t)
  runPhase setting .creation (do createAll t (scheduled (← Run.state)))

/-- Whatever was created for the schedule is filled in. -/
def fillScheduled (self : Evaluator) (setting : Setting) : Run Engine Unit := do
  let s ← Run.state
  fillAll self setting ((scheduled s).zip s.created)

/-- What is done before the first binding is evaluated again. -/
def prepareWalk (self : Evaluator) (setting : Setting) (t : Transformation) : Run Engine Unit := do
  matchAndCreate self setting t
  runPhase setting .initialization (fillScheduled self setting)

theorem phases_eq_bind (bound : Nat) (transformation : Transformation) :
    phases self bound setting transformation = (do
      prepareWalk self setting transformation
      runPhase setting .resolution (resolveFrom self setting bound 0)) := by
  rw [prepareWalk, matchAndCreate, bind_assoc, bind_assoc]
  rfl

theorem Follows.prepareWalk (follows : Follows setting self) {transformation : Transformation}
    (ended : prepareWalk self setting transformation s = .value () t) :
    ∃ done, Course setting done s t := by
  obtain ⟨_, b, prepared, filled⟩ := bind_eq_value.1 ended
  obtain ⟨_, a, matched, created⟩ := bind_eq_value.1 prepared
  -- matching
  obtain ⟨u, matched, quietly⟩ := runPhase_eq_value matched
  obtain ⟨schedule, v, built, planned⟩ := bind_eq_value.1 matched
  obtain rfl := modify_eq_value.1 planned
  obtain ⟨matching, course, -⟩ := ((follows.serves.guards _).matchModels _ _ _).value built
  have matched : Course setting matching s a := by
    have started : Course setting matching s v := .trans .aside course
    simpa using (started.trans .aside).trans (.quiet quietly)
  -- creation
  obtain ⟨u, created, quietly⟩ := runPhase_eq_value created
  obtain ⟨_, _, read, created⟩ := bind_eq_value.1 created
  obtain ⟨rfl, rfl⟩ := state_eq_value.1 read
  have created : Course setting [] a b :=
    (Course.aside.trans (createAll_course created)).trans (.quiet quietly)
  -- initialization
  obtain ⟨u, filled, quietly⟩ := runPhase_eq_value filled
  obtain ⟨_, _, read, filled⟩ := bind_eq_value.1 filled
  obtain ⟨rfl, rfl⟩ := state_eq_value.1 read
  obtain ⟨filling, course⟩ := follows.fillAll filled
  have filled : Course setting filling b t := by
    have started : Course setting filling b u := .trans .aside course
    simpa using started.trans (.quiet quietly)
  exact ⟨_, (matched.trans created).trans filled⟩

/-- A successful run prepares the walk, walks, and is complete. -/
theorem runWith_eq_value {bound : Nat} {transformation : Transformation}
    (ended : runWith self bound setting transformation s = .value () t) :
    ∃ c w e, prepareWalk self setting transformation s = .value () c ∧
      resolveFrom self setting bound 0 (enterPhase .resolution c) = .value () w ∧ Quiet w e ∧
      t = enterPhase .complete e := by
  obtain ⟨_, _, read, ended⟩ := bind_eq_value.1 ended
  obtain ⟨rfl, rfl⟩ := state_eq_value.1 read
  split at ended
  · cases ended
  obtain ⟨_, e, worked, ended⟩ := bind_eq_value.1 ended
  rw [rescue_eq_value (by simp [bind_eq_value]), phases_eq_bind] at worked
  obtain ⟨_, c, prepared, resolved⟩ := bind_eq_value.1 worked
  obtain ⟨w, walked, quietly⟩ := runPhase_eq_value resolved
  exact ⟨c, w, e, prepared, walked, quietly, advance_eq_value ended⟩

/-- What a successful run does: everything up to the walk, then the walk. -/
theorem Follows.runWith (follows : Follows setting self) {bound : Nat}
    {transformation : Transformation}
    (ended : runWith self bound setting transformation s = .value () t) :
    ∃ done redone a b, Course setting done s a ∧ Redoing setting 0 redone a b ∧
      Course setting [] b t ∧ t.phase = .complete := by
  obtain ⟨c, w, e, prepared, walked, quietly, rfl⟩ := runWith_eq_value ended
  obtain ⟨done, course⟩ := follows.prepareWalk prepared
  obtain ⟨redone, walk⟩ := follows.resolveFrom walked
  have walking : Course setting [] c (enterPhase .resolution c) := .aside
  exact ⟨_, redone, _, w, course.trans walking, walk, (Course.quiet quietly).trans .aside, rfl⟩

theorem Follows.callRule (follows : Follows setting self) {transformation : Transformation}
    {name : String} {args : List Value} {v : Value}
    (ended : callRuleWith self setting transformation name args s = .value v t) :
    ∃ done, Course setting done s t := by
  obtain ⟨_, _, read, ended⟩ := bind_eq_value.1 ended
  obtain ⟨rfl, rfl⟩ := state_eq_value.1 read
  by_cases ready : s.phase = .complete
  · cases found : transformation.module.calledRule? name with
    | none => simp [ready, found] at ended
    | some rule =>
      simp only [ready, found, ne_eq, not_true_eq_false, if_false] at ended
      obtain ⟨done, course, -⟩ := follows.invokeCalled ended
      exact ⟨done, course⟩
  · simp [ready] at ended

end Metamorph.Engine
