import Metamorph.Proofs.Approximation
import Metamorph.Proofs.Resolution
import Metamorph.Proofs.Walk

/-! Rules that apply each other, to whatever arguments, come to an end at the limit of their nesting.
Guards and bindings are only so large, and an evaluation that may go as deep as they and the rules
below them need is not cut off; one that may go deeper does the same. -/
namespace Metamorph

/-- The guards of the matched rules. -/
def Module.guards (m : Module) : List Expr := m.matched.filterMap (·.source.guard)

namespace Engine
open Run
variable {setting : Setting} {t : Transformation} {self : Evaluator} {s : Engine} {store : Store}
  {log : List LogRecord}

/-- How deep the evaluations of guards, bindings and statements may have to go. -/
noncomputable def ruleDepth (setting : Setting) (m : Module) : Nat :=
  sizeOf m.guards + walkDepth setting m

/-- The evaluator is not cut off at what rules evaluate, where no rule is being applied around it. -/
structure Ending (m : Module) (evaluator : Evaluator) : Prop where
  guard : ∀ env {e}, e ∈ m.guards → Keeps (atDepth 0) (evaluator env e)
  expression : ∀ env {e}, e ∈ m.expressions → Keeps (atDepth 0) (evaluator env e)

theorem evaluateWithin_ending (given : setting.transformation = some t)
    (helperless : ∀ helper, ¬ HasHelper setting helper) {depth : Nat}
    (enough : ruleDepth setting t.module ≤ depth) :
    Ending t.module (evaluateWithin setting depth) := by
  have limit : setting.settings.depthLimit ≤
      ((0 : Nat) : Int) + (setting.settings.depthLimit.toNat : Int) := by omega
  unfold ruleDepth walkDepth at enough
  constructor
  · intro env e own
    have inside := List.sizeOf_lt_of_mem own
    exact evaluateWithin_ends given helperless limit env (by omega)
  · intro env e own
    have inside := List.sizeOf_lt_of_mem own
    exact evaluateWithin_ends given helperless limit env (by omega)

theorem runPhase_ends {phase next : Phase} {work : Run Engine Unit} (here : At phase s)
    (follows : phase.next? = some next) (ends : Keeps (atDepth 0) work) :
    runPhase setting next work s ≠ .exhausted := by
  rw [Ne, runPhase_eq_exhausted here follows]
  intro cut
  have kept := ends (enterPhase next s)
  rw [cut] at kept
  exact kept here.depth

/-- The phases before the walk do the same with a better evaluator, as far as they come. -/
theorem Approximates.prepareWalk {other : Evaluator} (below : Approximates self other) :
    Run.Below (prepareWalk self setting t) (prepareWalk other setting t) := by
  refine .bind (.before (Heeds.runPhase below.heeds.matchSources).below) fun _ => ?_
  exact (Heeds.runPhase (.after fun s => below.heeds.fillAll _)).below

namespace Ending

theorem matchSources (ending : Ending t.module self) :
    Keeps (atDepth 0) (matchSources self setting t) := by
  have guards : GuardsKeep (atDepth 0) self t.module := fun rule declared guard given env =>
    ending.guard env (List.mem_filterMap.2 ⟨rule, declared, given⟩)
  exact .bind (guards.matchModels _ _ _) fun schedule => .modify fun _ here => here

theorem fillAll (ending : Ending t.module self) {work : List (Application × Outputs)}
    (declared : ∀ item ∈ work, item.1.rule ∈ t.module.matched) :
    Keeps (atDepth 0) (fillAll self setting work) := by
  have bears : Bears (atDepth 0) (· ∈ t.module.expressions) := atDepth_bears
  exact bears.fillAll (fun env _ => ending.expression env) fun item member =>
    Module.matched_binds (declared item member)

/-- Matching, creation and initialization end, in whatever way. -/
theorem prepareWalk (ending : Ending t.module self)
    (guarded : ∀ env e, Keeps guarding (self env e)) :
    prepareWalk self setting t { store, log } ≠ .exhausted := by
  intro cut
  rcases bind_eq_exhausted.1 cut with cut | ⟨_, b, created, cut⟩
  · rcases bind_eq_exhausted.1 cut with cut | ⟨_, a, matched, cut⟩
    · exact runPhase_ends at_ready rfl ending.matchSources cut
    · obtain ⟨here, -⟩ := matching_untouched guarded (Outcome.state?_value matched)
      have bears : Bears (atDepth 0) fun _ => True := atDepth_bears
      refine runPhase_ends here rfl (.bind .state fun s => ?_) cut
      exact bears.createAll _
  · obtain ⟨here, -⟩ := matchAndCreate_at guarded created
    have declared := matchAndCreate_declared created
    refine (runPhase_eq_exhausted here rfl).not.2 (fun cut => ?_) cut
    have fills : Keeps (atDepth 0) (Engine.fillAll self setting
        ((scheduled (enterPhase .initialization b)).zip (enterPhase .initialization b).created)) :=
      ending.fillAll fun item member => declared _ (List.of_mem_zip member).1
    have kept := fills (enterPhase .initialization b)
    rcases bind_eq_exhausted.1 cut with read | ⟨_, _, read, cut⟩
    · cases read
    · obtain ⟨rfl, rfl⟩ := state_eq_value.1 read
      rw [cut] at kept
      exact kept here.depth

end Ending

/-- A called rule executed while no other is being applied ends, in whatever way. -/
theorem callRuleWith_ends (given : setting.transformation = some t)
    (helperless : ∀ helper, ¬ HasHelper setting helper) {depth : Nat}
    (enough : ruleDepth setting t.module ≤ depth) (shallow : s.phase = .complete → s.depth = 0)
    (name : String) (args : List Value) :
    callRuleWith (evaluateWithin setting depth) setting t name args s ≠ .exhausted := by
  by_cases complete : s.phase = .complete
  · have limit : setting.settings.depthLimit ≤
        ((0 : Nat) : Int) + (setting.settings.depthLimit.toNat : Int) := by omega
    have room : levels (sizeOf t.module.expressions) setting.settings.depthLimit.toNat ≤ depth := by
      unfold ruleDepth walkDepth at enough
      omega
    obtain ⟨inner, below⟩ := exists_below limit room fun {_ _} limit env {_} small =>
      evaluateWithin_ends given helperless limit env small
    have called : Keeps (atDepth 0)
        (callRuleWith (evaluateWithin setting depth) setting t name args) := by
      refine .bind .state fun s => ?_
      split
      · exact .fail _
      · split
        · exact .fail _
        · rename_i rule known
          have bears : Bears (atDepth 0) fun _ => True := atDepth_bears
          exact bears.invokeCalled below.bears below.encloses below.expression
            (Module.called_binds known) (Module.called_body known) args
    intro cut
    have kept := called s
    rw [cut] at kept
    exact kept (shallow complete)
  · rw [callRuleWith_refused complete]
    nofun

/-- The run comes to the same with every evaluator that may go at least so deep. -/
def Settles {α : Type} (setting : Setting) (enough : Nat) (run : Evaluator → Run Engine α)
    (s : Engine) : Prop :=
  ∃ outcome, outcome ≠ .exhausted ∧
    ∀ depth, enough ≤ depth → run (evaluateWithin setting depth) s = outcome

theorem settles {α : Type} {enough : Nat} {run : Evaluator → Run Engine α}
    (below : ∀ {self other}, Approximates self other → Run.Below (run self) (run other))
    (certain : run (evaluateWithin setting enough) s ≠ .exhausted) : Settles setting enough run s :=
  ⟨_, certain, fun _ further => below (evaluateWithin_approximates setting further) s certain⟩

end Engine

/-- Rules may apply each other as they like: one depth of evaluation is enough for matching, creation
and initialization, whatever the models hold, and for every called rule executed later. With it, and
with any larger one, these end with a value or an error, the same in each case. -/
theorem rule_recursion_ends {setting : Setting} {t : Transformation} {settings : Settings}
    {navigator : Navigator} (helperless : t.module.helpers = [])
    (prepared : Engine.prepare t settings navigator = .ok setting) :
    ∃ enough, ∀ store log,
      Engine.Settles setting enough (Engine.prepareWalk · setting t) { store, log } ∧
        ∀ s, Engine.Uses setting t store log s → ∀ name args,
          Engine.Settles setting enough (Engine.callRuleWith · setting t name args) s := by
  obtain ⟨given, free⟩ := Engine.prepare_helperless helperless prepared
  refine ⟨Engine.ruleDepth setting t.module, fun store log => ⟨?_, fun s uses name args => ?_⟩⟩
  · refine Engine.settles (fun below => ?_) ?_
    · exact below.prepareWalk
    · have ending := Engine.evaluateWithin_ending given free (Nat.le_refl _)
      exact ending.prepareWalk (Engine.evaluateWithin_guarding setting _)
  · refine Engine.settles (fun below => (below.heeds.callRuleWith name args).below) ?_
    have shallow (complete : s.phase = .complete) : s.depth = 0 :=
      (uses.found.at_complete complete).depth
    exact Engine.callRuleWith_ends given free (Nat.le_refl _) shallow name args

/-- The called rule calls itself with the object that it has just made. -/
def Looping.runaway : Transformation :=
  transformation [] [] [] [.evaluate (.call "C" [.variable "o" {}] {})]

theorem rule_recursion_ends_runaway :
    ∃ s enough, Engine.Uses (Looping.settingOf Looping.runaway) Looping.runaway Looping.objects [] s ∧
      s.phase = .complete ∧
      Engine.Settles (Looping.settingOf Looping.runaway) enough
        (Engine.callRuleWith · (Looping.settingOf Looping.runaway) Looping.runaway "C"
          [.object 1]) s := by
  obtain ⟨s, ⟨depth, walk, ended⟩, complete⟩ := Looping.completes_of_passes Looping.runaway
    (fun s => s.phase == .complete) (by decide +kernel)
  obtain ⟨enough, ends⟩ := rule_recursion_ends (by rfl : Looping.runaway.module.helpers = [])
    (by rfl : Engine.prepare Looping.runaway {} .full = .ok (Looping.settingOf Looping.runaway))
  have uses : Engine.Uses (Looping.settingOf Looping.runaway) Looping.runaway Looping.objects [] s :=
    .run .setUp (Outcome.state?_value ended)
  exact ⟨s, enough, uses, by simpa using complete, (ends Looping.objects []).2 s uses "C" [.object 1]⟩

end Metamorph
