import Metamorph.Proofs.RuleNesting
import Metamorph.Proofs.ScopeStack

/-! The three stacks of a run: the frames of environments, the bindings at work and the rules at work.
Each of them is as before whenever something ends, in whatever way, and a rule is refused for its depth
if as many are at work as the limit allows, and in no other case. -/
namespace Metamorph

namespace Engine
open Run
variable {setting : Setting} {t : Transformation} {self : Evaluator} {s : Engine}

/-- Runs that change nothing and are not cut off. -/
def unmoved : Conduct Engine where
  ends := Eq
  fails := Eq
  cut _ := False
  refl _ := rfl
  trans := Eq.trans
  stop _ := rfl
  after := Eq.trans
  before _ cut := cut

theorem unmoved_ends {run : Run Engine Unit} (kept : Keeps unmoved run) (s : Engine) :
    run s = .value () s ∨ ∃ fault, run s = .failure fault s := by
  have same := kept s
  cases outcome : run s with
  | value _ u =>
    rw [outcome] at same
    cases same
    exact .inl rfl
  | failure fault u =>
    rw [outcome] at same
    cases same
    exact .inr ⟨fault, rfl⟩
  | exhausted =>
    rw [outcome] at same
    cases same

/-- What is refused at the limit of nesting. -/
def tooDeep (setting : Setting) (rule : String) : Fault :=
  .unsupported rule ("rule invocations nested deeper than " ++ toString setting.settings.depthLimit)

theorem enterRule_deep {rule : String} (deep : setting.settings.depthLimit.toNat ≤ s.depth) :
    enterRule setting rule s = .failure (tooDeep setting rule) s := by
  have limit : setting.settings.depthLimit ≤ s.depth := by omega
  refine bind_eq_failure.2 (.inr ⟨s, s, rfl, ?_⟩)
  simp only [limit, if_true]
  rfl

theorem enterRule_shallow {rule : String} (shallow : ¬ setting.settings.depthLimit.toNat ≤ s.depth) :
    enterRule setting rule s = .value () s.enter := by
  have limit : ¬ setting.settings.depthLimit ≤ s.depth := by omega
  refine bind_eq_value.2 ⟨s, s, rfl, ?_⟩
  simp only [limit, if_false]
  rfl

/-- What an activity leaves has the event of it in its history. -/
theorem nest_ne_failure {α : Type} {event : Option α → List Event → Event} {body : Run Engine α}
    {r : Engine} {fault : Fault} (same : r.history = s.history) :
    nest event body r ≠ .failure fault s := by
  intro failed
  obtain ⟨u, -, left⟩ := nest_eq_failure.1 failed
  have history := congrArg Engine.history left
  dsimp only at history
  rw [same] at history
  simp at history

/-- From the state the run enters the rule, and what comes after the activity does not fail. -/
def Enters (setting : Setting) (rule : String) (run : Run Engine Value) (s : Engine) : Prop :=
  ∃ (α : Type) (event : Option α → List Event → Event) (body : Run Engine α)
    (next : α → Run Engine Value),
    run s = (enterRule setting rule >>= fun _ => nest event body >>= next) s ∧
      ∀ a u fault w, next a u ≠ .failure fault w

theorem Enters.of_eq {α : Type} {rule : String} {run : Run Engine Value}
    {event : Option α → List Event → Event} {body : Run Engine α} {next : α → Run Engine Value}
    (same : run s = (enterRule setting rule >>= fun _ => nest event body >>= next) s)
    (certain : ∀ a u fault w, next a u ≠ .failure fault w) : Enters setting rule run s :=
  ⟨α, event, body, next, same, certain⟩

theorem Enters.refused_iff {rule : String} {run : Run Engine Value}
    (enters : Enters setting rule run s) :
    run s = .failure (tooDeep setting rule) s ↔ setting.settings.depthLimit.toNat ≤ s.depth := by
  obtain ⟨α, event, body, next, same, certain⟩ := enters
  rw [same]
  constructor
  · intro refused
    by_contra shallow
    rw [bind_of_value (enterRule_shallow shallow)] at refused
    have untold : s.enter.history = s.history := rfl
    rcases bind_eq_failure.1 refused with failed | ⟨a, u, -, failed⟩
    · exact nest_ne_failure untold failed
    · exact certain a u _ _ failed
  · intro deep
    rw [bind_of_failure (enterRule_deep deep)]

/-- The checks of an invocation change nothing, and if one fails neither does the invocation. After
them the nesting alone decides whether it is refused, where it has to be made at all. -/
structure Admits (setting : Setting) (rule : String) (checks : Run Engine Unit)
    (made : Engine → Prop) (invoke : Run Engine Value) : Prop where
  checked : ∀ s, checks s = .value () s ∨ ∃ fault, checks s = .failure fault s
  refused : ∀ {s fault}, checks s = .failure fault s → invoke s = .failure fault s
  deep : ∀ {s}, checks s = .value () s → made s →
    (invoke s = .failure (tooDeep setting rule) s ↔ setting.settings.depthLimit.toNat ≤ s.depth)

/-- What is checked before a lazy rule is entered. -/
def lazyChecks (setting : Setting) (rule : LazyRule) (argument : Value) : Run Engine Unit := do
  refuseWhileMatching rule.name
  checkArgument setting rule.name rule.parameter argument

/-- What is checked before a called rule is entered. -/
def calledChecks (setting : Setting) (rule : CalledRule) (args : List Value) : Run Engine Unit := do
  refuseWhileMatching rule.name
  if args.length ≠ rule.parameters.length then
    Run.fail (.arity rule.name rule.parameters.length args.length)
  checkArguments setting rule.name rule.parameters args

theorem refuseWhileMatching_still {rule : String} {u : Engine}
    (ended : refuseWhileMatching rule s = .value () u) : s = u :=
  (refuseWhileMatching_keeps (c := unmoved) rule).value ended

theorem invokeLazy_admits (self : Evaluator) (t : Transformation) (rule : LazyRule)
    {argument : Value} (defined : argument ≠ .undefined) :
    Admits setting rule.name (lazyChecks setting rule argument) (fun _ => True)
      (invokeLazy self setting t rule argument) where
  checked := unmoved_ends <| .bind (refuseWhileMatching_keeps _) fun _ => checkArgument_keeps _ _ _
  refused {s fault} failed := by
    rcases bind_eq_failure.1 failed with failed | ⟨_, u, begun, failed⟩
    · exact bind_of_failure failed
    · rw [Engine.invokeLazy, bind_of_value begun]
      · exact bind_of_failure failed
      · exact defined
  deep {s} passed _ := by
    obtain ⟨_, u, begun, passed⟩ := bind_eq_value.1 passed
    obtain rfl := refuseWhileMatching_still begun
    refine Enters.refused_iff ?_
    apply Enters.of_eq
    case same =>
      rw [Engine.invokeLazy, bind_of_value begun, bind_of_value passed]
      exact defined
    case certain =>
      rintro ⟨result, complete⟩ u fault w
      cases complete <;> nofun

theorem recorded?_unkept {rule : String} {args : List Value}
    (unkept : s.frames.head?.bind (·.take? rule args) = none) :
    recorded? rule args s = .value none s := by
  unfold Engine.recorded?
  rw [state_bind, unkept]
  rfl

theorem invokeCalled_admits (self : Evaluator) (t : Transformation) (rule : CalledRule)
    (args : List Value) :
    Admits setting rule.name (calledChecks setting rule args)
      (fun s => s.frames.head?.bind (·.take? rule.name args) = none)
      (invokeCalled self setting t rule args) where
  checked := by
    refine unmoved_ends <| .bind (refuseWhileMatching_keeps _) fun _ => ?_
    split
    · exact .bind (.fail _) fun _ => checkArguments_keeps _ _ _
    · exact checkArguments_keeps _ _ _
  refused {s fault} failed := by
    rcases bind_eq_failure.1 failed with failed | ⟨_, u, begun, failed⟩
    · exact bind_of_failure failed
    · rw [Engine.invokeCalled, bind_of_value begun]
      by_cases wrong : args.length ≠ rule.parameters.length
      · rw [if_pos wrong] at failed ⊢
        have arity : (Run.fail (.arity rule.name rule.parameters.length args.length) :
            Run Engine Unit) u = .failure fault s := by
          simpa [bind_eq_failure] using failed
        exact bind_of_failure arity
      · rw [if_neg wrong] at failed ⊢
        exact bind_of_failure failed
  deep {s} passed unkept := by
    obtain ⟨_, u, begun, passed⟩ := bind_eq_value.1 passed
    obtain rfl := refuseWhileMatching_still begun
    obtain ⟨right, passed⟩ := guarded_eq_value.1 passed
    refine Enters.refused_iff ?_
    apply Enters.of_eq
    case same =>
      rw [Engine.invokeCalled, bind_of_value begun, if_neg right]
      dsimp only at passed ⊢
      rw [bind_of_value passed, bind_of_value (recorded?_unkept unkept)]
    case certain =>
      rintro ⟨result, frame⟩ u fault w
      nofun

/-- Whatever is evaluated, applied or invoked comes back to the rules and bindings that were at work. -/
structure ComesBack (setting : Setting) (t : Transformation) (self : Evaluator) : Prop where
  expression : ∀ env e, Keeps (nested setting) (self env e)
  binding : ∀ rule target binding env deferrable replay,
    Keeps (nested setting) (applyBinding self setting rule target binding env deferrable replay) ∧
      Keeps framing (applyBinding self setting rule target binding env deferrable replay)
  lazy : ∀ rule argument, Keeps (nested setting) (invokeLazy self setting t rule argument)
  called : ∀ rule args, Keeps (nested setting) (invokeCalled self setting t rule args)
  run : ∀ bound, Keeps (nested setting) (runWith self bound setting t)
  execution : ∀ name args, Keeps (nested setting) (callRuleWith self setting t name args)

theorem evaluateUntil_comesBack (stop : Interruption) (bound : Nat) :
    ComesBack setting t (evaluateUntil stop setting bound) := by
  have kept : ∀ env e, Keeps (nested setting) (evaluateUntil stop setting bound env e) :=
    evaluateUntil_nested stop bound
  refine ⟨kept, ?binding, ?lazy, ?called, ?run, ?execution⟩
  case binding =>
    exact fun _ _ _ _ _ _ => ⟨nested_bears.applyBinding (fun env _ _ => kept env _) trivial,
      applyBinding_framing kept _ _ _ _ _ _⟩
  case lazy =>
    exact fun rule argument => nested_bears.invokeLazy nested_bears nested_encloses
      (fun env _ _ => kept env _) (fun out _ => out.binds_any) argument
  case called =>
    exact fun rule args => nested_bears.invokeCalled nested_bears nested_encloses
      (fun env _ _ => kept env _) (fun out _ => out.binds_any) (fun _ _ => trivial) args
  case run => exact nested_bears.runWith .undisturbed (fun _ => trivial) kept id
  case execution => exact fun name args => nested_bears.callRuleWith kept nested_encloses name args

end Engine

/-- Each of the stacks is as before wherever something ends, by success or failure or where it is broken
off. No more rules are ever at work than the limit allows, which is none if it is negative, and an
invocation that passes its checks is refused for its depth if that many are at work and only then. One
that is refused changes nothing. -/
theorem stack_discipline (setting : Setting) (t : Transformation) :
    (∀ bound e env s, ∃ left, Engine.evaluateOnStack setting bound e (env, s) =
      (Engine.evaluateWithin setting bound env e s).leaving { env with left }) ∧
    (∀ stop bound, Engine.ComesBack setting t (Engine.evaluateUntil stop setting bound)) ∧
    (∀ store log u, Engine.Reaches setting t store log u → u.frames = [] ∧ u.depth = 0 ∧
      nestingAmong u.history ≤ setting.settings.depthLimit.toNat) ∧
    ∀ self : Evaluator,
      (∀ rule argument, argument ≠ .undefined →
        Engine.Admits setting rule.name (Engine.lazyChecks setting rule argument) (fun _ => True)
          (Engine.invokeLazy self setting t rule argument)) ∧
      ∀ rule args, Engine.Admits setting rule.name (Engine.calledChecks setting rule args)
        (fun s => s.frames.head?.bind (·.take? rule.name args) = none)
        (Engine.invokeCalled self setting t rule args) := by
  refine ⟨?environment, Engine.evaluateUntil_comesBack, ?pipeline, ?limit⟩
  case environment =>
    exact fun bound e env s =>
      ((Engine.evaluateOnStack_onStack setting bound).mirrors e).same env s
  case pipeline =>
    intro store log u reaches
    have nested := reaches.nested
    obtain ⟨done, history, few⟩ := nested.history
    refine ⟨?_, nested.depth, ?_⟩
    · have same := nested.frames
      generalize u.frames = frames at same ⊢
      cases same
      rfl
    · rw [history]
      change _ ∨ ((0 : Nat) + _ : Int) ≤ _ at few
      change nestingAmong ([] ++ done) ≤ _
      rw [List.nil_append]
      omega
  case limit =>
    exact fun self => ⟨fun rule argument => Engine.invokeLazy_admits self t rule,
      Engine.invokeCalled_admits self t⟩

/-- After a run, and a called rule that invokes a lazy one. -/
theorem stack_discipline_direct :
    ∃ u, Engine.Reaches (Looping.settingOf Looping.direct) Looping.direct Looping.objects [] u ∧
      u.frames = [] ∧ u.depth = 0 ∧ 0 < nestingAmong u.history ∧
      nestingAmong u.history ≤ (Looping.settingOf Looping.direct).settings.depthLimit.toNat := by
  obtain ⟨s, u, completes, calls, tested⟩ := Looping.completes_then_calls Looping.direct
    (fun u => decide (0 < nestingAmong u.history)) (by decide +kernel)
  have reaches := calls.reaches completes.reaches
  obtain ⟨-, -, reached, -⟩ := stack_discipline (Looping.settingOf Looping.direct) Looping.direct
  obtain ⟨frames, depth, few⟩ := reached _ _ _ reaches
  exact ⟨u, reaches, frames, depth, by simpa using tested, few⟩

end Metamorph
