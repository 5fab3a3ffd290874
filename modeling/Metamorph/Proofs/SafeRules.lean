import Metamorph.Proofs.Reporting

/-! Evaluation in the language without Reals. Where every part of an expression is evaluated safely the
expression is, and so are the rules that it invokes and the helpers that it calls. -/
namespace Metamorph

namespace Engine
variable {setting : Setting} {α : Type} {v : Value}

/-- The evaluator is safe for expressions without Reals, where no Real is bound. -/
def Trusted (self : Evaluator) : Prop :=
  ∀ ⦃env e⦄, env.Each Value.RealFree → e.RealFree → Safe (·.RealFree) (self env e)

/-! What the engine does without evaluating anything. -/
section
variable {post : α → Prop}

theorem mismatch_safe (expected : String) (v : Value) (context : String) :
    Safe post (mismatch expected v context) :=
  .state fun _ _ => .fail rfl

theorem ancestry_safe (v : Value) : Safe (fun _ => True) (ancestry setting v) := by
  unfold ancestry
  refine .state fun s _ => ?_
  split
  · exact .pure trivial
  · exact .pure trivial
  · split <;> exact .pure trivial
  · exact .pure trivial

theorem hasFeature_safe (v : Value) (feature : String) :
    Safe (fun _ => True) (hasFeature setting v feature) := by
  unfold hasFeature
  split
  · exact .pure trivial
  · exact .asking fun _ _ => Store.RealFree.hasFeature_answers

theorem contextHelper?_safe (v : Value) (name : String) (isAttribute : Option Bool) :
    Safe (fun found => ∀ helper, found = some helper → HasHelper setting helper)
      (contextHelper? setting v name isAttribute) := by
  have safe : Safe (fun _ => True) (contextHelper? setting v name isAttribute) := by
    unfold contextHelper?
    split
    · exact .bind (ancestry_safe v) fun _ _ => .pure trivial
    · exact .pure trivial
  refine safe.tells fun ended helper same => ?_
  exact contextHelper?_has (same ▸ ended)

theorem displayed_safe (v : Value) : Safe (fun _ => True) (displayed v) :=
  .reading fun _ _ => Store.RealFree.textOf_reports

theorem applied_safe {operation : (Value → String) → Result Value}
    (reports : ∀ typeOf, Reports (·.RealFree) (operation typeOf)) :
    Safe (·.RealFree) (applied operation) :=
  .reading fun _ _ => reports _

theorem requireTruth_safe (op : String) (v : Value) : Safe (fun _ => True) (requireTruth op v) :=
  .reading fun _ _ => Operation.requireBoolean_reports

theorem navigate_safe (feature : String) (own : v.RealFree) :
    Safe (·.RealFree) (navigate v feature) :=
  .bind (.modify fun _ kept => { kept with }) fun _ _ => .asking fun _ kept => kept.store.navigate own

theorem logDebug_safe (label : String) (own : v.RealFree) :
    Safe (·.RealFree) (logDebug label v) :=
  .bind (displayed_safe v) fun _ _ => .bind (.modify fun _ kept => { kept with }) fun _ _ => .pure own

theorem distanceTo_safe (op : Universal) (v target : Value) :
    Safe (fun _ => True) (distanceTo setting op v target) := by
  refine .bind (ancestry_safe v) fun found _ => ?_
  split
  · exact .pure trivial
  · exact mismatch_safe _ _ _

theorem universal_safe (op : Universal) (args : List Value) (own : v.RealFree) :
    Safe (·.RealFree) (universal setting op v args) := by
  unfold universal
  split
  · exact logDebug_safe _ own
  · exact .bind (displayed_safe _) fun _ _ => logDebug_safe _ own
  · exact .pure trivial
  · exact .bind (displayed_safe _) fun _ _ => .pure trivial
  · exact .bind (ancestry_safe _) fun _ _ => .pure trivial
  · exact .bind (distanceTo_safe _ _ _) fun _ _ => .pure trivial
  · exact .bind (distanceTo_safe _ _ _) fun _ _ => .pure trivial
  all_goals exact .fail rfl

theorem filterM_safe {p : α → Run Engine Bool} (each : ∀ a, Safe (fun _ => True) (p a))
    (items : List α) : Safe (fun _ => True) (items.filterM p) := by
  have loop (items found : List α) : Safe (fun _ => True) (List.filterAuxM p items found) := by
    induction items generalizing found with
    | nil => exact .pure trivial
    | cons a rest ih => exact .bind (each a) fun _ _ => ih _
  exact .bind (loop items []) fun _ _ => .pure trivial

theorem instancesIn_safe (cls : String) {models : List (String × Provider)}
    (raisable : ∀ model ∈ models, model.2.refusals.Raisable) :
    Safe (fun found => ∀ v ∈ found, v.RealFree) (instancesIn setting cls models) := by
  induction models with
  | nil => exact .pure (List.forall_mem_nil _)
  | cons model rest ih =>
    obtain ⟨first, others⟩ := List.forall_mem_cons.1 raisable
    refine .state fun s _ => ?_
    have listed : Answers (fun _ => True) (model.2.objects s.store) :=
      Provider.refuse_answers (fun fault refused => first fault (.inl refused)) (.ok trivial)
    refine .bind (.collaborate listed) fun objects _ => ?_
    refine .bind (filterM_safe (fun h => ?_) objects) fun found _ => .bind (ih others) fun more own => ?_
    · exact .bind (ancestry_safe _) fun _ _ => .pure trivial
    · refine .pure (List.forall_mem_append.2 ⟨fun v member => ?_, own⟩)
      obtain ⟨h, -, rfl⟩ := List.mem_map.1 member
      trivial

theorem text_safe (v : Value) : Safe (fun _ => True) (ruleCall?.text v) := by
  unfold ruleCall?.text
  split
  · exact .pure trivial
  · exact mismatch_safe _ _ _

theorem resolveTemp_safe (source output : Value) (rule : Option Value) :
    Safe (·.RealFree) (ruleCall?.resolveTemp source output rule) := by
  have named : Safe (fun _ => True) (rule.mapM ruleCall?.text) := by
    cases rule with
    | none => exact .pure trivial
    | some rule => exact .bind (text_safe rule) fun _ _ => .pure trivial
  refine .bind named fun _ _ => .bind (text_safe output) fun _ _ => ?_
  exact .reading fun _ kept => Trace.resolve_reports kept.links

theorem checkArgument_safe (rule : String) (parameter : Parameter) (v : Value) :
    Safe (fun _ => True) (checkArgument setting rule parameter v) := by
  unfold checkArgument
  split
  · exact .pure trivial
  · exact .pure trivial
  · exact .bind (ancestry_safe _) fun found _ => .ite (.pure trivial) (mismatch_safe _ _ _)

theorem checkArguments_safe (rule : String) (parameters : List Parameter) (args : List Value) :
    Safe (fun _ => True) (checkArguments setting rule parameters args) := by
  induction parameters generalizing args with
  | nil => exact .pure trivial
  | cons parameter rest ih =>
    cases args with
    | nil => exact .pure trivial
    | cons v others => exact .bind (checkArgument_safe _ _ _) fun _ _ => ih others

theorem refuseWhileMatching_safe (rule : String) :
    Safe (fun _ => True) (refuseWhileMatching rule) :=
  .state fun _ _ => .ite (.fail rfl) (.pure trivial)

theorem enterRule_safe (rule : String) : Safe (fun _ => True) (enterRule setting rule) :=
  .state fun _ _ => .ite (.fail rfl) (.modify fun _ kept => { kept with })

theorem changeFrame_safe {change : BindingFrame → BindingFrame}
    (free : ∀ {frame}, frame.RealFree → (change frame).RealFree) :
    Safe (fun _ => True) (Run.modify (changeFrame change)) := by
  refine .modify fun s kept => { kept with frames := fun frame member => ?_ }
  have before := kept.frames
  change frame ∈ s.frames.modifyHead change at member
  cases frames : s.frames with
  | nil => simp [frames] at member
  | cons top rest =>
    rw [frames] at member before
    obtain ⟨first, others⟩ := List.forall_mem_cons.1 before
    rcases List.mem_cons.1 member with rfl | below
    · exact free first
    · exact others frame below

theorem recorded?_safe (rule : String) (args : List Value) :
    Safe (fun answer => ∀ v, answer = some v → v.RealFree) (recorded? rule args) := by
  refine .state fun s kept => ?_
  split
  · exact .pure nofun
  · rename_i call frame taken
    obtain ⟨top, first, taken⟩ := Option.bind_eq_some_iff.1 taken
    obtain ⟨own, free⟩ := (kept.frames top (List.mem_of_mem_head? first)).take? taken
    refine .bind (changeFrame_safe fun _ => free) fun _ _ => .pure ?_
    rintro _ ⟨⟩
    exact own

end

/-! Objects that are made, linked and assigned. -/
section
variable {t : Transformation} {outputs : Outputs}

theorem inFrame_safe {frame : BindingFrame} {post : α → Prop} {run : Run Engine α}
    (free : frame.RealFree) (safe : Safe post run) :
    Safe (fun result => post result.1 ∧ BindingFrame.RealFree result.2) (inFrame frame run) := by
  refine .bind (.modify fun s kept =>
    { kept with frames := List.forall_mem_cons.2 ⟨free, kept.frames⟩ }) fun _ _ => ?_
  refine .ensuring (.bind safe fun a holds => .state fun s kept => .pure ⟨holds, ?_⟩)
    fun s kept =>
      { kept with frames := fun frame member => kept.frames frame (List.mem_of_mem_tail member) }
  cases top : s.frames.head? with
  | none => exact free
  | some frame => exact kept.frames frame (List.mem_of_mem_head? top)

theorem registerLink_safe (rule : String) (source : Value) {kind : LinkKind}
    (unmatched : kind ≠ .matched) (each : outputs.Each Value.RealFree) :
    Safe (fun _ => True) (registerLink rule source outputs kind) := by
  refine .state fun s kept => ?_
  have registered : Reports (fun made => ∀ link ∈ made.2.links, link.RealFree)
      (s.trace.register s.store rule source outputs kind) := by
    unfold Trace.register
    split
    · exact Store.RealFree.textOf_reports.bind fun _ _ => .error rfl
    · refine .ok (List.forall_mem_append.2 ⟨kept.links, List.forall_mem_singleton.2 ⟨each, ?_⟩⟩)
      exact fun matched => (unmatched matched).elim
  exact .bind (.ofResult registered) fun made links => .modify fun u kept => { kept with links }

variable (free : setting.RealFree) (given : setting.transformation = some t)
include free given

theorem makeTarget_safe (out : OutPattern) : Safe (·.RealFree) (makeTarget t out) := by
  have chosen : Reports (fun provider => provider.refusals.Raisable)
      (targetProvider t out.type) := by
    cases provides : targetProvider t out.type with
    | ok provider =>
      obtain ⟨name, target⟩ := targetProvider_mem provides
      exact .ok (free.models given _ (List.mem_append_right _ target))
    | error fault =>
      obtain ⟨reason, rfl⟩ := targetProvider_refuses provides
      exact .error rfl
  refine .bind (.ofResult chosen) fun provider raisable => .state fun s kept => ?_
  have made : Answers (fun made => made.2.RealFree) (provider.create s.store out.type) :=
    Provider.refuse_answers (fun fault refused => raisable fault (.inr (.inl refused)))
      kept.store.create
  refine .bind (.collaborate made) fun made store => .bind (.modify fun s kept => ?_) fun _ _ => .pure trivial
  exact { kept with store, owners := List.forall_mem_cons.2 ⟨raisable, kept.owners⟩ }

theorem makeTargets_safe (patterns : List OutPattern) :
    Safe (fun outputs => outputs.Each Value.RealFree) (makeTargets t patterns) := by
  induction patterns with
  | nil => exact .pure nofun
  | cons out rest ih =>
    refine .bind (makeTarget_safe free given out) fun target own => .bind ih fun others each => ?_
    exact .pure (List.forall_mem_cons.2 ⟨own, each⟩)

theorem createLazy_safe (rule : LazyRule) (source : Value) :
    Safe (fun outputs => outputs.Each Value.RealFree) (createLazy t rule source) := by
  refine .bind (.modify fun _ kept => { kept with }) fun _ _ => ?_
  refine .bind (makeTargets_safe free given rule.outputs) fun outputs each => ?_
  refine .bind (registerLink_safe _ _ nofun each) fun _ _ => ?_
  exact .bind (.modify fun _ kept => { kept with }) fun _ _ => .pure each

end

theorem assign_safe (target : Value) (feature : String) (own : v.RealFree) :
    Safe (·.RealFree) (assign setting target feature v) := by
  refine .state fun s kept => ?_
  split
  · rename_i provider h owned
    have raisable : provider.refusals.Raisable := by
      obtain ⟨before, after, owners, -⟩ := List.lookup_eq_some_iff.1 owned
      exact kept.owners (h, provider) (owners ▸ List.mem_append_right _ List.mem_cons_self)
    have resolved : Reports (·.RealFree)
        (if setting.settings.implicitResolution then implicitTarget s.trace v else .ok v) := by
      split
      · exact implicitTarget_reports kept.links v own
      · exact .ok own
    refine .bind (.ofResult resolved) fun w own => ?_
    have assigned : Answers Store.RealFree (provider.assign s.store h feature (asFeatureValue w)) :=
      Provider.refuse_answers (fun fault refused => raisable fault (.inr (.inr refused)))
        (kept.store.set (asFeatureValue_realFree own))
    refine .bind (.collaborate assigned) fun store free => ?_
    exact .bind (.modify fun u kept => { kept with store := free }) fun _ _ =>
      .pure (asFeatureValue_realFree own)
  · refine .bind (.modify fun u kept => { kept with }) fun _ _ => ?_
    exact .bind (.ofResult Store.RealFree.textOf_reports) fun _ _ => .fail rfl

/-! Rules. -/
namespace Trusted
variable {self : Evaluator} {env : Environment} {rule : String} {outputs : Outputs}
  (trusted : Trusted self)
include trusted

theorem applyBinding {target : Value} {binding : Binding} {deferrable : Bool}
    (each : env.Each Value.RealFree) (free : binding.value.RealFree) :
    Safe (fun _ => True) (applyBinding self setting rule target binding env deferrable []) := by
  have worked : Safe (fun _ => True)
      (working (if deferrable then .first else .again)
        { target, feature := binding.feature, value := binding.value, scope := env.snapshot } do
        let result ← inFrame { replay := [] } (self env binding.value)
        Run.modify fun s => { s with bindingsEvaluated := s.bindingsEvaluated + 1 }
        return (result.2, ← assign setting target binding.feature result.1)) := by
    refine .bind (.nest ?_) fun _ (_ : True) => .pure trivial
    refine .bind (inFrame_safe .empty (trusted each free)) fun result both => ?_
    refine .bind (.modify fun _ kept => { kept with }) fun _ _ => ?_
    exact .bind (assign_safe _ _ both.1) fun _ _ => .pure trivial
  exact .bind worked fun frame _ => .ite (.modify fun _ kept => { kept with }) (.pure trivial)

theorem applyBindings {target : Value} (each : env.Each Value.RealFree) {bindings : List Binding}
    (free : ∀ binding ∈ bindings, binding.value.RealFree) :
    Safe (fun _ => True) (applyBindings self setting rule target env bindings) := by
  induction bindings with
  | nil => exact .pure trivial
  | cons binding rest ih =>
    obtain ⟨first, others⟩ := List.forall_mem_cons.1 free
    exact .bind (trusted.applyBinding each first) fun _ _ => ih others

theorem fillOutputs (each : env.Each Value.RealFree) {patterns : List OutPattern}
    (free : ∀ out ∈ patterns, out.Binds Expr.RealFree) :
    Safe (fun _ => True) (fillOutputs self setting rule outputs env patterns) := by
  induction patterns with
  | nil => exact .pure trivial
  | cons out rest ih =>
    obtain ⟨first, others⟩ := List.forall_mem_cons.1 free
    exact .bind (trusted.applyBindings each first) fun _ _ => ih others

theorem fillApplication {patterns : List OutPattern} {scope : Named Value}
    (each : outputs.Each Value.RealFree) (bound : scope.Each Value.RealFree)
    (free : ∀ out ∈ patterns, out.Binds Expr.RealFree) :
    Safe (fun _ => True) (fillApplication self setting rule patterns outputs scope) :=
  .bind (.modify fun _ kept => { kept with }) fun _ _ =>
    trusted.fillOutputs (.rootEnvironment setting trivial (bound.update each)) free

theorem executeStatement (each : env.Each Value.RealFree) {statement : Statement}
    (free : statement.expression.RealFree) :
    Safe (·.RealFree) (executeStatement self setting env statement) := by
  cases statement with
  | evaluate e => exact trusted each free
  | assign target feature e =>
    refine .bind (.nest (show Safe (fun result : Value × Value => result.1.RealFree) _ from ?_))
      fun _ own => .pure own
    refine .bind (trusted each free) fun v own => ?_
    refine .bind (.ofResult (Environment.lookup_reports each)) fun object _ => ?_
    refine .state fun s _ => ?_
    refine .ite (.bind (.fail rfl) fun _ (never : False) => never.elim) ?_
    refine .bind (.modify fun _ kept => { kept with }) fun _ _ => ?_
    exact .bind (assign_safe _ _ own) fun _ _ => .pure own

theorem executeBody {last : Value} (each : env.Each Value.RealFree) (own : last.RealFree)
    {body : List Statement} (free : ∀ statement ∈ body, statement.expression.RealFree) :
    Safe (·.RealFree) (executeBody self setting env last body) := by
  induction body generalizing last with
  | nil => exact .pure own
  | cons statement rest ih =>
    obtain ⟨first, others⟩ := List.forall_mem_cons.1 free
    exact .bind (trusted.executeStatement each first) fun _ own => ih own others

theorem fillLazy {rule : LazyRule} (own : v.RealFree) (each : outputs.Each Value.RealFree)
    (free : ∀ out ∈ rule.outputs, out.Binds Expr.RealFree) :
    Safe (fun _ => True) (fillLazy self setting rule v outputs) :=
  .applying (trusted.fillApplication each (List.forall_mem_singleton.2 own) free)

variable {t : Transformation} {args : List Value} (free : setting.RealFree)
include free

theorem executeCalled {rule : CalledRule} (known : HasCalled setting t rule)
    (each : ∀ v ∈ args, v.RealFree) :
    Safe (·.RealFree) (executeCalled self setting t rule args) := by
  have binds : ∀ out ∈ rule.outputs, out.Binds Expr.RealFree :=
    fun out member binding bound => free.rules known.1 _ (Module.called_binds known.2 out member binding bound)
  have body : ∀ statement ∈ rule.body, statement.expression.RealFree :=
    fun statement member => free.rules known.1 _ (Module.called_body known.2 statement member)
  refine .bind (.modify fun _ kept => { kept with }) fun _ _ => ?_
  refine .bind (makeTargets_safe free known.1 _) fun outputs made => ?_
  have scope : Named.Each Value.RealFree (Named.ofPairs ((rule.parameters.map (·.name)).zip args)) :=
    (Named.Each.zip each).ofPairs
  have undefined : Value.undefined.RealFree := trivial
  refine .bind (.applying (.bind (trusted.fillApplication made scope binds) fun _ _ =>
    trusted.executeBody (.rootEnvironment setting trivial (scope.update made)) undefined body))
    fun last own => .pure ?_
  split
  · exact own
  · exact made.getD trivial

theorem invokeLazy {rule : LazyRule} (known : HasLazy setting t rule) (own : v.RealFree) :
    Safe (·.RealFree) (invokeLazy self setting t rule v) := by
  have binds : ∀ out ∈ rule.outputs, out.Binds Expr.RealFree :=
    fun out member binding bound => free.rules known.1 _ (Module.lazy_binds known.2 out member binding bound)
  refine .bind (refuseWhileMatching_safe _) fun _ _ => ?_
  split
  · exact .pure trivial
  · refine .bind (checkArgument_safe _ _ _) fun _ _ => .bind (enterRule_safe _) fun _ _ => ?_
    have requested : Safe (fun outputs => outputs.Each Value.RealFree)
        (LazyCache.request cachePlace (createLazy t rule v) (Engine.fillLazy self setting rule v)
          rule.name v) := by
      refine .state fun s kept => ?_
      split
      · rename_i entry found
        have made := kept.cache entry (List.mem_of_find?_eq_some found)
        exact .bind (.modify fun _ kept => { kept with }) fun _ _ => .pure made
      · refine .bind (.modify fun _ kept => { kept with }) fun _ _ => ?_
        refine .bind (createLazy_safe free known.1 rule v) fun outputs made => ?_
        refine .bind (.modify fun _ kept => { kept with cache := ?_ }) fun _ _ => ?_
        · exact List.forall_mem_append.2 ⟨kept.cache, List.forall_mem_singleton.2 made⟩
        · refine .bind (trusted.fillLazy own made binds) fun _ _ => ?_
          refine .bind (.modify fun _ kept => { kept with cache := fun entry member => ?_ })
            fun _ _ => .pure made
          obtain ⟨old, listed, rfl⟩ := List.mem_map.1 member
          have outputs := kept.cache old listed
          split <;> exact outputs
    refine .bind (.nest (show Safe (fun result => result.1.RealFree) _ from ?_))
      fun result own => ?_
    · refine .bind (requested.ensuring fun _ kept => { kept with }) fun outputs made => ?_
      exact .state fun s _ => .pure (made.getD trivial)
    · exact .ite (.bind (changeFrame_safe id) fun _ _ => .pure own) (.pure own)

theorem invokeCalled {rule : CalledRule} (known : HasCalled setting t rule)
    (each : ∀ v ∈ args, v.RealFree) :
    Safe (·.RealFree) (invokeCalled self setting t rule args) := by
  refine .bind (refuseWhileMatching_safe _) fun _ _ => ?_
  refine .ite (.bind (.fail rfl) fun _ (never : False) => never.elim) ?_
  refine .bind (checkArguments_safe _ _ _) fun _ _ => ?_
  refine .bind (recorded?_safe rule.name args) fun answer kept => ?_
  cases answer with
  | some result => exact .bind (.modify fun _ kept => { kept with }) fun _ _ => .pure (kept result rfl)
  | none =>
    refine .bind (enterRule_safe _) fun _ _ => ?_
    have executed := inFrame_safe .empty (trusted.executeCalled free known each)
    refine .bind (.nest (executed.ensuring fun _ kept => { kept with })) fun result both => ?_
    refine .bind (.modify fun _ kept => { kept with }) fun _ _ => ?_
    refine .bind (changeFrame_safe fun outer => ?_) fun _ _ => .pure both.1
    exact ⟨List.forall_mem_cons.2 ⟨both.1, outer.1⟩, outer.2⟩

end Trusted

end Engine

end Metamorph
