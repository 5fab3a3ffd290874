import Metamorph.Proofs.Requests

/-! What it takes for an evaluation to end with a value. -/
namespace Metamorph

namespace Engine
open Run
variable {setting : Setting} {t : Transformation} {self : Evaluator} {env : Environment}
  {s u : Engine} {k : Nat}

theorem evaluateWithin_eq_value {e : Expr} {v : Value}
    (ended : step setting (evaluateWithin setting k) env e s = .value v u) :
    evaluateWithin setting (k + 1) env e s = .value v u :=
  mapFault_eq_value.2 ended

theorem evaluate_variable {name : String} {loc : Location} {v : Value}
    (known : env.get? name = some v) :
    evaluateWithin setting (k + 1) env (.variable name loc) s = .value v s := by
  refine evaluateWithin_eq_value (ofResult_eq_value.2 ⟨?_, rfl⟩)
  simp only [Environment.lookup, known]

/-- Where there are no helpers, features are read. -/
theorem evaluate_feature {name feature : String} {loc place : Location} {h : Handle} {v : Value}
    (free : setting.helpers.has feature = false) (known : env.get? name = some (.object h))
    (read : s.store.navigate (.object h) feature = .ok v) :
    evaluateWithin setting (k + 2) env (.navigation (.variable name loc) feature place) s =
      .value v { s with navigations := s.navigations + 1 } := by
  refine evaluateWithin_eq_value (bind_eq_value.2 ⟨.object h, s, evaluate_variable known, ?_⟩)
  have looked : contextHelper? setting (.object h) feature (some true) s = .value none s := by
    unfold contextHelper?
    rw [free]
    rfl
  change (contextHelper? setting (.object h) feature (some true) >>= _) s = _
  rw [bind_of_value looked]
  refine bind_eq_value.2 ⟨(), _, rfl, bind_eq_value.2 ⟨_, _, rfl, ?_⟩⟩
  exact collaborate_eq_value.2 ⟨read, rfl⟩

theorem evaluate_lazy {name x : String} {loc place : Location} {rule : LazyRule}
    {v result : Value} (given : setting.transformation = some t)
    (free : setting.helpers.module.get? name = none)
    (declared : t.module.lazyRule? name = some rule) (known : env.get? x = some v)
    (invoked : invokeLazy (evaluateWithin setting (k + 1)) setting t rule v s = .value result u) :
    evaluateWithin setting (k + 2) env (.call name [.variable x loc] place) s =
      .value result u := by
  have args : evaluateAll (evaluateWithin setting (k + 1)) env [.variable x loc] s =
      .value [v] s :=
    bind_eq_value.2 ⟨v, s, evaluate_variable known, rfl⟩
  refine evaluateWithin_eq_value (bind_eq_value.2 ⟨[v], s, args, ?_⟩)
  unfold callModule
  rw [free, given]
  simpa only [Option.bind_some, ruleCall?, declared] using invoked

theorem request_hit {create : Run Engine Outputs} {fill : Outputs → Run Engine Unit} {rule : String}
    {source : Value} {entry : LazyEntry} (found : s.cache.lookup? rule source = some entry) :
    LazyCache.request cachePlace create fill rule source s =
      .value entry.outputs { s with cache := s.cache.hit } := by
  unfold LazyCache.request
  rw [state_bind]
  simp only [cachePlace, found]
  rfl

theorem request_miss {create : Run Engine Outputs} {fill : Outputs → Run Engine Unit} {rule : String}
    {source : Value} {outputs : Outputs} {w : Engine}
    (missing : s.cache.lookup? rule source = none)
    (created : create { s with cache := s.cache.miss } = .value outputs u)
    (filled : fill outputs { u with cache := u.cache.start rule source outputs } = .value () w) :
    LazyCache.request cachePlace create fill rule source s =
      .value outputs { w with cache := w.cache.finish rule source } := by
  unfold LazyCache.request
  rw [state_bind]
  simp only [cachePlace, missing]
  refine bind_eq_value.2 ⟨(), _, rfl, bind_eq_value.2 ⟨outputs, u, created, ?_⟩⟩
  exact bind_eq_value.2 ⟨(), _, rfl, bind_eq_value.2 ⟨(), w, filled, rfl⟩⟩

/-- A lazy rule answers with what its memory does. -/
theorem invokeLazy_of_request {rule : LazyRule} {h : Handle} {outputs : Outputs} {w : Engine}
    {complete : Bool} (begun : s.phase ≠ .matching)
    (shallow : ¬ setting.settings.depthLimit ≤ s.depth) (untyped : rule.parameter.type = none)
    (requested : LazyCache.request cachePlace (createLazy t rule (.object h))
      (fillLazy self setting rule (.object h)) rule.name (.object h) { s.enter with history := [] } =
        .value outputs w)
    (known : w.cache.isComplete rule.name (.object h) = complete) :
    invokeLazy self setting t rule (.object h) s = .value (answer rule outputs)
      (noticing complete (telling s
        (.lazy rule.name (.object h) complete (some (answer rule outputs)) w.history) w.leave)) := by
  have allowed : refuseWhileMatching rule.name s = .value () s := by
    unfold refuseWhileMatching
    rw [state_bind, if_neg begun]
    rfl
  have checked : checkArgument setting rule.name rule.parameter (.object h) s = .value () s := by
    unfold checkArgument
    rw [untyped]
    rfl
  have entered : enterRule setting rule.name s = .value () s.enter := by
    unfold enterRule
    rw [state_bind, if_neg shallow]
    rfl
  unfold invokeLazy
  rw [bind_of_value allowed]
  dsimp only
  rw [bind_of_value checked, bind_of_value entered]
  subst known
  refine bind_eq_value.2 ⟨(answer rule outputs, w.cache.isComplete rule.name (.object h)), _,
    nest_eq_telling.2 ⟨w.leave, ?_, rfl⟩, ?_⟩
  · exact bind_eq_value.2 ⟨outputs, w.leave, ensuring_eq_value.2 ⟨w, requested, rfl⟩, rfl⟩
  · change (if !w.cache.isComplete rule.name (.object h) then _ else _ : Run Engine Value) _ = _
    cases w.cache.isComplete rule.name (.object h) with
    | true => rfl
    | false => rfl

theorem assign_value {h : Handle} {feature : String} {v w : Value} {provider : Provider}
    {store : Store} (owned : s.ownerOf? (.object h) = some provider)
    (resolved : (if setting.settings.implicitResolution then implicitTarget s.trace v else .ok v) =
      .ok w)
    (accepted : provider.assign s.store h feature (asFeatureValue w) = .ok store) :
    assign setting (.object h) feature v s = .value (asFeatureValue w) { s with store } := by
  unfold assign
  rw [state_bind, owned]
  refine bind_eq_value.2 ⟨w, s, ofResult_eq_value.2 ⟨resolved, rfl⟩, ?_⟩
  exact bind_eq_value.2 ⟨store, s, collaborate_eq_value.2 ⟨accepted, rfl⟩, rfl⟩

theorem applyBinding_value {rule : String} {binding : Binding} {deferrable : Bool}
    {replay : List CalledResult} {h : Handle} {v w : Value} {provider : Provider} {store : Store}
    (evaluated : self env binding.value (opened { replay } s) = .value v u)
    (owned : u.ownerOf? (.object h) = some provider)
    (resolved : (if setting.settings.implicitResolution then implicitTarget u.trace v else .ok v) =
      .ok w)
    (accepted : provider.assign u.store h binding.feature (asFeatureValue w) = .ok store) :
    let work : Assignment := ⟨.object h, binding.feature, binding.value, env.snapshot⟩
    applyBinding self setting rule (.object h) binding env deferrable replay s =
      .value () (waiting ((u.frames.head?.getD { replay }).sawIncomplete && deferrable)
        (work.deferral rule (u.frames.head?.getD { replay }).calls.reverse)
        (telling s (.assignment (if deferrable then .first else .again) work
          (some (asFeatureValue w)) u.history) (settled store u.popFrame))) := by
  have assigned : assign setting (.object h) binding.feature v
      { u.popFrame with bindingsEvaluated := u.bindingsEvaluated + 1 } =
        .value (asFeatureValue w) (settled store u.popFrame) :=
    assign_value (s := { u.popFrame with bindingsEvaluated := u.bindingsEvaluated + 1 })
      owned resolved accepted
  refine bind_eq_value.2 ⟨u.frames.head?.getD { replay }, _,
    working_eq_value.2 ⟨asFeatureValue w, settled store u.popFrame, ?_, rfl⟩, ?_⟩
  · refine bind_eq_value.2 ⟨(v, _), u.popFrame, inFrame_eq_value.2 ⟨u, evaluated, rfl, rfl⟩, ?_⟩
    refine bind_eq_value.2 ⟨(), _, rfl, ?_⟩
    exact bind_eq_value.2 ⟨_, _, assigned, rfl⟩
  · unfold waiting
    cases (u.frames.head?.getD { replay }).sawIncomplete && deferrable with
    | true => rfl
    | false => rfl

end Engine

end Metamorph
