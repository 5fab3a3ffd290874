import Metamorph.Proofs.BodyRelation
import Metamorph.Proofs.Mirror

/-! Evaluation reflected. Whatever the evaluator does, evaluations of the program with other places do the
same, if their parts do. -/
namespace Metamorph.Engine
open Run
variable {ι : Type} {m : Mirror ι} {setting : Setting} {t : Transformation} {self : Evaluator}
  {family : ι → Evaluator}

theorem note_moved (event : Event) (s : Engine) :
    note (event.moved m.place) (s.moved m.place) = (note event s).moved m.place := by
  unfold note Engine.moved
  rw [movedEvents_append]
  rfl

/-! What neither evaluates nor reads anything of the program. -/

theorem mismatch_reflects {α β : Type} {f : α → β} (expected : String) (v : Value) (context : String) :
    m.Reflects f (mismatch expected v context) fun _ => mismatch expected v context :=
  .reading fun _ => .fail _

theorem ancestry_reflects (v : Value) :
    m.Reflects id (ancestry setting v) fun _ => ancestry (setting.moved m.place) v := by
  refine .reading fun s => ?_
  cases v.builtinAncestry? with
  | some found => exact .pure _
  | none =>
    unfold Setting.moved
    cases setting.navigator with
    | full => exact .pure _
    | bare =>
      cases v with
      | object h =>
        have same : (s.moved m.place).store.entities[h]? = s.store.entities[h]? := rfl
        dsimp only
        rw [same]
        cases s.store.entities[h]? with
        | none => exact .pure _
        | some entity => cases entity <;> exact .pure _
      | _ => exact .pure _

theorem hasFeature_reflects (v : Value) (feature : String) :
    m.Reflects id (hasFeature setting v feature) fun _ => hasFeature (setting.moved m.place) v feature := by
  unfold hasFeature Setting.moved
  cases setting.navigator with
  | bare => exact .pure _
  | full => exact .reading fun s => .collaborate _ _

theorem navigate_reflects (v : Value) (feature : String) :
    m.Reflects id (navigate v feature) fun _ => navigate v feature :=
  .andThen (.modify fun _ => rfl) fun _ => .reading fun _ => .collaborate _ _

theorem callNative_reflects (name : String) (args : List Value) :
    m.Reflects id (callNative setting name args) fun _ => callNative (setting.moved m.place) name args :=
  .andThen (.modify fun _ => rfl) fun _ => .reading fun _ => .collaborate _ _

theorem contextHelper?_reflects (v : Value) (name : String) (isAttribute : Option Bool) :
    m.Reflects (Option.map (·.moved m.place)) (contextHelper? setting v name isAttribute)
      fun _ => contextHelper? (setting.moved m.place) v name isAttribute := by
  unfold contextHelper?
  have known : (setting.moved m.place).helpers.has name = setting.helpers.has name :=
    setting.helpers.has_moved name
  rw [known]
  refine .ite (.andThen (ancestry_reflects v) fun found => ?_) (.pure _)
  have chosen : (setting.moved m.place).helpers.lookup name found isAttribute = _ :=
    setting.helpers.lookup_moved name found isAttribute
  rw [chosen]
  exact .pure _

theorem makeTarget_reflects (out : OutPattern) :
    m.Reflects id (makeTarget t out) fun _ => makeTarget (t.moved m.place) (out.moved m.place) := by
  refine .andThen (.ofResult _) fun provider => .reading fun s => ?_
  exact .andThen (.collaborate _ _) fun made => .andThen (.modify fun _ => rfl) fun _ => .pure _

theorem makeTargets_reflects (patterns : List OutPattern) :
    m.Reflects id (makeTargets t patterns)
      fun _ => makeTargets (t.moved m.place) (patterns.map (·.moved m.place)) := by
  induction patterns with
  | nil => exact .pure _
  | cons out rest ih =>
    exact .andThen (makeTarget_reflects out) fun target => .andThen ih fun outputs => .pure _

theorem assign_reflects (target : Value) (feature : String) (v : Value) :
    m.Reflects id (assign setting target feature v)
      fun _ => assign (setting.moved m.place) target feature v := by
  refine .reading fun s => ?_
  have owner : (s.moved m.place).ownerOf? target = s.ownerOf? target := rfl
  dsimp only
  rw [owner]
  split
  · refine .andThen (.ofResult _) fun v => .andThen (.collaborate _ _) fun store => ?_
    exact .andThen (.modify fun _ => rfl) fun _ => .pure _
  · refine .andThen (.modify fun s => ?_) fun _ => .andThen (.ofResult _) fun _ => .fail _
    exact note_moved (.unowned _ _) s

theorem checkArgument_reflects (rule : String) (parameter : Parameter) (v : Value) :
    m.Reflects id (checkArgument setting rule parameter v)
      fun _ => checkArgument (setting.moved m.place) rule parameter v := by
  unfold checkArgument
  split
  · exact .pure _
  · exact .pure _
  · refine .andThen (ancestry_reflects _) fun found => .ite (.pure _) (mismatch_reflects _ _ _)

theorem checkArguments_reflects (rule : String) (parameters : List Parameter) (args : List Value) :
    m.Reflects id (checkArguments setting rule parameters args)
      fun _ => checkArguments (setting.moved m.place) rule parameters args := by
  induction parameters generalizing args with
  | nil => exact .pure _
  | cons parameter rest ih =>
    cases args with
    | nil => exact .pure _
    | cons v args => exact .andThen (checkArgument_reflects rule parameter v) fun _ => ih args

theorem refuseWhileMatching_reflects (rule : String) :
    m.Reflects id (refuseWhileMatching rule) fun _ => refuseWhileMatching rule :=
  .reading fun _ => .ite (.fail _) (.pure _)

theorem enterRule_reflects (rule : String) :
    m.Reflects id (enterRule setting rule) fun _ => enterRule (setting.moved m.place) rule :=
  .reading fun _ => .ite (.fail _) (.modify fun _ => rfl)

theorem registerLink_reflects (rule : String) (source : Value) (outputs : Outputs) (kind : LinkKind) :
    m.Reflects id (registerLink rule source outputs kind)
      fun _ => registerLink rule source outputs kind :=
  .reading fun _ => .andThen (.ofResult _) fun _ => .modify fun _ => rfl

theorem createLazy_reflects (rule : LazyRule) (source : Value) :
    m.Reflects id (createLazy t rule source)
      fun _ => createLazy (t.moved m.place) (rule.moved m.place) source := by
  refine .andThen (.modify fun _ => rfl) fun _ => ?_
  refine .andThen (makeTargets_reflects rule.outputs) fun outputs => ?_
  exact .andThen (registerLink_reflects _ _ _ _) fun _ => .andThen (.modify fun _ => rfl) fun _ => .pure _

theorem recorded?_reflects (rule : String) (args : List Value) :
    m.Reflects id (recorded? rule args) fun _ => recorded? rule args := by
  refine .reading fun s => ?_
  have frames : (s.moved m.place).frames = s.frames := rfl
  rw [frames]
  split
  · exact .pure _
  · exact .andThen (.modify fun _ => rfl) fun _ => .pure _

theorem filterM_reflects {α : Type} {p : α → Run Engine Bool} {further : ι → α → Run Engine Bool}
    (each : ∀ a, m.Reflects id (p a) fun i => further i a) (items : List α) :
    m.Reflects id (items.filterM p) fun i => items.filterM (further i) := by
  have loop (items found : List α) :
      m.Reflects id (List.filterAuxM p items found) fun i => List.filterAuxM (further i) items found := by
    induction items generalizing found with
    | nil => exact .pure _
    | cons a rest ih => exact .andThen (each a) fun _ => ih _
  exact .andThen (loop items []) fun _ => .pure _

theorem instancesIn_reflects (cls : String) (models : List (String × Provider)) :
    m.Reflects id (instancesIn setting cls models)
      fun _ => instancesIn (setting.moved m.place) cls models := by
  induction models with
  | nil => exact .pure _
  | cons model rest ih =>
    refine .reading fun s => .andThen (.collaborate _ _) fun objects => ?_
    refine .andThen (filterM_reflects (fun h => ?_) objects) fun found => .andThen ih fun _ => .pure _
    exact .andThen (ancestry_reflects _) fun _ => .pure _

theorem displayed_reflects (v : Value) : m.Reflects id (displayed v) fun _ => displayed v :=
  .reading fun _ => .ofResult _

theorem resolveTemp_reflects (source output : Value) (rule : Option Value) :
    m.Reflects id (ruleCall?.resolveTemp source output rule)
      fun _ => ruleCall?.resolveTemp source output rule := by
  have text (v : Value) : m.Reflects id (ruleCall?.text v) fun _ => ruleCall?.text v := by
    unfold ruleCall?.text
    split
    · exact .pure _
    · exact mismatch_reflects _ _ _
  have named : m.Reflects id (rule.mapM ruleCall?.text) fun _ => rule.mapM ruleCall?.text := by
    cases rule with
    | none => exact .pure _
    | some rule => exact .andThen (text rule) fun _ => .pure _
  refine .andThen named fun _ => .andThen (text output) fun _ => .reading fun _ => .ofResult _

theorem distanceTo_reflects (op : Universal) (v target : Value) :
    m.Reflects id (distanceTo setting op v target)
      fun _ => distanceTo (setting.moved m.place) op v target := by
  refine .andThen (ancestry_reflects v) fun found => ?_
  split
  · exact .pure _
  · exact mismatch_reflects _ _ _

theorem logDebug_reflects (label : String) (v : Value) :
    m.Reflects id (logDebug label v) fun _ => logDebug label v :=
  .andThen (displayed_reflects v) fun _ => .andThen (.modify fun _ => rfl) fun _ => .pure _

theorem universal_reflects (op : Universal) (v : Value) (args : List Value) :
    m.Reflects id (universal setting op v args)
      fun _ => universal (setting.moved m.place) op v args := by
  unfold universal
  split
  · exact logDebug_reflects _ _
  · exact .andThen (displayed_reflects _) fun _ => logDebug_reflects _ _
  · exact .pure _
  · exact .andThen (displayed_reflects _) fun _ => .pure _
  · exact .andThen (ancestry_reflects _) fun _ => .pure _
  · exact .andThen (distanceTo_reflects _ _ _) fun _ => .pure _
  · exact .andThen (distanceTo_reflects _ _ _) fun _ => .pure _
  all_goals exact .fail _

theorem applied_reflects (operation : (Value → String) → Result Value) :
    m.Reflects id (applied operation) fun _ => applied operation :=
  .reading fun _ => .ofResult _

theorem requireTruth_reflects (op : String) (v : Value) :
    m.Reflects id (requireTruth op v) fun _ => requireTruth op v :=
  .reading fun _ => .ofResult _

/-- If there is an operation in the one setting there is one in the other, which does the same. -/
def Offers (m : Mirror ι) (offered image : Option (Run Engine Value)) : Prop :=
  Option.Rel (fun run run' => m.Reflects id run fun _ => run') offered image

theorem allInstances_reflects (type : String) :
    m.Reflects id (allInstances setting t type)
      fun _ => allInstances (setting.moved m.place) (t.moved m.place) type :=
  .andThen (instancesIn_reflects _ _) fun _ => .pure _

theorem allInstancesFrom_reflects (type model : String) :
    m.Reflects id (allInstancesFrom setting t type model)
      fun _ => allInstancesFrom (setting.moved m.place) (t.moved m.place) type model := by
  unfold allInstancesFrom
  have given : (t.moved m.place).sources = t.sources := rfl
  rw [given]
  split
  · exact .fail _
  · exact .andThen (instancesIn_reflects _ _) fun _ => .pure _

theorem onType_offers (type name : String) (args : List Value) :
    Offers m (onType setting type name args) (onType (setting.moved m.place) type name args) := by
  unfold onType
  have running : (setting.moved m.place).transformation = setting.transformation.map (·.moved m.place) := rfl
  rw [running]
  refine if known : (name = "allInstances" || name = "allInstancesFrom") = true then ?_ else ?_
  · rw [if_pos known, if_pos known]
    refine .some ?_
    cases setting.transformation with
    | none => exact .fail _
    | some t =>
      refine .ite (.ite (allInstances_reflects _) (.fail _)) ?_
      split
      · exact allInstancesFrom_reflects _ _
      · exact mismatch_reflects _ _ _
      · exact .fail _
  · rw [if_neg known, if_neg known]
    exact .none

theorem Offers.map {α : Type} (found : Option α) {run run' : α → Run Engine Value}
    (each : ∀ a, m.Reflects id (run a) fun _ => run' a) : Offers m (found.map run) (found.map run') := by
  cases found with
  | none => exact .none
  | some a => exact .some (each a)

theorem ownOperation?_offers (v : Value) (name : String) (args : List Value) :
    Offers m (ownOperation? setting v name args) (ownOperation? (setting.moved m.place) v name args) := by
  cases v with
  | type type => exact onType_offers type name args
  | string s => exact .map _ fun op => .reading fun _ => .ofResult _
  | integer | real =>
    refine .map _ fun op => .reading fun s => .andThen (.modify fun _ => rfl) fun _ => ?_
    exact .reading fun _ => .ofResult _
  | _ => exact .none

theorem lookup_reflects (env : Environment) (name : String) (loc : Location) :
    m.Reflects id (Run.ofResult (env.lookup name (.ofLocation loc)))
      fun _ => Run.ofResult (env.lookup name (.ofLocation (m.place loc))) := by
  intro s
  unfold Environment.lookup
  cases env.get? name with
  | some v => exact fun _ => rfl
  | none => exact ⟨_, m.unbound _ loc, fun _ => rfl⟩

/-- The runs of a family reflect one run. -/
def mirrored (m : Mirror ι) : Collection.BodyRelation Unit ι (Run Engine) (Run Engine) where
  Relates run images := m.Reflects id (run ()) images
  pure _ := .pure _
  fail _ := .fail _
  bind first rest := first.andThen rest

theorem iterate_reflects {f : Value → Run Engine Value} {g : ι → Value → Run Engine Value}
    (each : ∀ v, m.Reflects id (f v) fun i => g i v) (typeOf : Value → String) (op : Iterator)
    (kind : CollectionKind) (items : List Value) :
    m.Reflects id (Collection.iterate typeOf op kind items f)
      fun i => Collection.iterate typeOf op kind items (g i) :=
  (mirrored m).iterate (fun _ => f) g (fun v _ => each v) typeOf op kind

/-! Frames, and what a history tells. -/

theorem inFrame_reflects {α : Type} (frame : BindingFrame) {body : Run Engine α}
    {images : ι → Run Engine α} (reflects : m.Reflects id body images) :
    m.Reflects id (inFrame frame body) fun i => inFrame frame (images i) := by
  refine .andThen (.modify fun _ => rfl) fun _ => .ensuring (.andThen reflects fun a => ?_) fun _ => rfl
  exact .reading fun s => .pure _

theorem working_reflects {α : Type} (occasion : Occasion) (work : Assignment)
    {body : Run Engine (α × Value)} {images : ι → Run Engine (α × Value)}
    (reflects : m.Reflects id body images) :
    m.Reflects id (working occasion work body) fun i => working occasion (work.moved m.place) (images i) :=
  .andThen (.nest reflects fun a events => by rw [Option.map_id]; rfl) fun _ => .pure _

theorem request_reflects {create create' : Run Engine Outputs} {fill : Outputs → Run Engine Unit}
    {further : ι → Outputs → Run Engine Unit} (creates : m.Reflects id create fun _ => create')
    (fills : ∀ outputs, m.Reflects id (fill outputs) fun i => further i outputs) (rule : String)
    (source : Value) :
    m.Reflects id (LazyCache.request cachePlace create fill rule source)
      fun i => LazyCache.request cachePlace create' (further i) rule source := by
  refine .reading fun s => ?_
  have cache : cachePlace.get (s.moved m.place) = cachePlace.get s := rfl
  rw [cache]
  split
  · exact .andThen (.modify fun _ => rfl) fun _ => .pure _
  · refine .andThen (.modify fun _ => rfl) fun _ => .andThen creates fun outputs => ?_
    refine .andThen (.modify fun _ => rfl) fun _ => .andThen (fills outputs) fun _ => ?_
    exact .andThen (.modify fun _ => rfl) fun _ => .pure _

/-- The evaluations of the family do what the evaluator does, whatever they evaluate. -/
def Reflected (m : Mirror ι) (self : Evaluator) (family : ι → Evaluator) : Prop :=
  ∀ env e, m.Reflects id (self env e) fun i => family i env (e.moved m.place)

namespace Reflected
variable (reflected : Reflected m self family)
include reflected

/-! Rules. -/

theorem applyBinding (rule : String) (target : Value) (binding : Binding) (env : Environment)
    (deferrable : Bool) (replay : List CalledResult) :
    m.Reflects id (applyBinding self setting rule target binding env deferrable replay)
      fun i => applyBinding (family i) (setting.moved m.place) rule target (binding.moved m.place) env
        deferrable replay := by
  refine .andThen (working_reflects _ _ ?_) fun frame => .ite (.modify fun s => ?_) (.pure _)
  · refine .andThen (inFrame_reflects _ (reflected env binding.value)) fun ended => ?_
    refine .andThen (.modify fun _ => rfl) fun _ => ?_
    exact .andThen (assign_reflects _ _ _) fun _ => .pure _
  · simp only [Engine.moved, List.map_append]
    rfl

theorem applyBindings (rule : String) (target : Value) (env : Environment) (bindings : List Binding) :
    m.Reflects id (applyBindings self setting rule target env bindings)
      fun i => applyBindings (family i) (setting.moved m.place) rule target env
        (bindings.map (·.moved m.place)) := by
  induction bindings with
  | nil => exact .pure _
  | cons binding rest ih => exact .andThen (reflected.applyBinding _ _ _ _ _ _) fun _ => ih

theorem fillOutputs (rule : String) (outputs : Outputs) (env : Environment) (patterns : List OutPattern) :
    m.Reflects id (fillOutputs self setting rule outputs env patterns)
      fun i => fillOutputs (family i) (setting.moved m.place) rule outputs env
        (patterns.map (·.moved m.place)) := by
  induction patterns with
  | nil => exact .pure _
  | cons out rest ih => exact .andThen (reflected.applyBindings _ _ _ _) fun _ => ih

theorem fillApplication (rule : String) (patterns : List OutPattern) (outputs : Outputs)
    (scope : Named Value) :
    m.Reflects id (fillApplication self setting rule patterns outputs scope)
      fun i => fillApplication (family i) (setting.moved m.place) rule (patterns.map (·.moved m.place))
        outputs scope := by
  unfold Engine.fillApplication
  simp only [Setting.rootEnvironment_moved]
  exact .andThen (.modify fun _ => rfl) fun _ => reflected.fillOutputs _ _ _ _

theorem fillLazy (rule : LazyRule) (source : Value) (outputs : Outputs) :
    m.Reflects id (fillLazy self setting rule source outputs)
      fun i => fillLazy (family i) (setting.moved m.place) (rule.moved m.place) source outputs := by
  unfold Engine.fillLazy applying
  exact .nest (reflected.fillApplication _ _ _ _) fun _ _ => rfl

theorem executeStatement (env : Environment) (statement : Statement) :
    m.Reflects id (executeStatement self setting env statement)
      fun i => executeStatement (family i) (setting.moved m.place) env (statement.moved m.place) := by
  cases statement with
  | evaluate e => exact reflected env e
  | assign target feature e =>
    refine working_reflects _ _ (.andThen (reflected env e) fun v => .andThen (.ofResult _) fun object => ?_)
    refine .reading fun s => .guarded ?_
    exact .andThen (.modify fun _ => rfl) fun _ => .andThen (assign_reflects _ _ _) fun _ => .pure _

theorem executeBody (env : Environment) (last : Value) (body : List Statement) :
    m.Reflects id (executeBody self setting env last body)
      fun i => executeBody (family i) (setting.moved m.place) env last (body.map (·.moved m.place)) := by
  induction body generalizing last with
  | nil => exact .pure _
  | cons statement rest ih => exact .andThen (reflected.executeStatement env statement) fun v => ih v

theorem executeCalled (rule : CalledRule) (args : List Value) :
    m.Reflects id (executeCalled self setting t rule args)
      fun i => executeCalled (family i) (setting.moved m.place) (t.moved m.place) (rule.moved m.place)
        args := by
  unfold Engine.executeCalled
  simp only [Setting.rootEnvironment_moved]
  refine .andThen (.modify fun _ => rfl) fun _ => ?_
  refine .andThen (makeTargets_reflects rule.outputs) fun outputs => ?_
  refine .andThen (.nest ?_ fun _ _ => rfl) fun last => ?_
  · exact .andThen (reflected.fillApplication _ _ _ _) fun _ => reflected.executeBody _ _ _
  · have outs : (rule.moved m.place).outputs = rule.outputs.map (·.moved m.place) := rfl
    rw [outs]
    cases rule.outputs <;> exact .pure _

theorem invokeLazy (rule : LazyRule) (argument : Value) :
    m.Reflects id (invokeLazy self setting t rule argument)
      fun i => invokeLazy (family i) (setting.moved m.place) (t.moved m.place) (rule.moved m.place)
        argument := by
  refine .andThen (refuseWhileMatching_reflects _) fun _ => ?_
  split
  · exact .pure _
  · refine .andThen (checkArgument_reflects _ _ _) fun _ => .andThen (enterRule_reflects _) fun _ => ?_
    have answers (outputs : Outputs) : answer (rule.moved m.place) outputs = answer rule outputs := by
      unfold answer
      rw [LazyRule.mainOutput_moved]
      rfl
    simp only [answers]
    refine .andThen (.nest (.andThen (.ensuring ?_ fun _ => rfl) fun _ => .reading fun _ => .pure _) ?_) ?_
    · exact request_reflects (createLazy_reflects _ _) (fun outputs => reflected.fillLazy rule _ outputs) _ _
    · intro ended events
      rw [Option.map_id]
      rfl
    · rintro ⟨result, complete⟩
      dsimp only
      exact .ite (.andThen (.modify fun _ => rfl) fun _ => .pure _) (.pure _)

theorem invokeCalled (rule : CalledRule) (args : List Value) :
    m.Reflects id (invokeCalled self setting t rule args)
      fun i => invokeCalled (family i) (setting.moved m.place) (t.moved m.place) (rule.moved m.place)
        args := by
  refine .andThen (refuseWhileMatching_reflects _) fun _ => ?_
  refine .guarded (.andThen (checkArguments_reflects _ _ _) fun _ => ?_)
  refine .andThen (recorded?_reflects _ _) fun recorded => ?_
  cases recorded with
  | some result => exact .andThen (.modify fun s => note_moved (.replayed _ _ _) s) fun _ => .pure _
  | none =>
    refine .andThen (enterRule_reflects _) fun _ => .andThen (.nest ?_ ?_) ?_
    · exact .ensuring (inFrame_reflects _ (reflected.executeCalled rule args)) fun _ => rfl
    · intro ended events
      rw [Option.map_id]
      rfl
    · rintro ⟨result, frame⟩
      exact .andThen (.modify fun _ => rfl) fun _ => .andThen (.modify fun _ => rfl) fun _ => .pure _

/-! Helpers and calls. -/

theorem invokeHelper (helper : Helper) (receiver : Value) (args : List Value) :
    m.Reflects id (invokeHelper self setting helper receiver args)
      fun i => invokeHelper (family i) (setting.moved m.place) (helper.moved m.place) receiver args := by
  refine .ite (.fail _) (.andThen (.modify fun _ => rfl) fun _ => ?_)
  rw [Setting.rootEnvironment_moved]
  exact reflected _ helper.body

theorem moduleAttribute (name : String) :
    m.Reflects id (moduleAttribute self setting name)
      fun i => moduleAttribute (family i) (setting.moved m.place) name := by
  refine .reading fun s => ?_
  have known : (s.moved m.place).attributes = s.attributes := rfl
  rw [known]
  cases s.attributes.get? name with
  | some v => exact .andThen (.modify fun _ => rfl) fun _ => .pure _
  | none =>
    have found : (setting.moved m.place).helpers.module.get? name = _ :=
      setting.helpers.module_moved name
    rw [found]
    cases setting.helpers.module.get? name with
    | none => exact .fail _
    | some helper =>
      have same : (helper.moved m.place).isAttribute = helper.isAttribute := rfl
      rw [Option.map_some, Option.filter_some, Option.filter_some, same]
      cases helper.isAttribute with
      | false => exact .fail _
      | true =>
        simp only [Setting.handle_moved]
        exact .andThen (reflected.invokeHelper _ _ _) fun v => .andThen (.modify fun _ => rfl) fun _ => .pure _

theorem callModule (name : String) (args : List Value) :
    m.Reflects id (callModule self setting name args)
      fun i => callModule (family i) (setting.moved m.place) name args := by
  unfold Engine.callModule
  have found : (setting.moved m.place).helpers.module.get? name = _ := setting.helpers.module_moved name
  rw [found]
  cases setting.helpers.module.get? name with
  | some helper =>
    simp only [Option.map_some, Setting.handle_moved]
    exact .ite (reflected.moduleAttribute name) (reflected.invokeHelper _ _ _)
  | none =>
    have running : (setting.moved m.place).transformation =
        setting.transformation.map (·.moved m.place) := rfl
    rw [running]
    cases setting.transformation with
    | none => exact callNative_reflects _ _
    | some t =>
      have lazy : (t.moved m.place).module.lazyRule? name = _ := t.module.lazyRule?_moved name
      have called : (t.moved m.place).module.calledRule? name = _ := t.module.calledRule?_moved name
      simp only [Option.map_some, Option.bind_some, ruleCall?, lazy, called]
      cases t.module.lazyRule? name with
      | some rule =>
        simp only [Option.map_some]
        split
        · exact reflected.invokeLazy _ _
        · exact .fail _
      | none =>
        cases t.module.calledRule? name with
        | some rule => exact reflected.invokeCalled _ _
        | none =>
          simp only [Option.map_none]
          by_cases resolves : name = "resolveTemp"
          · simp only [if_pos resolves]
            split
            · exact resolveTemp_reflects _ _ _
            · exact resolveTemp_reflects _ _ _
            · exact .fail _
          · simp only [if_neg resolves]
            exact callNative_reflects _ _

theorem callOn (v : Value) (name : String) (args : List Value) :
    m.Reflects id (callOn self setting v name args)
      fun i => callOn (family i) (setting.moved m.place) v name args := by
  refine .bind (contextHelper?_reflects v name none) fun found => ?_
  cases found with
  | some helper => exact reflected.invokeHelper _ _ _
  | none =>
    dsimp only [Option.map_none]
    cases Universal.named? name with
    | some op => exact universal_reflects _ _ _
    | none =>
      dsimp only
      have own : Offers m (ownOperation? setting v name args)
          (ownOperation? (setting.moved m.place) v name args) := ownOperation?_offers v name args
      unfold Offers at own
      generalize ownOperation? setting v name args = offered at own ⊢
      generalize ownOperation? (setting.moved m.place) v name args = image at own ⊢
      cases own with
      | some reflects => exact reflects
      | none => exact .ite (callNative_reflects _ _) (.reading fun _ => .fail _)

/-! Expressions. -/

theorem navigation (v : Value) (feature : String) :
    m.Reflects id (navigation self setting v feature)
      fun i => navigation (family i) (setting.moved m.place) v feature := by
  unfold Engine.navigation
  split
  · exact .pure _
  · exact reflected.moduleAttribute _
  · split
    · exact .pure _
    · exact .fail _
  · refine .bind (contextHelper?_reflects _ _ _) fun found => ?_
    cases found with
    | none => exact .ite (navigate_reflects _ _) (mismatch_reflects _ _ _)
    | some helper =>
      refine .andThen (hasFeature_reflects _ _) fun known => ?_
      exact .ite (navigate_reflects _ _) (reflected.invokeHelper _ _ _)

theorem evaluateAll (env : Environment) (es : List Expr) :
    m.Reflects id (evaluateAll self env es) fun i => evaluateAll (family i) env (movedAll m.place es) := by
  induction es with
  | nil => exact .pure _
  | cons e rest ih => exact .andThen (reflected env e) fun _ => .andThen ih fun _ => .pure _

theorem evaluateFields (env : Environment) (fields : List (TupleField Expr)) :
    m.Reflects id (evaluateFields self env fields)
      fun i => evaluateFields (family i) env (movedFields m.place fields) := by
  induction fields with
  | nil => exact .pure _
  | cons part rest ih => exact .andThen (reflected env part.value) fun _ => .andThen ih fun _ => .pure _

theorem binary (env : Environment) (op : BinaryOperator) (lhs rhs : Expr) :
    m.Reflects id (binary self env op lhs rhs)
      fun i => binary (family i) env op (lhs.moved m.place) (rhs.moved m.place) := by
  refine .ite ?_ ?_
  · refine .andThen (reflected env lhs) fun l => .andThen (requireTruth_reflects _ _) fun a => ?_
    split
    · exact .pure _
    · exact .andThen (reflected env rhs) fun r => .andThen (requireTruth_reflects _ _) fun _ => .pure _
  · exact .andThen (reflected env lhs) fun l => .andThen (reflected env rhs) fun r => applied_reflects _

theorem iterate (env : Environment) (parameter accumulator : String) (body : Expr) (acc : Value)
    (items : List Value) :
    m.Reflects id (iterate self env parameter accumulator body acc items)
      fun i => iterate (family i) env parameter accumulator (body.moved m.place) acc items := by
  induction items generalizing acc with
  | nil => exact .pure _
  | cons v rest ih => exact .andThen (reflected _ body) fun acc => ih acc

theorem collectionOperation (env : Environment) (op : CollectionOperation) (kind : CollectionKind)
    (items : List Value) (parameter : Option String) (body : Option Expr) :
    m.Reflects id (collectionOperation self setting env op kind items parameter body)
      fun i => collectionOperation (family i) (setting.moved m.place) env op kind items parameter
        (movedBody m.place body) := by
  cases op with
  | iterator op =>
    cases body with
    | none => exact .fail _
    | some body => exact .reading fun s => iterate_reflects (fun v => reflected _ body) _ _ _ _
  | combination op =>
    cases body with
    | none => exact .fail _
    | some body => exact .andThen (reflected env body) fun _ => applied_reflects _
  | query op =>
    unfold Engine.collectionOperation
    cases body <;> exact .reading fun _ => .ofResult _

theorem collectionMethod (env : Environment) (op : CollectionOperation) (kind : CollectionKind)
    (items : List Value) (args : List Expr) :
    m.Reflects id (collectionMethod self setting env op kind items args)
      fun i => collectionMethod (family i) (setting.moved m.place) env op kind items
        (movedAll m.place args) := by
  have operate (parameter : Option String) (body : Option Expr) :
      m.Reflects id (Engine.collectionOperation self setting env op kind items parameter body)
        fun i => Engine.collectionOperation (family i) (setting.moved m.place) env op kind items parameter
          (movedBody m.place body) := reflected.collectionOperation env op kind items parameter body
  cases op with
  | iterator op =>
    cases args with
    | nil => exact .fail _
    | cons e rest =>
      cases rest with
      | cons e' rest => cases e <;> exact .fail _
      | nil =>
        cases e with
        | lambda parameter body loc => exact operate (some parameter) (some body)
        | _ => exact .fail _
  | combination op =>
    cases args with
    | nil => exact .fail _
    | cons argument rest =>
      cases rest with
      | nil => exact operate none (some argument)
      | cons e rest =>
        simp only [Engine.collectionMethod, movedAll, List.length_cons, length_movedAll]
        exact .fail _
  | query op =>
    cases args with
    | nil => exact operate none none
    | cons e rest =>
      simp only [Engine.collectionMethod, movedAll, List.length_cons, length_movedAll]
      exact .fail _

theorem method (env : Environment) (v : Value) (name : String) (args : List Expr) :
    m.Reflects id (method self setting env v name args)
      fun i => method (family i) (setting.moved m.place) env v name (movedAll m.place args) := by
  unfold Engine.method
  split
  · exact .andThen (reflected.evaluateAll _ _) fun _ => reflected.callModule _ _
  · exact reflected.collectionMethod _ _ _ _ _
  · exact .andThen (reflected.evaluateAll _ _) fun _ => reflected.callOn _ _ _

theorem step (setting : Setting) (env : Environment) (e : Expr) :
    m.Reflects id (step setting self env e)
      fun i => step (setting.moved m.place) (family i) env (e.moved m.place) := by
  cases e with
  | literal | typeName | lambda => exact .pure _
  | «foreign» => exact .fail _
  | «variable» name loc =>
    exact lookup_reflects env name loc
  | navigation source feature loc => exact .andThen (reflected env source) fun v => reflected.navigation v _
  | binary op lhs rhs loc => exact reflected.binary env op lhs rhs
  | unary op operand loc => exact .andThen (reflected env operand) fun v => applied_reflects _
  | conditional condition thenBranch elseBranch loc =>
    exact .andThen (reflected env condition) fun v => .ite (reflected env thenBranch) (reflected env elseBranch)
  | letIn name init body tag loc => exact .andThen (reflected env init) fun v => reflected _ body
  | iterate source parameter accumulator init body tag loc =>
    refine .andThen (reflected env source) fun v => ?_
    split
    · exact .andThen (reflected env init) fun acc => reflected.iterate _ _ _ _ _ _
    · exact mismatch_reflects _ _ _
  | collection kind elements loc => exact .andThen (reflected.evaluateAll env elements) fun _ => .pure _
  | arrow source op parameter body loc =>
    exact .andThen (reflected env source) fun v => reflected.collectionOperation _ _ _ _ _ _
  | method receiver name args loc => exact .andThen (reflected env receiver) fun v => reflected.method _ _ _ _
  | call name args loc => exact .andThen (reflected.evaluateAll env args) fun _ => reflected.callModule _ _
  | tuple fields loc => exact .andThen (reflected.evaluateFields env fields) fun _ => .pure _

end Reflected

end Metamorph.Engine
