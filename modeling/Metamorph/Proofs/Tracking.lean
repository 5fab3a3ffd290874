import Metamorph.Proofs.Trail

/-! Rules at work leave a trail, however they end: an application of a rule writes to its own outputs,
which were made for it, and the request for a lazy rule is told with what became of it. -/
namespace Metamorph.Engine
open Run

/-- Runs that leave a trail, however they end. -/
def tracked (setting : Setting) (t : Transformation) : Conduct Engine :=
  .both (fun s u => ∃ done, Trail setting t done s u) (fun s => ⟨[], .refl s⟩)
    (fun ⟨_, first⟩ ⟨_, rest⟩ => ⟨_, first.trans rest⟩)

section
variable {setting : Setting} {t : Transformation} {self : Evaluator} {s : Engine}

theorem modify_tracked {change : Engine → Engine} (idle : ∀ s, Idle s (change s)) :
    Keeps (tracked setting t) (Run.modify change) :=
  .modify fun s => ⟨[], .idle (idle s)⟩

theorem ensuring_tracked {α : Type} {change : Engine → Engine} {run : Run Engine α}
    (idle : ∀ s, Idle s (change s)) (kept : (tracked setting t).Allows s (run s)) :
    (tracked setting t).Allows s (Run.ensuring change run s) :=
  kept.ensuring (fun u => ⟨[], .idle (idle u)⟩) fun ⟨_, trail⟩ => ⟨_, trail.trans (.idle (idle _))⟩

theorem inFrame_tracked {α : Type} {frame : BindingFrame} {body : Run Engine α}
    (kept : Keeps (tracked setting t) body) : Keeps (tracked setting t) (inFrame frame body) := by
  refine .bind (modify_tracked fun _ => by constructor <;> rfl) fun _ s => ?_
  refine ensuring_tracked (fun _ => by constructor <;> rfl) ?_
  exact Keeps.bind kept (fun _ => .bind .state fun _ => .pure _) s

/-- What is told of a run as one event, if the event is part of a trail however the run ends. -/
theorem nest_tracked {α : Type} {event : Option α → List Event → Event} {body : Run Engine α}
    (ended : ∀ {a u}, body { s with history := [] } = .value a u →
      Trail setting t [event (some a) u.history] s (telling s (event (some a) u.history) u))
    (failed : ∀ {fault u}, body { s with history := [] } = .failure fault u →
      Trail setting t [event none u.history] s (telling s (event none u.history) u)) :
    (tracked setting t).Allows s (nest event body s) := by
  unfold nest
  cases outcome : body { s with history := [] } with
  | value a u => exact ⟨_, ended outcome⟩
  | failure fault u => exact ⟨_, failed outcome⟩
  | exhausted => trivial

theorem nest_wrapped {α : Type} {event : Option α → List Event → Event} {body : Run Engine α}
    (kept : (tracked setting t).Allows { s with history := [] } (body { s with history := [] }))
    (wrap : ∀ {ended inner u}, Trail setting t inner { s with history := [] } u →
      Trail setting t [event ended inner] s (telling s (event ended inner) u)) :
    (tracked setting t).Allows s (nest event body s) := by
  refine nest_tracked (fun {a u} outcome => ?_) (fun {fault u} outcome => ?_)
  all_goals
    rw [outcome] at kept
    obtain ⟨inner, trail⟩ := kept
    obtain rfl : u.history = inner := trail.history
    exact wrap trail

theorem applying_tracked {α : Type} {rule : String} {patterns : List OutPattern}
    {body : List Statement} {outputs : Outputs} {work : Run Engine α}
    (kept : (tracked setting t).Allows { s with history := [] } (work { s with history := [] })) :
    (tracked setting t).Allows s (applying rule patterns body outputs work s) :=
  nest_wrapped kept fun trail => .application trail

theorem working_tracked {α : Type} {occasion : Occasion} {work : Assignment}
    {body : Run Engine (α × Value)} (bound : occasion ≠ .statement → s.Owns work.target)
    (kept : (tracked setting t).Allows { s with history := [] } (body { s with history := [] }))
    (assigned : ∀ {result u}, body { s with history := [] } = .value result u →
      u.Owns work.target) :
    (tracked setting t).Allows s (working occasion work body s) := by
  refine .bind (nest_tracked (fun {a u} outcome => ?_) (fun {fault u} outcome => ?_))
    fun _ => Keeps.pure _ _
  · rw [outcome] at kept
    obtain ⟨inner, trail⟩ := kept
    obtain rfl : u.history = inner := trail.history
    exact .assignment bound trail fun _ => assigned outcome
  · rw [outcome] at kept
    obtain ⟨inner, trail⟩ := kept
    obtain rfl : u.history = inner := trail.history
    exact .assignment bound trail (by simp)

theorem counted_tracked (s : Engine) : (tracked setting t).Allows s
    (Run.modify (fun s : Engine => { s with bindingsEvaluated := s.bindingsEvaluated + 1 }) s) :=
  ⟨[], .counted (Nat.le_succ s.bindingsEvaluated)⟩

theorem assign_tracked {target v : Value} {feature : String} (owns : s.Owns target)
    (evaluated : s.bindingsEvaluated ≠ 0) :
    (tracked setting t).Allows s (assign setting target feature v s) := by
  obtain ⟨h, rfl⟩ := owns.object
  obtain ⟨provider, owned⟩ := Option.isSome_iff_exists.1 owns
  refine .bind (Keeps.state s) fun {read u} current => ?_
  obtain ⟨rfl, rfl⟩ := state_eq_value.1 current
  simp only [owned]
  refine .bind (Keeps.ofResult _ s) fun {resolved u} answered => ?_
  obtain ⟨-, rfl⟩ := ofResult_eq_value.1 answered
  refine .bind (Keeps.collaborate _ _ s) fun {store u} answered => ?_
  obtain ⟨accepted, rfl⟩ := collaborate_eq_value.1 answered
  exact ⟨_, .write owns evaluated (refuse_eq_ok accepted)⟩

theorem assign_owns {target v w : Value} {feature : String} {u : Engine}
    (ended : assign setting target feature v s = .value w u) : u.Owns target := by
  obtain ⟨h, store, -, owned, -, rfl⟩ := assign_eq_value ended
  exact owned

/-- Evaluators of expressions that leave a trail. -/
def Tracked (setting : Setting) (t : Transformation) (self : Evaluator) : Prop :=
  ∀ env e, Keeps (tracked setting t) (self env e)

theorem owns_of_allows {α : Type} {run : Run Engine α} {a : α} {u : Engine} {v : Value}
    (kept : (tracked setting t).Allows s (run s)) (ended : run s = .value a u) (owns : s.Owns v) :
    u.Owns v := by
  rw [ended] at kept
  obtain ⟨_, trail⟩ := kept
  exact trail.growth.owns owns

theorem makeTargets_tracked (patterns : List OutPattern) :
    Keeps (tracked setting t) (makeTargets t patterns) := by
  intro s
  have made : (making t).Allows s _ := makeTargets_keeps patterns s
  cases ended : makeTargets t patterns s with
  | value outputs u =>
    rw [ended] at made
    exact ⟨_, .made made⟩
  | failure fault u =>
    rw [ended] at made
    exact ⟨_, .made made⟩
  | exhausted => trivial

theorem recorded?_tracked (rule : String) (args : List Value) :
    Keeps (tracked setting t) (recorded? rule args) := by
  refine .bind .state fun s => ?_
  split
  · exact .pure _
  · refine .bind (modify_tracked ?_) fun _ => .pure _
    exact fun _ => by constructor <;> rfl

theorem enterRule_tracked (rule : String) :
    Keeps (tracked setting t) (enterRule setting rule) := by
  refine .bind .state fun s => ?_
  split
  · exact .fail _
  · exact modify_tracked fun _ => by constructor <;> rfl

theorem registerLink_eq_value {rule : String} {source : Value} {outputs : Outputs} {kind : LinkKind}
    {u : Engine} (ended : registerLink rule source outputs kind s = .value () u) :
    ∃ link trace, s.trace.register s.store rule source outputs kind = .ok (link, trace) ∧
      u = { s with trace } := by
  simp only [registerLink, bind_eq_value, state_eq_value, ofResult_eq_value,
    modify_eq_value] at ended
  obtain ⟨_, _, ⟨rfl, rfl⟩, ⟨link, trace⟩, _, ⟨registered, rfl⟩, rfl⟩ := ended
  exact ⟨link, trace, registered, rfl⟩

theorem registerLink_eq_failure {rule : String} {source : Value} {outputs : Outputs}
    {kind : LinkKind} {fault : Fault} {u : Engine}
    (failed : registerLink rule source outputs kind s = .failure fault u) : u = s := by
  simp only [registerLink, bind_eq_failure, state_ne_failure, ofResult_eq_failure, modify_ne_failure,
    state_eq_value, false_or, or_false, and_false, exists_false] at failed
  obtain ⟨_, _, ⟨rfl, rfl⟩, -, rfl⟩ := failed
  rfl

theorem createLazy_eq_value {rule : LazyRule} {source : Value} {outputs : Outputs} {u : Engine}
    (ended : createLazy t rule source s = .value outputs u) :
    ∃ w link trace, Makes t s w ∧ Fresh rule.outputs outputs s.store w ∧
      w.trace.register w.store rule.name source outputs .lazy = .ok (link, trace) ∧
      u = { w with trace, lazyApplied := w.lazyApplied + 1 } := by
  obtain ⟨_, _, noted, ended⟩ := bind_eq_value.1 ended
  obtain rfl := modify_eq_value.1 noted
  obtain ⟨made, w, created, ended⟩ := bind_eq_value.1 ended
  obtain ⟨_, _, linked, ended⟩ := bind_eq_value.1 ended
  obtain ⟨link, trace, registered, rfl⟩ := registerLink_eq_value linked
  simp only [bind_eq_value, modify_eq_value, pure_eq_value] at ended
  obtain ⟨_, _, rfl, rfl, rfl⟩ := ended
  have makes := (makeTargets_keeps _).value created
  obtain ⟨fresh, -⟩ := makeTargets_fresh created
  refine ⟨w, link, trace, ?_, fresh, registered, rfl⟩
  exact .trans (.idle (noteRule_quiet _ s).idle) makes

theorem createLazy_eq_failure {rule : LazyRule} {source : Value} {fault : Fault} {u : Engine}
    (failed : createLazy t rule source s = .failure fault u) : Makes t s u := by
  have noted : Makes t s (noteRule rule.name s) := .idle (noteRule_quiet _ s).idle
  obtain failed | ⟨_, _, marked, failed⟩ := bind_eq_failure.1 failed
  · exact absurd failed modify_ne_failure
  obtain rfl := modify_eq_value.1 marked
  obtain failed | ⟨made, w, created, failed⟩ := bind_eq_failure.1 failed
  · exact noted.trans ((makeTargets_keeps _).failure failed)
  have makes := noted.trans ((makeTargets_keeps _).value created)
  obtain refused | ⟨_, _, _, failed⟩ := bind_eq_failure.1 failed
  · obtain rfl := registerLink_eq_failure refused
    exact makes
  · simp [bind_eq_failure] at failed

end

namespace Tracked
variable {setting : Setting} {t : Transformation} {self : Evaluator} {s : Engine}

theorem workOnBinding (track : Tracked setting t self) {occasion : Occasion} {target : Value}
    {binding : Binding} {scope : Named Value} {env : Environment} {frame : BindingFrame}
    (owned : s.Owns target) :
    (tracked setting t).Allows s
      (working occasion ⟨target, binding.feature, binding.value, scope⟩ (do
        let (v, frame) ← inFrame frame (self env binding.value)
        Run.modify fun s => { s with bindingsEvaluated := s.bindingsEvaluated + 1 }
        return (frame, ← assign setting target binding.feature v)) s) := by
  refine working_tracked (fun _ => owned) ?_ fun {result u} ended => ?_
  · have evaluated : Keeps (tracked setting t) (inFrame frame (self env binding.value)) :=
      inFrame_tracked (track env binding.value)
    refine .bind (evaluated _) fun {result u} ended => ?_
    have still : u.Owns target := owns_of_allows (evaluated _) ended owned
    refine .bind (counted_tracked u) fun {_ w} counted => ?_
    obtain rfl := modify_eq_value.1 counted
    exact .bind (assign_tracked still (Nat.succ_ne_zero _)) fun _ => Keeps.pure _ _
  · obtain ⟨_, _, _, ended⟩ := bind_eq_value.1 ended
    obtain ⟨_, _, _, ended⟩ := bind_eq_value.1 ended
    obtain ⟨_, _, assigned, ended⟩ := bind_eq_value.1 ended
    obtain ⟨-, rfl⟩ := pure_eq_value.1 ended
    exact assign_owns assigned

theorem applyBinding (track : Tracked setting t self) {rule : String} {target : Value}
    {binding : Binding} {env : Environment} {deferrable : Bool} {replay : List CalledResult}
    (owned : s.Owns target) :
    (tracked setting t).Allows s
      (applyBinding self setting rule target binding env deferrable replay s) := by
  refine .bind (track.workOnBinding owned) fun {frame u} worked => ?_
  split
  · exact ⟨_, .deferring (owns_of_allows (track.workOnBinding owned) worked owned)⟩
  · exact Keeps.pure _ u

theorem applyBindings (track : Tracked setting t self) {rule : String} {target : Value}
    {env : Environment} {bindings : List Binding} (owned : s.Owns target) :
    (tracked setting t).Allows s (applyBindings self setting rule target env bindings s) := by
  induction bindings generalizing s with
  | nil => exact Keeps.pure _ s
  | cons binding rest ih =>
    refine .bind (track.applyBinding owned) fun applied => ih ?_
    exact owns_of_allows (track.applyBinding owned) applied owned

theorem fillOutputs (track : Tracked setting t self) {rule : String} {outputs : Outputs}
    {env : Environment} {patterns : List OutPattern}
    (owned : ∀ out ∈ patterns, s.Owns ((outputs.get? out.name).getD .undefined)) :
    (tracked setting t).Allows s (fillOutputs self setting rule outputs env patterns s) := by
  induction patterns generalizing s with
  | nil => exact Keeps.pure _ s
  | cons out rest ih =>
    have own := owned out List.mem_cons_self
    refine .bind (track.applyBindings own) fun applied => ih fun other later => ?_
    exact owns_of_allows (track.applyBindings own) applied
      (owned other (List.mem_cons_of_mem _ later))

theorem fillApplication (track : Tracked setting t self) {rule : String} {outputs : Outputs}
    {patterns : List OutPattern} {scope : Named Value}
    (owned : ∀ out ∈ patterns, s.Owns ((outputs.get? out.name).getD .undefined)) :
    (tracked setting t).Allows s
      (fillApplication self setting rule patterns outputs scope s) := by
  refine .bind (modify_tracked (fun s => (noteRule_quiet rule s).idle) s) fun {_ u} noted => ?_
  obtain rfl := modify_eq_value.1 noted
  exact track.fillOutputs owned

/-- The outputs of a lazy rule are filled in with a history of their own. -/
theorem filling (track : Tracked setting t self) {rule : LazyRule} {source : Value}
    {outputs : Outputs}
    (owned : ∀ out ∈ rule.outputs, s.Owns ((outputs.get? out.name).getD .undefined)) :
    (tracked setting t).Allows { s with history := [] }
      (Engine.fillApplication self setting rule.name rule.outputs outputs
        [(rule.parameter.name, source)] { s with history := [] }) :=
  track.fillApplication owned

theorem fillLazy_eq_value (follows : Follows setting self) (track : Tracked setting t self)
    {rule : LazyRule} {source : Value} {outputs : Outputs} {u : Engine}
    (ended : fillLazy self setting rule source outputs s = .value () u)
    (owned : ∀ out ∈ rule.outputs, s.Owns ((outputs.get? out.name).getD .undefined)) :
    ∃ inner w, Trail setting t inner { s with history := [] } w ∧
      jobs inner = outputJobs outputs
        (setting.rootEnvironment (Named.update [(rule.parameter.name, source)] outputs)).snapshot
        rule.outputs ∧
      (∀ e ∈ evaluations inner, e.stored.isSome = true) ∧
      u = telling s (.application rule.name rule.outputs [] outputs inner) w := by
  unfold Engine.fillLazy at ended
  obtain ⟨w, filled, rfl⟩ := applying_eq_value.1 ended
  obtain ⟨inner, course, -, ordered⟩ := follows.fillApplication filled
  obtain rfl : w.history = inner := course.history
  obtain ⟨done, trail⟩ := (track.filling owned).value filled
  obtain rfl : w.history = done := trail.history
  exact ⟨_, w, trail, ordered, fun e member => (course.progress.assigned e member).1, rfl⟩

theorem fillLazy_eq_failure (track : Tracked setting t self) {rule : LazyRule} {source : Value}
    {outputs : Outputs} {fault : Fault} {u : Engine}
    (failed : fillLazy self setting rule source outputs s = .failure fault u)
    (owned : ∀ out ∈ rule.outputs, s.Owns ((outputs.get? out.name).getD .undefined)) :
    ∃ inner w, Trail setting t inner { s with history := [] } w ∧
      u = telling s (.application rule.name rule.outputs [] outputs inner) w := by
  unfold Engine.fillLazy applying at failed
  obtain ⟨w, broken, rfl⟩ := nest_eq_failure.1 failed
  obtain ⟨inner, trail⟩ := (track.filling owned).failure broken
  obtain rfl : w.history = inner := trail.history
  exact ⟨_, w, trail, rfl⟩

theorem executeStatement (track : Tracked setting t self) (env : Environment)
    (statement : Statement) :
    Keeps (tracked setting t) (executeStatement self setting env statement) := by
  cases statement with
  | evaluate e => exact track env e
  | assign target feature e =>
    intro s
    refine working_tracked (fun other => absurd rfl other) ?_ fun {result u} ended => ?_
    · refine .bind (track _ _ _) fun {v u} _ => ?_
      refine .bind (Keeps.ofResult _ u) fun {object w} found => ?_
      refine .bind (Keeps.state w) fun {read x} current => ?_
      obtain ⟨rfl, rfl⟩ := state_eq_value.1 current
      split
      · exact .bind (Keeps.fail _ w) fun failed => absurd failed fail_ne_value
      · rename_i known
        have owns : w.Owns object := by simpa [Owns, ← Option.isSome_iff_ne_none] using known
        refine .bind (counted_tracked w) fun {_ y} counted => ?_
        obtain rfl := modify_eq_value.1 counted
        exact .bind (assign_tracked owns (Nat.succ_ne_zero _)) fun _ => Keeps.pure _ _
    · obtain ⟨v, w, -, ended⟩ := bind_eq_value.1 ended
      simp only [bind_eq_value, ofResult_eq_value, state_eq_value, guarded_eq_value,
        modify_eq_value, pure_eq_value] at ended
      obtain ⟨object, _, ⟨found, rfl⟩, _, _, ⟨rfl, rfl⟩, -, _, _, rfl, _, _, assigned, -, rfl⟩ :=
        ended
      have owns := assign_owns assigned
      change Owns _ ((env.get? target).getD .undefined)
      rwa [lookup_eq_ok found]

theorem executeBody (track : Tracked setting t self) (env : Environment) (last : Value)
    (body : List Statement) : Keeps (tracked setting t) (executeBody self setting env last body) := by
  induction body generalizing last with
  | nil => exact .pure _
  | cons statement rest ih => exact .bind (track.executeStatement env statement) fun v => ih v

theorem executeCalled (track : Tracked setting t self) (rule : CalledRule) (args : List Value) :
    Keeps (tracked setting t) (executeCalled self setting t rule args) := by
  refine .bind (modify_tracked fun s => (noteRule_quiet _ s).idle) fun _ s => ?_
  refine .bind (makeTargets_tracked rule.outputs s) fun {outputs u} made => ?_
  refine .bind (applying_tracked ?_) fun _ => Keeps.pure _ _
  refine .bind (track.fillApplication fun out declared => ?_) fun _ => track.executeBody _ _ _ _
  obtain ⟨fresh, -⟩ := makeTargets_fresh made
  exact fresh.owned out declared

theorem invokeCalled (track : Tracked setting t self) (rule : CalledRule) (args : List Value) :
    Keeps (tracked setting t) (invokeCalled self setting t rule args) := by
  refine .bind (refuseWhileMatching_keeps _) fun _ => ?_
  split
  · intro s
    exact .bind (Keeps.fail _ s) fun failed => absurd failed fail_ne_value
  refine .bind (checkArguments_keeps _ _ _) fun _ => .bind (recorded?_tracked _ _) fun recorded => ?_
  cases recorded with
  | some result => exact .bind (.modify fun s => ⟨_, .replayed⟩) fun _ => .pure _
  | none =>
    refine .bind (enterRule_tracked _) fun _ => .bind (fun s => ?_) fun _ => ?_
    · refine nest_wrapped (ensuring_tracked ?_ (inFrame_tracked (track.executeCalled rule args) _))
        fun trail => .called trail
      exact fun _ => by constructor <;> rfl
    · refine .bind (modify_tracked ?_) fun _ => .bind (modify_tracked ?_) fun _ => .pure _
      all_goals exact fun _ => by constructor <;> rfl

/-- The request for a lazy rule, told as one event. -/
theorem request_value (follows : Follows setting self) (track : Tracked setting t self)
    {rule : LazyRule} (known : t.module.lazyRule? rule.name = some rule) {argument : Value}
    {outputs : Outputs} {u : Engine}
    (ended : LazyCache.request cachePlace (createLazy t rule argument)
      (fillLazy self setting rule argument) rule.name argument { s with history := [] } =
        .value outputs u) :
    let event := Event.lazy rule.name argument (u.cache.isComplete rule.name argument)
      (some (answer rule outputs)) u.history
    Trail setting t [event] s (telling s event u) := by
  obtain ⟨entry, found, rfl, rfl⟩ | ⟨missing, a, b, created, filled, rfl⟩ := request_eq_value ended
  · have whole : s.cache.hit.isComplete rule.name argument = entry.complete := by
      change (s.cache.lookup? rule.name argument).any (·.complete) = entry.complete
      rw [show s.cache.lookup? rule.name argument = some entry from found]
      rfl
    have trail : Trail setting t _ s _ := .hit known found
    rwa [← whole] at trail
  · obtain ⟨c, link, trace, makes, fresh, registered, rfl⟩ := createLazy_eq_value created
    obtain ⟨inner, d, trail, ordered, stored, rfl⟩ :=
      track.fillLazy_eq_value follows filled fresh.owned
    have clean : c.history = [] := makes.others.history
    have done : Trail setting t _ s _ :=
      .filled known missing makes fresh registered trail ordered stored
    simpa [telling, clean] using done

theorem request_failure (track : Tracked setting t self) {rule : LazyRule}
    (known : t.module.lazyRule? rule.name = some rule) {argument : Value} {fault : Fault}
    {u : Engine}
    (failed : LazyCache.request cachePlace (createLazy t rule argument)
      (fillLazy self setting rule argument) rule.name argument { s with history := [] } =
        .failure fault u) :
    let event := Event.lazy rule.name argument false none u.history
    Trail setting t [event] s (telling s event u) := by
  obtain ⟨missing, failed | ⟨outputs, a, created, failed⟩⟩ := request_eq_failure failed
  · have makes := createLazy_eq_failure failed
    have done : Trail setting t _ s _ := .unmade known missing makes
    have clean : u.history = [] := makes.others.history
    simpa [telling, clean] using done
  · obtain ⟨c, link, trace, makes, fresh, registered, rfl⟩ := createLazy_eq_value created
    obtain ⟨inner, d, trail, rfl⟩ := track.fillLazy_eq_failure failed fresh.owned
    have clean : c.history = [] := makes.others.history
    have done : Trail setting t _ s _ := .broken known missing makes fresh registered trail
    simpa [telling, clean] using done

theorem invokeLazy (follows : Follows setting self) (track : Tracked setting t self)
    {rule : LazyRule} (known : t.module.lazyRule? rule.name = some rule) (argument : Value) :
    Keeps (tracked setting t) (invokeLazy self setting t rule argument) := by
  refine .bind (refuseWhileMatching_keeps _) fun _ => ?_
  split
  · exact .pure _
  refine .bind (checkArgument_keeps _ _ _) fun _ => .bind (enterRule_tracked _) fun _ => ?_
  refine .bind (fun s => nest_tracked ?_ ?_) fun answered => ?_
  · intro ended w inside
    obtain ⟨made, _, requested, inside⟩ := bind_eq_value.1 inside
    obtain ⟨x, answered, rfl⟩ := ensuring_eq_value.1 requested
    simp only [bind_eq_value, state_eq_value, pure_eq_value] at inside
    obtain ⟨_, _, ⟨rfl, rfl⟩, rfl, rfl⟩ := inside
    have told := track.request_value follows known answered
    exact told.thenIdle (by constructor <;> rfl)
  · intro fault w inside
    obtain inside | ⟨_, _, _, inside⟩ := bind_eq_failure.1 inside
    · obtain ⟨x, failed, rfl⟩ := ensuring_eq_failure.1 inside
      have told := track.request_failure known failed
      exact told.thenIdle (by constructor <;> rfl)
    · simp [bind_eq_failure] at inside
  · obtain ⟨result, complete⟩ := answered
    cases complete with
    | true => exact .pure _
    | false =>
      refine .bind (modify_tracked ?_) fun _ => .pure _
      exact fun _ => by constructor <;> rfl

theorem serves (follows : Follows setting self) (track : Tracked setting t self)
    (given : setting.transformation = some t) : Serves (tracked setting t) setting self where
  quiet quiet := ⟨[], .idle quiet.idle⟩
  expression := track
  lazy := by
    rintro other rule ⟨running, known⟩ v
    obtain rfl := Option.some.inj (running.symm.trans given)
    exact invokeLazy follows track known v
  called := by
    rintro other rule ⟨running, -⟩ args
    obtain rfl := Option.some.inj (running.symm.trans given)
    exact track.invokeCalled rule args

end Tracked

end Metamorph.Engine
