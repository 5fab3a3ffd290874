import Metamorph.Proofs.Assigning

/-! Who every activity is on behalf of. What happens directly within an application of a rule are
evaluations of its own expressions, with its own variables, and invocations of rules; what happens
directly within an invocation is the application of the rule that is invoked. A binding that waits was
evaluated before. -/
namespace Metamorph

namespace Event

/-- A rule was invoked. -/
def IsCall : Event → Prop
  | .lazy _ _ _ _ _ => True
  | .called _ _ _ _ => True
  | .replayed _ _ _ => True
  | _ => False

/-- What happens directly within an assignment: rules are invoked, and the assignment may be refused. -/
def IsRemark : Event → Prop
  | .unowned _ _ => True
  | event => event.IsCall

/-- What happens directly within an application with the given variables: rules are invoked by its
statements, and its own expressions are evaluated. -/
def Sees (table : Named Value) : Event → Prop
  | .assignment occasion work _ _ => occasion ≠ .again ∧ work.scope = table
  | event => event.IsCall

theorem IsCall.isRemark {event : Event} (call : event.IsCall) : event.IsRemark := by
  cases event <;> first | exact call | cases call

theorem IsCall.sees {event : Event} (call : event.IsCall) (table : Named Value) :
    event.Sees table := by
  cases event <;> first | exact call | cases call

/-- The application of a rule with what its formals stand for. -/
def Applies (setting : Setting) (formals : Formals) (rule : String) (patterns : List OutPattern)
    (body : List Statement) : Event → Prop
  | .application name own statements outputs inner =>
    name = rule ∧ own = patterns ∧ statements = body ∧
      outputs.names = patterns.map (·.name) ∧
      ∀ event ∈ inner, event.Sees (setting.ownScope formals outputs)
  | _ => False

/-- What happens directly within an activity is on its behalf. Within an invocation that is an
application of the rule that is invoked, to the arguments of the invocation. -/
def Faithful (setting : Setting) (m : Module) : Event → Prop
  | .assignment _ _ _ inner => ∀ event ∈ inner, event.IsRemark
  | .application _ _ _ _ inner => ∃ table, ∀ event ∈ inner, event.Sees table
  | .lazy name argument _ _ inner => ∃ rule, m.lazyRule? name = some rule ∧ ∀ event ∈ inner,
      event.Applies setting [(rule.parameter.name, argument)] name rule.outputs []
  | .called name args _ inner => ∃ rule, m.calledRule? name = some rule ∧
      args.length = rule.parameters.length ∧ ∀ event ∈ inner,
        event.Applies setting ((rule.parameters.map (·.name)).zip args) name rule.outputs rule.body
  | _ => True

end Event

/-- The work was done for the first time. -/
def Announced (events : List Event) (work : Assignment) : Prop :=
  ∃ stored inner, .assignment .first work stored inner ∈ activitiesAmong events

theorem Announced.mono {events more : List Event} {work : Assignment}
    (announced : Announced events work) (grown : activitiesAmong events ⊆ activitiesAmong more) :
    Announced more work := by
  obtain ⟨stored, inner, member⟩ := announced
  exact ⟨stored, inner, grown member⟩

namespace Engine
open Run

/-- The schedule and what was created for it stay, what happens directly is of the kind, whatever happens
is faithful, and the bindings put down on the way were evaluated on the way. -/
structure Recounts (setting : Setting) (m : Module) (kind : Event → Prop) (s u : Engine) : Prop where
  schedule : u.schedule = s.schedule
  created : u.created = s.created
  told : ∃ done, u.history = s.history ++ done ∧ (∀ event ∈ done, kind event) ∧
    ∀ event ∈ activitiesAmong done, event.Faithful setting m
  waiting : ∀ d ∈ u.deferred, d ∈ s.deferred ∨ Announced u.history (d.work setting)

namespace Recounts
variable {setting : Setting} {m : Module} {kind other : Event → Prop} {s u w : Engine}

theorem silent (schedule : u.schedule = s.schedule) (created : u.created = s.created)
    (history : u.history = s.history) (deferred : u.deferred = s.deferred) :
    Recounts setting m kind s u where
  schedule
  created
  told := ⟨[], by rw [history, List.append_nil], List.forall_mem_nil _, List.forall_mem_nil _⟩
  waiting d member := .inl (deferred ▸ member)

theorem refl (s : Engine) : Recounts setting m kind s s := silent rfl rfl rfl rfl

theorem trans (first : Recounts setting m kind s u) (rest : Recounts setting m kind u w) :
    Recounts setting m kind s w where
  schedule := rest.schedule.trans first.schedule
  created := rest.created.trans first.created
  told := by
    obtain ⟨done, before, direct, faithful⟩ := first.told
    obtain ⟨more, behind, later, loyal⟩ := rest.told
    refine ⟨done ++ more, by rw [behind, before, List.append_assoc], ?_, ?_⟩
    · exact List.forall_mem_append.2 ⟨direct, later⟩
    · rw [activitiesAmong_append]
      exact List.forall_mem_append.2 ⟨faithful, loyal⟩
  waiting d member := by
    obtain ⟨more, behind, -⟩ := rest.told
    rcases rest.waiting d member with old | announced
    · refine (first.waiting d old).imp_right fun announced => announced.mono ?_
      rw [behind, activitiesAmong_append]
      exact List.subset_append_left _ _
    · exact .inr announced

theorem imp (recounts : Recounts setting m kind s u) (weaker : ∀ event, kind event → other event) :
    Recounts setting m other s u where
  schedule := recounts.schedule
  created := recounts.created
  told := by
    obtain ⟨done, history, direct, faithful⟩ := recounts.told
    exact ⟨done, history, fun event member => weaker event (direct event member), faithful⟩
  waiting := recounts.waiting

theorem enclosed {event : Event} (recounts : Recounts setting m kind { s with history := [] } u)
    (around : event.within = u.history)
    (wraps : (∀ part ∈ event.within, kind part) → other event ∧ event.Faithful setting m) :
    Recounts setting m other s { u with history := s.history ++ [event] } := by
  obtain ⟨done, history, direct, faithful⟩ := recounts.told
  have inside : event.within = done := around.trans history
  obtain ⟨fits, loyal⟩ := wraps (by rwa [inside])
  have whole : activitiesAmong [event] = activitiesAmong done ++ [event] := by
    rw [← inside, ← event.activities_eq]
    exact List.append_nil _
  refine ⟨recounts.schedule, recounts.created, ⟨[event], rfl, ?_, ?_⟩, fun d member => ?_⟩
  · exact List.forall_mem_singleton.2 fits
  · rw [whole]
    exact List.forall_mem_append.2 ⟨faithful, List.forall_mem_singleton.2 loyal⟩
  · refine (recounts.waiting d member).imp_right fun announced => announced.mono ?_
    change _ ⊆ activitiesAmong (s.history ++ [event])
    rw [activitiesAmong_append, whole, show u.history = done from history]
    exact fun _ present => List.mem_append_right _ (List.mem_append_left _ present)

end Recounts

def recounting (setting : Setting) (m : Module) (kind : Event → Prop) : Conduct Engine :=
  .both (Recounts setting m kind) .refl .trans

section
variable {setting : Setting} {m : Module} {t : Transformation} {self : Evaluator}
  {kind : Event → Prop} {α : Type}

theorem modify_recounting {change : Engine → Engine}
    (silent : ∀ s, (change s).schedule = s.schedule ∧ (change s).created = s.created ∧
      (change s).history = s.history ∧ (change s).deferred = s.deferred) :
    Keeps (recounting setting m kind) (Run.modify change) := by
  refine .modify fun s => ?_
  obtain ⟨schedule, created, history, deferred⟩ := silent s
  exact .silent schedule created history deferred

theorem noteRule_recounting (rule : String) :
    Keeps (recounting setting m kind) (Run.modify (noteRule rule)) :=
  modify_recounting fun _ => ⟨rfl, rfl, rfl, rfl⟩

theorem nest_recounting {part : Event → Prop} {event : Option α → List Event → Event}
    {body : Run Engine α} (kept : Keeps (recounting setting m part) body)
    (around : ∀ ended inner, (event ended inner).within = inner)
    (wraps : ∀ ended inner, (∀ e ∈ inner, part e) →
      kind (event ended inner) ∧ (event ended inner).Faithful setting m) :
    Keeps (recounting setting m kind) (nest event body) := by
  intro s
  have enclosed {ended : Option α} {u : Engine}
      (recounts : Recounts setting m part { s with history := [] } u) :
      Recounts setting m kind s { u with history := s.history ++ [event ended u.history] } := by
    refine recounts.enclosed (around ended u.history) fun parts => wraps ended u.history ?_
    rwa [around] at parts
  exact nest_allows (kept { s with history := [] }) (fun _ => enclosed) enclosed id

theorem working_recounting {occasion : Occasion} {work : Assignment} {body : Run Engine (α × Value)}
    (kept : Keeps (recounting setting m Event.IsRemark) body)
    (fits : ∀ stored inner, kind (.assignment occasion work stored inner)) :
    Keeps (recounting setting m kind) (working occasion work body) := by
  refine .bind (nest_recounting kept ?_ ?_) fun _ => .pure _
  · exact fun _ _ => rfl
  · exact fun _ _ remarks => ⟨fits _ _, remarks⟩

theorem inFrame_recounting {frame : BindingFrame} {body : Run Engine α}
    (kept : Keeps (recounting setting m kind) body) :
    Keeps (recounting setting m kind) (inFrame frame body) := by
  refine .bind (modify_recounting fun _ => ⟨rfl, rfl, rfl, rfl⟩) fun _ s => ?_
  have framed : Keeps (recounting setting m kind) (do
      let a ← body
      return (a, (← Run.state).frames.head?.getD frame)) :=
    .bind kept fun _ => .bind .state fun _ => .pure _
  exact (framed s).ensuring (fun u => .silent rfl rfl rfl rfl)
    fun recounts => recounts.trans (.silent rfl rfl rfl rfl)

theorem leaving_recounting {run : Run Engine α} (kept : Keeps (recounting setting m kind) run) :
    Keeps (recounting setting m kind) (Run.ensuring leave run) :=
  fun s => (kept s).ensuring (fun _ => .silent rfl rfl rfl rfl)
    fun recounts => recounts.trans (.silent rfl rfl rfl rfl)

theorem enterRule_recounting (rule : String) :
    Keeps (recounting setting m kind) (enterRule setting rule) := by
  refine .bind .state fun s => ?_
  split
  · exact .fail _
  · exact modify_recounting fun _ => ⟨rfl, rfl, rfl, rfl⟩

theorem makeTargets_recounting (patterns : List OutPattern) :
    Keeps (recounting setting m kind) (makeTargets t patterns) := by
  have made {s u : Engine} (makes : Makes t s u) : Recounts setting m kind s u := by
    have others := makes.others
    exact .silent others.schedule others.created others.history others.deferred
  exact (makeTargets_keeps patterns).imp made made id

theorem registerLink_recounting (rule : String) (source : Value) (outputs : Outputs)
    (link : LinkKind) : Keeps (recounting setting m kind) (registerLink rule source outputs link) :=
  .bind .state fun _ => .bind (.ofResult _) fun _ =>
    modify_recounting fun _ => ⟨rfl, rfl, rfl, rfl⟩

theorem assign_recounting (target : Value) (feature : String) (v : Value) :
    Keeps (recounting setting m Event.IsRemark) (assign setting target feature v) := by
  refine .bind .state fun s => ?_
  split
  · refine .bind (.ofResult _) fun w => .bind (.collaborate _ _) fun store => ?_
    exact .bind (modify_recounting fun _ => ⟨rfl, rfl, rfl, rfl⟩) fun _ => .pure _
  · refine .bind (.modify fun s => ?_) fun _ => .bind (.ofResult _) fun _ => .fail _
    refine ⟨rfl, rfl, ⟨_, rfl, ?_, ?_⟩, fun d member => .inl member⟩
    · exact List.forall_mem_singleton.2 trivial
    · exact List.forall_mem_singleton.2 trivial

theorem applying_recounting {rule : String} {patterns : List OutPattern} {body : List Statement}
    {outputs : Outputs} {formals : Formals} {work : Run Engine α}
    (names : outputs.names = patterns.map (·.name))
    (worked : Keeps (recounting setting m (Event.Sees (setting.ownScope formals outputs))) work) :
    Keeps (recounting setting m fun event => event.Applies setting formals rule patterns body)
      (applying rule patterns body outputs work) :=
  nest_recounting worked (fun _ _ => rfl) fun _ _ own => ⟨⟨rfl, rfl, rfl, names, own⟩, _, own⟩

end

/-- Evaluation of expressions tells of nothing but invocations of rules, which are faithful. -/
def Recounted (setting : Setting) (m : Module) (self : Evaluator) : Prop :=
  ∀ env e, Keeps (recounting setting m Event.IsCall) (self env e)

namespace Recounted
variable {setting : Setting} {m : Module} {t : Transformation} {self : Evaluator}
  {kind : Event → Prop} (kept : Recounted setting m self)
include kept

theorem imp (weaker : ∀ event : Event, event.IsCall → kind event) (env : Environment) (e : Expr) :
    Keeps (recounting setting m kind) (self env e) :=
  (kept env e).imp (·.imp weaker) (·.imp weaker) id

theorem workOnBinding {occasion : Occasion} {work : Assignment} {env : Environment}
    {replay : List CalledResult} {e : Expr}
    (fits : ∀ stored inner, kind (.assignment occasion work stored inner)) :
    Keeps (recounting setting m kind) (working occasion work do
      let (v, frame) ← inFrame { replay } (self env e)
      Run.modify fun s : Engine => { s with bindingsEvaluated := s.bindingsEvaluated + 1 }
      return (frame, ← assign setting work.target work.feature v)) := by
  refine working_recounting ?_ fits
  refine .bind (inFrame_recounting (kept.imp (fun _ => Event.IsCall.isRemark) env e)) fun _ => ?_
  refine .bind (modify_recounting fun _ => ⟨rfl, rfl, rfl, rfl⟩) fun _ => ?_
  exact .bind (assign_recounting _ _ _) fun _ => .pure _

theorem applyBinding (rule : String) (target : Value) (binding : Binding) (bindings : Named Value) :
    Keeps (recounting setting m (Event.Sees (setting.rootEnvironment bindings).snapshot))
      (applyBinding self setting rule target binding (setting.rootEnvironment bindings) true []) := by
  intro s
  refine .bind (kept.workOnBinding (fun _ _ => ⟨nofun, rfl⟩) s) fun {frame u} worked => ?_
  split
  · -- The binding is put down with the scope that it was just evaluated in.
    obtain ⟨v, w, -, rfl⟩ := working_eq_value.1 worked
    refine ⟨rfl, rfl, ⟨[], (List.append_nil _).symm, List.forall_mem_nil _, List.forall_mem_nil _⟩, ?_⟩
    intro d member
    refine (List.mem_append.1 member).imp_right fun new => ?_
    obtain rfl := List.mem_singleton.1 new
    refine ⟨some v, w.history, ?_⟩
    simp only [DeferredBinding.work, setting.rootEnvironment_again]
    change _ ∈ activitiesAmong (s.history ++ [_])
    rw [activitiesAmong_append]
    refine List.mem_append_right _ (List.mem_append_left _ (Event.mem_activities _))
  · exact Keeps.pure _ u

theorem applyBindings (rule : String) (target : Value) (bindings : Named Value) (own : List Binding) :
    Keeps (recounting setting m (Event.Sees (setting.rootEnvironment bindings).snapshot))
      (applyBindings self setting rule target (setting.rootEnvironment bindings) own) := by
  induction own with
  | nil => exact .pure _
  | cons binding rest ih => exact .bind (kept.applyBinding _ _ _ _) fun _ => ih

theorem fillOutputs (rule : String) (outputs : Outputs) (bindings : Named Value)
    (patterns : List OutPattern) :
    Keeps (recounting setting m (Event.Sees (setting.rootEnvironment bindings).snapshot))
      (fillOutputs self setting rule outputs (setting.rootEnvironment bindings) patterns) := by
  induction patterns with
  | nil => exact .pure _
  | cons out rest ih => exact .bind (kept.applyBindings _ _ _ _) fun _ => ih

theorem fillApplication (rule : String) (patterns : List OutPattern) (outputs : Outputs)
    (formals : Formals) :
    Keeps (recounting setting m (Event.Sees (setting.ownScope formals outputs)))
      (fillApplication self setting rule patterns outputs (Named.ofPairs formals)) :=
  .bind (noteRule_recounting rule) fun _ => kept.fillOutputs _ _ _ _

theorem executeStatement (env : Environment) (statement : Statement) :
    Keeps (recounting setting m (Event.Sees env.snapshot))
      (executeStatement self setting env statement) := by
  cases statement with
  | evaluate e => exact kept.imp (fun _ call => call.sees _) env e
  | assign target feature e =>
    refine working_recounting ?_ fun _ _ => ⟨nofun, rfl⟩
    refine .bind (kept.imp (fun _ => Event.IsCall.isRemark) env e) fun v => ?_
    refine .bind (.ofResult _) fun object => ?_
    have assigned : Keeps (recounting setting m Event.IsRemark) (do
        Run.modify fun s : Engine => { s with bindingsEvaluated := s.bindingsEvaluated + 1 }
        return (v, ← assign setting object feature v)) :=
      .bind (modify_recounting fun _ => ⟨rfl, rfl, rfl, rfl⟩) fun _ =>
        .bind (assign_recounting _ _ _) fun _ => .pure _
    refine .bind .state fun s => ?_
    split
    · exact .bind (.fail _) fun _ => assigned
    · exact assigned

theorem executeBody (env : Environment) (last : Value) (body : List Statement) :
    Keeps (recounting setting m (Event.Sees env.snapshot)) (executeBody self setting env last body) := by
  induction body generalizing last with
  | nil => exact .pure _
  | cons statement rest ih => exact .bind (kept.executeStatement env statement) fun v => ih v

theorem executeCalled (rule : CalledRule) (args : List Value) :
    Keeps (recounting setting m fun event => event.Applies setting
        ((rule.parameters.map (·.name)).zip args) rule.name rule.outputs rule.body)
      (executeCalled self setting t rule args) := by
  refine .bind (noteRule_recounting _) fun _ s => ?_
  refine .bind (makeTargets_recounting _ s) fun {outputs u} made => ?_
  obtain ⟨fresh, -⟩ := makeTargets_fresh made
  refine Keeps.bind (applying_recounting fresh.names ?_) (fun _ => .pure _) u
  exact .bind (kept.fillApplication _ _ _ _) fun _ => kept.executeBody _ _ _

theorem request (rule : LazyRule) (argument : Value) :
    Keeps (recounting setting m fun event => event.Applies setting
        [(rule.parameter.name, argument)] rule.name rule.outputs [])
      (LazyCache.request cachePlace (createLazy t rule argument)
        (fillLazy self setting rule argument) rule.name argument) := by
  have remembering {kind : Event → Prop} (change : LazyCache → LazyCache) :
      Keeps (recounting setting m kind) (Run.modify (cachePlace.change change)) :=
    modify_recounting fun _ => ⟨rfl, rfl, rfl, rfl⟩
  have created {kind : Event → Prop} :
      Keeps (recounting setting m kind) (createLazy t rule argument) := by
    refine .bind (noteRule_recounting _) fun _ => .bind (makeTargets_recounting _) fun outputs => ?_
    refine .bind (registerLink_recounting _ _ _ _) fun _ => ?_
    exact .bind (modify_recounting fun _ => ⟨rfl, rfl, rfl, rfl⟩) fun _ => .pure _
  refine .bind .state fun s => ?_
  split
  · exact .bind (remembering _) fun _ => .pure _
  · refine .bind (remembering _) fun _ s => .bind (created s) fun {outputs u} made => ?_
    obtain ⟨_, _, _, -, fresh, -⟩ := createLazy_eq_value made
    refine Keeps.bind (remembering _) (fun _ => ?_) u
    refine .bind (applying_recounting fresh.names ?_) fun _ => .bind (remembering _) fun _ => .pure _
    exact kept.fillApplication _ _ _ [(rule.parameter.name, argument)]

theorem invokeLazy {rule : LazyRule} (known : m.lazyRule? rule.name = some rule) (argument : Value) :
    Keeps (recounting setting m Event.IsCall) (invokeLazy self setting t rule argument) := by
  refine .bind (refuseWhileMatching_keeps _) fun _ => ?_
  split
  · exact .pure _
  refine .bind (checkArgument_keeps _ _ _) fun _ => .bind (enterRule_recounting _) fun _ => ?_
  refine .bind (nest_recounting (.bind (leaving_recounting (kept.request rule _)) fun _ =>
    .bind .state fun _ => .pure _) (fun _ _ => rfl) fun _ _ applied => ?_) fun answered => ?_
  · exact ⟨trivial, rule, known, applied⟩
  · dsimp only
    split
    · exact .bind (modify_recounting fun _ => ⟨rfl, rfl, rfl, rfl⟩) fun _ => .pure _
    · exact .pure _

theorem invokeCalled {rule : CalledRule} (known : m.calledRule? rule.name = some rule)
    (args : List Value) :
    Keeps (recounting setting m Event.IsCall) (invokeCalled self setting t rule args) := by
  refine .bind (refuseWhileMatching_keeps _) fun _ => ?_
  split
  · intro s
    exact .bind (Keeps.fail _ s) fun failed => absurd failed fail_ne_value
  rename_i arity
  refine .bind (checkArguments_keeps _ _ _) fun _ => .bind ?_ fun recorded => ?_
  · refine .bind .state fun s => ?_
    split
    · exact .pure _
    · exact .bind (modify_recounting fun _ => ⟨rfl, rfl, rfl, rfl⟩) fun _ => .pure _
  cases recorded with
  | some result =>
    refine .bind (.modify fun s => ?_) fun _ => .pure _
    refine ⟨rfl, rfl, ⟨_, rfl, ?_, ?_⟩, fun d member => .inl member⟩
    · exact List.forall_mem_singleton.2 trivial
    · exact List.forall_mem_singleton.2 trivial
  | none =>
    refine .bind (enterRule_recounting _) fun _ => .bind ?_ fun answered => ?_
    · refine nest_recounting (leaving_recounting (inFrame_recounting (kept.executeCalled rule args)))
        (fun _ _ => rfl) fun _ _ applied => ?_
      exact ⟨trivial, rule, known, not_not.1 arity, applied⟩
    · refine .bind (modify_recounting fun _ => ⟨rfl, rfl, rfl, rfl⟩) fun _ => ?_
      exact .bind (modify_recounting fun _ => ⟨rfl, rfl, rfl, rfl⟩) fun _ => .pure _

theorem serves (given : setting.transformation = some t) (same : t.module = m) :
    Serves (recounting setting m Event.IsCall) setting self where
  quiet quiet := by
    obtain ⟨_, _, _, _, _, _, _, _, _, rfl⟩ := quiet
    exact .silent rfl rfl rfl rfl
  expression := kept
  lazy := by
    rintro other rule ⟨running, known⟩ v
    obtain rfl := Option.some.inj (running.symm.trans given)
    exact kept.invokeLazy (same ▸ known) v
  called := by
    rintro other rule ⟨running, known⟩ args
    obtain rfl := Option.some.inj (running.symm.trans given)
    exact kept.invokeCalled (same ▸ known) args

theorem resolveDeferred (d : DeferredBinding) :
    Keeps (recounting setting m fun event =>
        ∃ stored inner, event = .assignment .again (d.work setting) stored inner)
      (resolveDeferred self setting d) := by
  refine .bind (.bind (kept.workOnBinding fun _ _ => ⟨_, _, rfl⟩) fun frame => ?_) fun _ => ?_
  · simp only [Bool.and_false]
    exact .pure _
  · exact modify_recounting fun _ => ⟨rfl, rfl, rfl, rfl⟩

end Recounted

theorem Recounted.callRuleWith {setting : Setting} {t : Transformation} {self : Evaluator}
    (kept : Recounted setting t.module self) (name : String) (args : List Value) :
    Keeps (recounting setting t.module Event.IsCall) (callRuleWith self setting t name args) := by
  refine .bind .state fun s => ?_
  split
  · exact .fail _
  · split
    · exact .fail _
    · rename_i rule known
      have named : rule.name = name := by simpa using List.find?_some known
      exact kept.invokeCalled (by rwa [named]) args

/-- The outputs created for a scheduled application are filled in. -/
def FillsIn (setting : Setting) (work : List (Application × Outputs)) (event : Event) : Prop :=
  ∃ item ∈ work, ∃ inner,
    event = .application item.1.rule.name item.1.rule.outputs [] item.2 inner ∧
      ∀ part ∈ inner, part.Sees (setting.ownScope [(item.1.rule.source.name, item.1.source)] item.2)

theorem Recounted.fillAll {setting : Setting} {m : Module} {self : Evaluator}
    (kept : Recounted setting m self) (work : List (Application × Outputs)) :
    Keeps (recounting setting m (FillsIn setting work)) (fillAll self setting work) := by
  induction work with
  | nil => exact .pure _
  | cons item rest ih =>
    have later (event : Event) : FillsIn setting rest event → FillsIn setting (item :: rest) event := by
      rintro ⟨other, member, filled⟩
      exact ⟨other, List.mem_cons_of_mem _ member, filled⟩
    have filled := kept.fillApplication item.1.rule.name item.1.rule.outputs item.2
      [(item.1.rule.source.name, item.1.source)]
    refine .bind (nest_recounting filled (fun _ _ => rfl) fun _ inner own => ?_) fun _ =>
      ih.imp (·.imp later) (·.imp later) id
    exact ⟨⟨item, List.mem_cons_self, inner, rfl, own⟩, _, own⟩

/-- What happens on behalf of nobody: called rules are executed, what was created for the schedule is
filled in, and bindings that waited are evaluated again. -/
def Foremost (setting : Setting) (u : Engine) (event : Event) : Prop :=
  event.IsCall ∨ FillsIn setting ((scheduled u).zip u.created) event ∨
    ∃ work stored inner, event = .assignment .again work stored inner ∧ Announced u.history work

/-- Every activity is one of somebody's, and every binding that waits was evaluated. -/
structure Attributed (setting : Setting) (m : Module) (u : Engine) : Prop where
  faithful : ∀ event ∈ activitiesAmong u.history, event.Faithful setting m
  direct : ∀ event ∈ u.history, Foremost setting u event
  waiting : ∀ d ∈ u.deferred, Announced u.history (d.work setting)

section
variable {setting : Setting} {m : Module} {t : Transformation} {self : Evaluator}
  {kind : Event → Prop} {store : Store} {log : List LogRecord} {s u : Engine}

theorem Attributed.silent (history : u.history = []) (deferred : u.deferred = []) :
    Attributed setting m u where
  faithful := by simp [history, activitiesAmong]
  direct := by simp [history]
  waiting := by simp [deferred]

theorem Attributed.recounts (attributed : Attributed setting m s)
    (recounts : Recounts setting m kind s u)
    (foremost : ∀ event, kind event → Foremost setting s event) : Attributed setting m u := by
  obtain ⟨done, history, direct, faithful⟩ := recounts.told
  have grown : activitiesAmong s.history ⊆ activitiesAmong u.history := by
    rw [history, activitiesAmong_append]
    exact List.subset_append_left _ _
  have since {event : Event} (first : Foremost setting s event) : Foremost setting u event := by
    have items : (scheduled u).zip u.created = (scheduled s).zip s.created := by
      rw [scheduled, recounts.schedule, recounts.created, scheduled]
    rw [Foremost, items]
    refine first.imp_right (Or.imp_right ?_)
    rintro ⟨work, stored, inner, same, announced⟩
    exact ⟨work, stored, inner, same, announced.mono grown⟩
  refine ⟨?_, ?_, fun d member => ?_⟩
  · rw [history, activitiesAmong_append]
    exact List.forall_mem_append.2 ⟨attributed.faithful, faithful⟩
  · intro event member
    rw [history, List.mem_append] at member
    rcases member with old | new
    · exact since (attributed.direct event old)
    · exact since (foremost event (direct event new))
  · rcases recounts.waiting d member with old | announced
    · exact (attributed.waiting d old).mono grown
    · exact announced

/-- Runs that leave every activity one of somebody's. -/
def attributing (setting : Setting) (m : Module) : Conduct Engine :=
  .both (fun s u => Attributed setting m s → Attributed setting m u) (fun _ => id)
    fun first rest => rest ∘ first

theorem modify_attributing {change : Engine → Engine}
    (silent : ∀ s, (change s).schedule = s.schedule ∧ (change s).created = s.created ∧
      (change s).history = s.history ∧ (change s).deferred = s.deferred) :
    Keeps (attributing setting m) (Run.modify change) := by
  refine .modify fun s attributed => ?_
  obtain ⟨schedule, created, history, deferred⟩ := silent s
  have recounts : Recounts setting m (fun _ => False) s (change s) :=
    .silent schedule created history deferred
  exact attributed.recounts recounts fun _ impossible => impossible.elim

theorem Recounted.resolveFrom (kept : Recounted setting m self) (bound position : Nat) :
    Keeps (attributing setting m) (resolveFrom self setting bound position) := by
  induction bound generalizing position with
  | zero => exact .cutOff fun _ => trivial
  | succ bound ih =>
    intro s
    unfold Engine.resolveFrom
    rw [state_bind]
    cases turn : s.deferred[position]? with
    | none => exact Keeps.pure _ s
    | some d =>
      -- The binding waits in this state, whatever is put down behind it, so it was evaluated before.
      have once {u : Engine} (recounts : Recounts setting m (fun event =>
          ∃ stored inner, event = .assignment .again (d.work setting) stored inner) s u)
          (attributed : Attributed setting m s) : Attributed setting m u := by
        refine attributed.recounts recounts ?_
        rintro event ⟨stored, inner, rfl⟩
        exact .inr (.inr ⟨_, _, _, rfl, attributed.waiting d (List.mem_of_getElem? turn)⟩)
      exact .bind ((kept.resolveDeferred d s).imp once once id) fun {_ u} _ => ih (position + 1) u

theorem runPhase_attributing {phase : Phase} {work : Run Engine Unit}
    (kept : Keeps (attributing setting m) work) :
    Keeps (attributing setting m) (runPhase setting phase work) := by
  have advanced : Keeps (attributing setting m) (advance phase) := by
    refine .bind .state fun s => ?_
    split
    · exact modify_attributing fun _ => ⟨rfl, rfl, rfl, rfl⟩
    · exact .fail _
  refine .bind advanced fun _ => .bind kept fun _ => ?_
  split
  · exact modify_attributing fun _ => ⟨rfl, rfl, rfl, rfl⟩
  · exact .pure _

theorem Recounted.fillScheduled (kept : Recounted setting m self) :
    Keeps (attributing setting m) (fillScheduled self setting) := by
  intro s
  have once {u : Engine}
      (recounts : Recounts setting m (FillsIn setting ((scheduled s).zip s.created)) s u)
      (attributed : Attributed setting m s) : Attributed setting m u :=
    attributed.recounts recounts fun _ fills => .inr (.inl fills)
  exact (kept.fillAll ((scheduled s).zip s.created) s).imp once once id

theorem evaluateUntil_recounted (given : setting.transformation = some t) (stop : Interruption)
    (depth : Nat) : Recounted setting t.module (evaluateUntil stop setting depth) := by
  induction depth with
  | zero => exact fun _ _ => .cutOff fun _ => trivial
  | succ depth ih => exact evaluateUntil_succ_keeps (ih.serves given rfl)

theorem phases_attributed {bound : Nat} (kept : Recounted setting m self)
    (guarded : ∀ env e, Keeps guarding (self env e))
    (left : (phases self bound setting t { store, log }).state? = some u) :
    Attributed setting m u := by
  rw [phases_eq_bind, prepareWalk, bind_assoc] at left
  obtain ⟨fault, failed⟩ | ⟨_, b, prepared, left⟩ := Outcome.state?_bind left
  · have unset : Unset store u := by
      obtain ⟨_, -, left⟩ | left := matchAndCreate_left guarded (Outcome.state?_failure failed)
      · exact left.creation (by decide)
      · exact left.creation (by decide)
    exact .silent unset.history unset.deferred
  · obtain ⟨-, unset⟩ := matchAndCreate_at guarded prepared
    have rest : Keeps (attributing setting m) (do
        runPhase setting .initialization (fillScheduled self setting)
        runPhase setting .resolution (resolveFrom self setting bound 0)) :=
      .bind (runPhase_attributing kept.fillScheduled) fun _ =>
        runPhase_attributing (kept.resolveFrom bound 0)
    exact rest.left id left (.silent unset.history unset.deferred)

theorem runWith_attributed {bound : Nat} (kept : Recounted setting m self)
    (guarded : ∀ env e, Keeps guarding (self env e))
    (left : (runWith self bound setting t { store, log }).state? = some u) :
    Attributed setting m u :=
  runWith_left left (fun _ left => phases_attributed kept guarded left)
    (fun _ _ attributed => ⟨attributed.faithful, attributed.direct, attributed.waiting⟩)
    fun _ _ attributed => ⟨attributed.faithful, attributed.direct, attributed.waiting⟩

/-- However a run and the calls after it end, every activity is one of somebody's. -/
theorem Reaches.attributed (given : setting.transformation = some t)
    (reaches : Reaches setting t store log u) : Attributed setting t.module u := by
  induction reaches with
  | @within stop depth bound s left =>
    exact phases_attributed (evaluateUntil_recounted given stop depth)
      (evaluateUntil_guarding stop setting depth) left
  | @ran stop depth bound s left =>
    exact runWith_attributed (evaluateUntil_recounted given stop depth)
      (evaluateUntil_guarding stop setting depth) left
  | @called stop depth name args s u _ left attributed =>
    have kept := (evaluateUntil_recounted given stop depth).callRuleWith name args
    exact attributed.recounts (kept.left id left) fun _ => .inl

end

end Engine

end Metamorph
