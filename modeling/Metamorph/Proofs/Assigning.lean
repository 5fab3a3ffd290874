import Metamorph.Proofs.Coupling
import Metamorph.Proofs.History

/-! What is handed to features. Whatever the rules at work do, and however they end, the links of matched
rules stay as they are, and each assignment hands over what its expression came to, with objects
replaced by those links. -/
namespace Metamorph

namespace Trace
variable {trace other : Trace}

theorem matchedLink?_eq (v : Value) :
    trace.matchedLink? v = (trace.linksOf .matched).find? (·.isFor v) := by
  unfold matchedLink? linksOf
  rw [linksFor_eq, List.find?_filter, List.find?_filter]
  simp only [and_comm]

/-- Only links of matched rules tell what a value is replaced by. -/
theorem replacement_congr (same : trace.linksOf .matched = other.linksOf .matched) (v : Value) :
    trace.replacement v = other.replacement v := by
  unfold replacement
  rw [matchedLink?_eq, matchedLink?_eq, same]

end Trace

namespace Engine
open Run

mutual

theorem implicitTarget_congr {trace other : Trace}
    (same : trace.linksOf .matched = other.linksOf .matched) :
    ∀ v : Value, implicitTarget trace v = implicitTarget other v
  | .collection kind items => by
    rw [implicitTarget, implicitTarget, implicitTargets_congr same items]
  | .undefined | .boolean _ | .integer _ | .real _ | .complex _ _ _ | .string _ | .tuple _
  | .type _ | .list _ _ | .object _ | .thisModule _ => by
    simp only [implicitTarget, Trace.replacement_congr same]

theorem implicitTargets_congr {trace other : Trace}
    (same : trace.linksOf .matched = other.linksOf .matched) :
    ∀ items : List Value, implicitTargets trace items = implicitTargets other items
  | [] => rfl
  | v :: rest => by
    rw [implicitTargets, implicitTargets, implicitTarget_congr same v,
      implicitTargets_congr same rest]

end

/-- The expression that is worked on comes to the value and leaves the state, where its variables are
bound as they are. -/
def Evaluates (setting : Setting) (work : Assignment) (v : Value) (u : Engine) : Prop :=
  ∃ stop depth env s, Environment.snapshot env = work.scope ∧
    evaluateUntil stop setting depth env work.value s = .value v u

/-- The value can be set, to what the state has. -/
def Accepts (s : Engine) (work : Assignment) (w : Value) : Prop :=
  ∃ h store, work.target = .object h ∧ s.store.set h work.feature w = .ok store

/-- An assignment of the one value hands over the other. -/
def Hands (setting : Setting) (trace : Trace) (v w : Value) : Prop :=
  ∃ resolved, (if setting.settings.implicitResolution then implicitTarget trace v else .ok v) =
    .ok resolved ∧ w = asFeatureValue resolved

theorem Hands.congr {setting : Setting} {trace other : Trace} {v w : Value}
    (hands : Hands setting trace v w) (same : trace.linksOf .matched = other.linksOf .matched) :
    Hands setting other v w := by
  obtain ⟨resolved, replaced, rfl⟩ := hands
  rw [implicitTarget_congr same] at replaced
  exact ⟨resolved, replaced, rfl⟩

/-- What the expression came to was handed over as the value, and then set. -/
def Performs (setting : Setting) (trace : Trace) (work : Assignment) (w : Value) : Prop :=
  ∃ v s, Evaluates setting work v s ∧ Hands setting trace v w ∧ s.Accepts work w

/-- Whatever the assignment handed over comes from its expression. -/
def Explained (setting : Setting) (trace : Trace) (e : Evaluation) : Prop :=
  ∀ w, e.stored = some w → Performs setting trace e.work w

theorem Explained.congr {setting : Setting} {trace other : Trace} {e : Evaluation}
    (explained : Explained setting trace e)
    (same : trace.linksOf .matched = other.linksOf .matched) : Explained setting other e := by
  intro w stored
  obtain ⟨v, s, evaluates, hands, accepts⟩ := explained w stored
  exact ⟨v, s, evaluates, hands.congr same, accepts⟩

/-- The schedule, what was created for it and its links stay, and the assignments on the way are
explained. -/
structure Assigns (setting : Setting) (s u : Engine) : Prop where
  schedule : u.schedule = s.schedule
  created : u.created = s.created
  matched : u.trace.linksOf .matched = s.trace.linksOf .matched
  told : ∃ done, u.history = s.history ++ done ∧
    ∀ e ∈ evaluations done, Explained setting u.trace e

namespace Assigns
variable {setting : Setting} {s u w : Engine}

/-- Nothing was told. -/
theorem silent (schedule : u.schedule = s.schedule) (created : u.created = s.created)
    (matched : u.trace.linksOf .matched = s.trace.linksOf .matched)
    (history : u.history = s.history) : Assigns setting s u where
  schedule
  created
  matched
  told := ⟨[], by rw [history, List.append_nil], List.forall_mem_nil _⟩

theorem refl (s : Engine) : Assigns setting s s := silent rfl rfl rfl rfl

theorem trans (first : Assigns setting s u) (rest : Assigns setting u w) : Assigns setting s w where
  schedule := rest.schedule.trans first.schedule
  created := rest.created.trans first.created
  matched := rest.matched.trans first.matched
  told := by
    obtain ⟨done, before, early⟩ := first.told
    obtain ⟨more, behind, late⟩ := rest.told
    refine ⟨done ++ more, by rw [behind, before, List.append_assoc], fun e member => ?_⟩
    rw [evaluations_append, List.mem_append] at member
    rcases member with old | new
    · exact (early e old).congr rest.matched.symm
    · exact late e new

end Assigns

def assigning (setting : Setting) : Conduct Engine := .both (Assigns setting) .refl .trans

section
variable {setting : Setting} {t : Transformation} {self : Evaluator} {α : Type}

/-- Neither rules nor assignments are concerned. -/
theorem modify_assigning {change : Engine → Engine}
    (silent : ∀ s, (change s).schedule = s.schedule ∧ (change s).created = s.created ∧
      (change s).trace = s.trace ∧ (change s).history = s.history) :
    Keeps (assigning setting) (Run.modify change) := by
  refine .modify fun s => ?_
  obtain ⟨schedule, created, trace, history⟩ := silent s
  exact .silent schedule created (by rw [trace]) history

theorem noteRule_assigning (rule : String) : Keeps (assigning setting) (Run.modify (noteRule rule)) :=
  modify_assigning fun _ => ⟨rfl, rfl, rfl, rfl⟩

/-- What happens in a run becomes one event, which adds no assignments but explained ones. -/
theorem nest_assigning {event : Option α → List Event → Event} {body : Run Engine α}
    (kept : Keeps (assigning setting) body)
    (explained : ∀ {ended inner s u}, (∀ a, ended = some a → body s = .value a u) →
      ∀ e ∈ evaluations [event ended inner], e ∈ evaluations inner ∨ Explained setting u.trace e) :
    Keeps (assigning setting) (nest event body) := by
  intro s
  have telling {ended : Option α} {u : Engine} (assigns : Assigns setting { s with history := [] } u)
      (same : ∀ a, ended = some a → body { s with history := [] } = .value a u) :
      Assigns setting s { u with history := s.history ++ [event ended u.history] } := by
    obtain ⟨inner, history, told⟩ := assigns.told
    refine ⟨assigns.schedule, assigns.created, assigns.matched, _, rfl, fun e member => ?_⟩
    rcases explained same e member with old | new
    · have within : e ∈ evaluations inner := by
        have history : u.history = inner := history
        exact history ▸ old
      exact told e within
    · exact new
  refine nest_allows (kept { s with history := [] }) (fun outcome assigns => ?_)
    (fun assigns => telling assigns nofun) id
  exact telling assigns fun b same => Option.some.inj same ▸ outcome

/-- The invocation and the application of a rule add no assignments of their own. -/
theorem nest_alike {event : Option α → List Event → Event} {body : Run Engine α}
    (kept : Keeps (assigning setting) body)
    (same : ∀ ended inner, evaluations [event ended inner] = evaluations inner) :
    Keeps (assigning setting) (nest event body) :=
  nest_assigning kept fun _ _ member => .inl (same _ _ ▸ member)

theorem applying_assigning {rule : String} {patterns : List OutPattern} {body : List Statement}
    {outputs : Outputs} {work : Run Engine α} (kept : Keeps (assigning setting) work) :
    Keeps (assigning setting) (applying rule patterns body outputs work) :=
  nest_alike kept fun _ _ => evaluations_application ..

theorem working_assigning {occasion : Occasion} {work : Assignment} {body : Run Engine (α × Value)}
    (kept : Keeps (assigning setting) body)
    (handed : ∀ {a w s u}, body s = .value (a, w) u → Performs setting u.trace work w) :
    Keeps (assigning setting) (working occasion work body) := by
  refine .bind (nest_assigning kept fun {ended inner s u} ran e member => ?_) fun _ => .pure _
  rw [evaluations_assignment, List.mem_append] at member
  rcases member with old | own
  · exact .inl old
  · refine .inr fun w stored => ?_
    obtain rfl := List.mem_singleton.1 own
    obtain ⟨⟨a, w⟩, rfl, rfl⟩ := Option.map_eq_some_iff.1 stored
    exact handed (ran _ rfl)

theorem inFrame_assigning {frame : BindingFrame} {body : Run Engine α}
    (kept : Keeps (assigning setting) body) : Keeps (assigning setting) (inFrame frame body) := by
  refine .bind (modify_assigning fun _ => ⟨rfl, rfl, rfl, rfl⟩) fun _ s => ?_
  have framed : Keeps (assigning setting) (do
      let a ← body
      return (a, (← Run.state).frames.head?.getD frame)) :=
    .bind kept fun _ => .bind .state fun _ => .pure _
  exact (framed s).ensuring (fun u => .silent rfl rfl rfl rfl)
    fun assigns => assigns.trans (.silent rfl rfl rfl rfl)

theorem makeTargets_assigning (patterns : List OutPattern) :
    Keeps (assigning setting) (makeTargets t patterns) := by
  have made {s u : Engine} (makes : Makes t s u) : Assigns setting s u := by
    have others := makes.others
    have trace : u.trace = s.trace := others.trace
    exact .silent others.schedule others.created (by rw [trace]) others.history
  exact (makeTargets_keeps patterns).imp made made id

theorem registerLink_assigning (rule : String) (source : Value) (outputs : Outputs) :
    Keeps (assigning setting) (registerLink rule source outputs .lazy) := by
  intro s
  cases linked : registerLink rule source outputs .lazy s with
  | value _ u =>
    obtain ⟨link, trace, registered, rfl⟩ := registerLink_eq_value linked
    refine .silent rfl rfl ?_ rfl
    change trace.linksOf .matched = _
    rw [Trace.linksOf, Trace.links_of_register registered, List.filter_append]
    exact List.append_nil _
  | failure fault u =>
    obtain rfl := registerLink_eq_failure linked
    exact .refl _
  | exhausted => trivial

/-- An assignment hands over what it is given, with its objects replaced. -/
theorem assign_hands {target v w : Value} {feature : String} {s u : Engine}
    (ended : assign setting target feature v s = .value w u) :
    Hands setting u.trace v w ∧ ∃ h, target = .object h ∧ ∃ store,
      s.store.set h feature w = .ok store ∧ u = { s with store } := by
  obtain ⟨h, store, object, -, accepted, rfl⟩ := assign_eq_value ended
  refine ⟨?_, h, object, store, accepted, rfl⟩
  obtain ⟨_, _, read, ended⟩ := bind_eq_value.1 ended
  obtain ⟨rfl, rfl⟩ := state_eq_value.1 read
  subst object
  cases owned : s.ownerOf? (.object h) with
  | none => simp [owned, bind_eq_value] at ended
  | some provider =>
    simp only [owned, bind_eq_value, ofResult_eq_value, collaborate_eq_value, modify_eq_value,
      pure_eq_value] at ended
    obtain ⟨resolved, _, ⟨replaced, rfl⟩, _, _, -, _, _, -, rfl, -⟩ := ended
    exact ⟨resolved, replaced, rfl⟩

theorem assign_assigning (target : Value) (feature : String) (v : Value) :
    Keeps (assigning setting) (assign setting target feature v) := by
  refine .bind .state fun s => ?_
  split
  · refine .bind (.ofResult _) fun w => .bind (.collaborate _ _) fun store => ?_
    exact .bind (modify_assigning fun _ => ⟨rfl, rfl, rfl, rfl⟩) fun _ => .pure _
  · refine .bind (.modify fun s => ?_) fun _ => .bind (.ofResult _) fun _ => .fail _
    exact ⟨rfl, rfl, rfl, _, rfl, List.forall_mem_nil _⟩

end

/-- Evaluation of expressions hands over nothing but what is explained. -/
structure Explains (setting : Setting) (evaluator : Evaluator) : Prop where
  kept : ∀ env e, Keeps (assigning setting) (evaluator env e)
  evaluates : ∀ {work env s v u}, Environment.snapshot env = work.scope →
    evaluator env work.value s = .value v u → Evaluates setting work v u

namespace Explains
variable {setting : Setting} {t : Transformation} {self : Evaluator} (explains : Explains setting self)
include explains

theorem applyBinding {rule : String} {target : Value} {binding : Binding} {env : Environment}
    {deferrable : Bool} {replay : List CalledResult} :
    Keeps (assigning setting)
      (applyBinding self setting rule target binding env deferrable replay) := by
  refine .bind (working_assigning ?_ fun {frame w s u} ended => ?_) fun frame => ?_
  · refine .bind (inFrame_assigning (explains.kept env _)) fun evaluated => ?_
    refine .bind (modify_assigning fun _ => ⟨rfl, rfl, rfl, rfl⟩) fun _ => ?_
    exact .bind (assign_assigning _ _ _) fun _ => .pure _
  · obtain ⟨⟨v, frame⟩, r, framed, ended⟩ := bind_eq_value.1 ended
    obtain ⟨x, evaluated, -, rfl⟩ := inFrame_eq_value.1 framed
    obtain ⟨_, _, counted, ended⟩ := bind_eq_value.1 ended
    obtain rfl := modify_eq_value.1 counted
    obtain ⟨w, _, assigned, ended⟩ := bind_eq_value.1 ended
    obtain ⟨same, rfl⟩ := pure_eq_value.1 ended
    cases same
    obtain ⟨hands, h, object, store, accepted, -⟩ := assign_hands assigned
    exact ⟨v, x, explains.evaluates rfl evaluated, hands, h, store, object, accepted⟩
  · split
    · exact modify_assigning fun _ => ⟨rfl, rfl, rfl, rfl⟩
    · exact .pure _

theorem applyBindings {rule : String} {target : Value} {env : Environment}
    (bindings : List Binding) :
    Keeps (assigning setting) (applyBindings self setting rule target env bindings) := by
  induction bindings with
  | nil => exact .pure _
  | cons binding rest ih => exact .bind explains.applyBinding fun _ => ih

theorem fillOutputs {rule : String} {outputs : Outputs} {env : Environment}
    (patterns : List OutPattern) :
    Keeps (assigning setting) (fillOutputs self setting rule outputs env patterns) := by
  induction patterns with
  | nil => exact .pure _
  | cons out rest ih => exact .bind (explains.applyBindings _) fun _ => ih

theorem fillApplication (rule : String) (patterns : List OutPattern) (outputs : Outputs)
    (scope : Named Value) :
    Keeps (assigning setting) (fillApplication self setting rule patterns outputs scope) :=
  .bind (noteRule_assigning rule) fun _ => explains.fillOutputs patterns

theorem executeStatement (env : Environment) (statement : Statement) :
    Keeps (assigning setting) (executeStatement self setting env statement) := by
  cases statement with
  | evaluate e => exact explains.kept env e
  | assign target feature e =>
    refine working_assigning ?_ fun {answer w s u} ended => ?_
    · refine .bind (explains.kept env e) fun v => .bind (.ofResult _) fun object => ?_
      have assigned : Keeps (assigning setting) (do
          Run.modify fun s : Engine => { s with bindingsEvaluated := s.bindingsEvaluated + 1 }
          return (v, ← assign setting object feature v)) :=
        .bind (modify_assigning fun _ => ⟨rfl, rfl, rfl, rfl⟩) fun _ =>
          .bind (assign_assigning _ _ _) fun _ => .pure _
      refine .bind .state fun s => ?_
      split
      · exact .bind (.fail _) fun _ => assigned
      · exact assigned
    · obtain ⟨v, x, evaluated, ended⟩ := bind_eq_value.1 ended
      obtain ⟨object, _, found, ended⟩ := bind_eq_value.1 ended
      obtain ⟨known, rfl⟩ := ofResult_eq_value.1 found
      obtain ⟨_, _, read, ended⟩ := bind_eq_value.1 ended
      obtain ⟨rfl, rfl⟩ := state_eq_value.1 read
      split at ended
      · simp [bind_eq_value] at ended
      obtain ⟨_, _, counted, ended⟩ := bind_eq_value.1 ended
      obtain rfl := modify_eq_value.1 counted
      obtain ⟨w, _, assigned, ended⟩ := bind_eq_value.1 ended
      obtain ⟨same, rfl⟩ := pure_eq_value.1 ended
      cases same
      obtain ⟨hands, h, rfl, store, accepted, -⟩ := assign_hands assigned
      have target : (env.get? target).getD .undefined = .object h := by
        rw [lookup_eq_ok known]
        rfl
      exact ⟨_, _, explains.evaluates rfl evaluated, hands, h, store, target, accepted⟩

theorem executeBody (env : Environment) (last : Value) (body : List Statement) :
    Keeps (assigning setting) (executeBody self setting env last body) := by
  induction body generalizing last with
  | nil => exact .pure _
  | cons statement rest ih => exact .bind (explains.executeStatement env statement) fun v => ih v

theorem executeCalled (rule : CalledRule) (args : List Value) :
    Keeps (assigning setting) (executeCalled self setting t rule args) := by
  refine .bind (noteRule_assigning _) fun _ => .bind (makeTargets_assigning _) fun outputs => ?_
  refine .bind (applying_assigning ?_) fun _ => .pure _
  exact .bind (explains.fillApplication _ _ _ _) fun _ => explains.executeBody _ _ _

theorem request (rule : LazyRule) (argument : Value) :
    Keeps (assigning setting) (LazyCache.request cachePlace (createLazy t rule argument)
      (fillLazy self setting rule argument) rule.name argument) := by
  have remembering (change : LazyCache → LazyCache) :
      Keeps (assigning setting) (Run.modify (cachePlace.change change)) :=
    modify_assigning fun _ => ⟨rfl, rfl, rfl, rfl⟩
  refine .bind .state fun s => ?_
  split
  · exact .bind (remembering _) fun _ => .pure _
  · refine .bind (remembering _) fun _ => .bind ?_ fun outputs => .bind (remembering _) fun _ => ?_
    · refine .bind (noteRule_assigning _) fun _ => .bind (makeTargets_assigning _) fun outputs => ?_
      refine .bind (registerLink_assigning _ _ _) fun _ => ?_
      exact .bind (modify_assigning fun _ => ⟨rfl, rfl, rfl, rfl⟩) fun _ => .pure _
    · refine .bind (applying_assigning (explains.fillApplication _ _ _ _)) fun _ => ?_
      exact .bind (remembering _) fun _ => .pure _

omit explains in
theorem enterRule (rule : String) : Keeps (assigning setting) (enterRule setting rule) := by
  refine .bind .state fun s => ?_
  split
  · exact .fail _
  · exact modify_assigning fun _ => ⟨rfl, rfl, rfl, rfl⟩

omit explains in
/-- Leaving a rule concerns nothing but how deep rules are nested. -/
theorem leaving {α : Type} {run : Run Engine α} (kept : Keeps (assigning setting) run) :
    Keeps (assigning setting) (Run.ensuring leave run) :=
  fun s => (kept s).ensuring (fun _ => .silent rfl rfl rfl rfl)
    fun assigns => assigns.trans (.silent rfl rfl rfl rfl)

theorem invokeLazy (rule : LazyRule) (argument : Value) :
    Keeps (assigning setting) (invokeLazy self setting t rule argument) := by
  refine .bind (refuseWhileMatching_keeps _) fun _ => ?_
  split
  · exact .pure _
  refine .bind (checkArgument_keeps _ _ _) fun _ => .bind (enterRule _) fun _ => ?_
  refine .bind (nest_alike ?_ fun _ _ => evaluations_lazy ..) fun answered => ?_
  · exact .bind (leaving (explains.request rule _)) fun _ => .bind .state fun _ => .pure _
  · dsimp only
    split
    · exact .bind (modify_assigning fun _ => ⟨rfl, rfl, rfl, rfl⟩) fun _ => .pure _
    · exact .pure _

theorem invokeCalled (rule : CalledRule) (args : List Value) :
    Keeps (assigning setting) (invokeCalled self setting t rule args) := by
  refine .bind (refuseWhileMatching_keeps _) fun _ => ?_
  split
  · intro s
    exact .bind (Keeps.fail _ s) fun failed => absurd failed fail_ne_value
  refine .bind (checkArguments_keeps _ _ _) fun _ => .bind ?_ fun recorded => ?_
  · refine .bind .state fun s => ?_
    split
    · exact .pure _
    · exact .bind (modify_assigning fun _ => ⟨rfl, rfl, rfl, rfl⟩) fun _ => .pure _
  cases recorded with
  | some result =>
    refine .bind (.modify fun s => ⟨rfl, rfl, rfl, _, rfl, ?_⟩) fun _ => .pure _
    exact List.forall_mem_nil _
  | none =>
    refine .bind (enterRule _) fun _ => .bind ?_ fun answered => ?_
    · exact nest_alike (leaving (inFrame_assigning (explains.executeCalled rule args)))
        fun _ _ => evaluations_called ..
    · refine .bind (modify_assigning fun _ => ⟨rfl, rfl, rfl, rfl⟩) fun _ => ?_
      exact .bind (modify_assigning fun _ => ⟨rfl, rfl, rfl, rfl⟩) fun _ => .pure _

theorem serves : Serves (assigning setting) setting self where
  quiet quiet := by
    obtain ⟨_, _, _, _, _, _, _, _, _, rfl⟩ := quiet
    exact .silent rfl rfl rfl rfl
  expression := explains.kept
  lazy _ v := explains.invokeLazy _ v
  called _ args := explains.invokeCalled _ args

theorem callRuleWith (name : String) (args : List Value) :
    Keeps (assigning setting) (callRuleWith self setting t name args) := by
  refine .bind .state fun s => ?_
  split
  · exact .fail _
  · split
    · exact .fail _
    · exact explains.invokeCalled _ args

theorem fillAll (work : List (Application × Outputs)) :
    Keeps (assigning setting) (fillAll self setting work) := by
  induction work with
  | nil => exact .pure _
  | cons item rest ih =>
    exact .bind (applying_assigning (explains.fillApplication _ _ _ _)) fun _ => ih

theorem resolveFrom (bound position : Nat) :
    Keeps (assigning setting) (resolveFrom self setting bound position) := by
  induction bound generalizing position with
  | zero => exact .cutOff fun _ => trivial
  | succ bound ih =>
    refine .bind .state fun s => ?_
    split
    · exact .pure _
    · refine .bind (.bind explains.applyBinding fun _ => ?_) fun _ => ih _
      exact modify_assigning fun _ => ⟨rfl, rfl, rfl, rfl⟩

end Explains

theorem runPhase_assigning {setting : Setting} {phase : Phase} {work : Run Engine Unit}
    (kept : Keeps (assigning setting) work) :
    Keeps (assigning setting) (runPhase setting phase work) := by
  have advanced : Keeps (assigning setting) (advance phase) := by
    refine .bind .state fun s => ?_
    split
    · exact modify_assigning fun _ => ⟨rfl, rfl, rfl, rfl⟩
    · exact .fail _
  refine .bind advanced fun _ => .bind kept fun _ => ?_
  split
  · exact modify_assigning fun _ => ⟨rfl, rfl, rfl, rfl⟩
  · exact .pure _

theorem evaluateUntil_explains (stop : Interruption) (setting : Setting) (depth : Nat) :
    Explains setting (evaluateUntil stop setting depth) := by
  induction depth with
  | zero =>
    exact ⟨fun _ _ => .cutOff fun _ => trivial, fun _ ended => by cases ended⟩
  | succ depth ih =>
    exact ⟨evaluateUntil_succ_keeps ih.serves, fun snapshot ended => ⟨_, _, _, _, snapshot, ended⟩⟩

/-- Nothing was assigned before everything was created, and what was assigned is explained. -/
def Accounted (setting : Setting) (u : Engine) : Prop :=
  ∀ e ∈ evaluations u.history,
    u.created.length = (scheduled u).length ∧ Explained setting u.trace e

section
variable {setting : Setting} {t : Transformation} {self : Evaluator} {store : Store}
  {log : List LogRecord} {s u : Engine}

theorem Accounted.silent (silent : u.history = []) : Accounted setting u := by
  intro e member
  rw [silent] at member
  cases member

/-- From a state in which everything is created. -/
theorem Accounted.assigns (accounted : Accounted setting s) (assigns : Assigns setting s u)
    (covered : s.created.length = (scheduled s).length) : Accounted setting u := by
  obtain ⟨done, history, told⟩ := assigns.told
  intro e member
  refine ⟨?_, ?_⟩
  · rw [assigns.created, scheduled, assigns.schedule]
    exact covered
  · rw [history, evaluations_append, List.mem_append] at member
    rcases member with old | new
    · exact (accounted e old).2.congr assigns.matched.symm
    · exact told e new

theorem phases_accounted {bound : Nat} (explains : Explains setting self)
    (guarded : ∀ env e, Keeps guarding (self env e))
    (left : (phases self bound setting t { store, log }).state? = some u) : Accounted setting u := by
  rw [phases_eq_bind, prepareWalk, bind_assoc] at left
  obtain ⟨fault, failed⟩ | ⟨_, b, prepared, left⟩ := Outcome.state?_bind left
  · have unset : Unset store u := by
      obtain ⟨_, -, left⟩ | left := matchAndCreate_left guarded (Outcome.state?_failure failed)
      · exact left.creation (by decide)
      · exact left.creation (by decide)
    exact .silent unset.history
  · obtain ⟨-, unset⟩ := matchAndCreate_at guarded prepared
    have covered : b.created.length = (scheduled b).length := by
      obtain ⟨_, a, matched, created⟩ := bind_eq_value.1 prepared
      obtain ⟨-, untouched⟩ := matching_untouched guarded (Outcome.state?_value matched)
      exact Standard.created_of_runPhase untouched.created created
    have filled : Keeps (assigning setting) (fillScheduled self setting) :=
      .bind .state fun _ => explains.fillAll _
    have rest : Keeps (assigning setting) (do
        runPhase setting .initialization (fillScheduled self setting)
        runPhase setting .resolution (resolveFrom self setting bound 0)) :=
      .bind (runPhase_assigning filled) fun _ => runPhase_assigning (explains.resolveFrom bound 0)
    exact (Accounted.silent unset.history).assigns (rest.left id left) covered

theorem runWith_accounted {bound : Nat} (explains : Explains setting self)
    (guarded : ∀ env e, Keeps guarding (self env e))
    (left : (runWith self bound setting t { store, log }).state? = some u) : Accounted setting u :=
  runWith_left left (fun _ left => phases_accounted explains guarded left)
    (fun _ _ accounted => accounted) fun _ _ accounted => accounted

/-- However a run and the calls after it end, what was assigned is explained. -/
theorem Reaches.accounted (given : setting.transformation = some t)
    (reaches : Reaches setting t store log u) : Accounted setting u := by
  induction reaches with
  | @within stop depth bound s left =>
    exact phases_accounted (evaluateUntil_explains stop setting depth)
      (evaluateUntil_guarding stop setting depth) left
  | @ran stop depth bound s left =>
    exact runWith_accounted (evaluateUntil_explains stop setting depth)
      (evaluateUntil_guarding stop setting depth) left
  | @called stop depth name args s u earlier left accounted =>
    by_cases complete : s.phase = .complete
    · have explains := evaluateUntil_explains stop setting depth
      obtain ⟨-, staged⟩ := earlier.career given
      exact accounted.assigns ((explains.callRuleWith name args).left id left)
        (staged.behind (.inr (.inr complete)))
    · rw [callRuleWith_refused complete] at left
      cases left
      exact accounted

end

end Engine

end Metamorph
