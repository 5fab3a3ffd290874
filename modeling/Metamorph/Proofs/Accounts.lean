import Metamorph.Proofs.PhaseOrder
import Metamorph.Proofs.Tally

/-! The counters of a run against the rules it applied. Making objects and setting features is owed to
an application that is still going on; once its event is told, the rule in it answers for both. -/
namespace Metamorph

namespace Engine
open Run

/-- What the counters say. -/
def tally (t : Transformation) (s : Engine) : Tally where
  objects := s.objectsCreated
  members := t.population s.store
  bindings := s.bindingsEvaluated
  matched := s.matchedApplied
  lazies := s.lazyApplied
  calls := s.calledApplied
  resolved := s.deferredResolved

/-- By these events the counters went up by what the rules in them count for, and by the given dues. -/
structure Ledger (t : Transformation) (dues : Tally) (done : List Event) (s u : Engine) : Prop where
  history : u.history = s.history ++ done
  schedule : u.schedule = s.schedule
  tally : u.tally t = s.tally t + dues + total t.module done

namespace Ledger
variable {t : Transformation} {dues owed : Tally} {done more inner : List Event}
  {s a u v w : Engine}

/-- Nothing is told, and the counters go up by the dues. -/
theorem count (history : u.history = s.history) (schedule : u.schedule = s.schedule)
    (tally : u.tally t = s.tally t + dues) : Ledger t dues [] s u where
  history := by rw [history, List.append_nil]
  schedule
  tally := by rw [tally, total_nil, add_zero]

theorem same (history : u.history = s.history) (schedule : u.schedule = s.schedule)
    (tally : u.tally t = s.tally t) : Ledger t 0 [] s u :=
  count history schedule (by rw [tally, add_zero])

theorem quiet (quiet : Quiet s u) : Ledger t 0 [] s u := by
  obtain ⟨_, _, _, _, _, _, _, _, _, rfl⟩ := quiet
  exact same rfl rfl rfl

theorem refl (s : Engine) : Ledger t 0 [] s s := same rfl rfl rfl

theorem trans (first : Ledger t dues done s u) (rest : Ledger t owed more u w) :
    Ledger t (dues + owed) (done ++ more) s w where
  history := by rw [rest.history, first.history, List.append_assoc]
  schedule := rest.schedule.trans first.schedule
  tally := by
    rw [rest.tally, first.tally, total_append]
    abel

theorem trans_nil (first : Ledger t dues done s u) (rest : Ledger t owed [] u w) :
    Ledger t (dues + owed) done s w := by
  simpa using first.trans rest

theorem nil_trans (first : Ledger t dues [] s u) (rest : Ledger t owed more u w) :
    Ledger t (dues + owed) more s w :=
  first.trans rest

theorem then_same (first : Ledger t dues done s u) (rest : Ledger t 0 [] u w) :
    Ledger t dues done s w := by
  simpa using first.trans_nil rest

theorem same_then (first : Ledger t 0 [] s u) (rest : Ledger t dues done u w) :
    Ledger t dues done s w := by
  simpa using first.nil_trans rest

/-- A phase is entered, and noted once its work is done. -/
theorem phase {phase : Phase} (work : Ledger t dues done (enterPhase phase s) u)
    (noted : Quiet u w) : Ledger t dues done s w := by
  have entered : Ledger t 0 [] s (enterPhase phase s) := same rfl rfl rfl
  exact (entered.same_then work).then_same (quiet noted)

/-- What happened with a history of its own is told as one event. -/
theorem telling {event : Event} (ledger : Ledger t dues inner a u) (begun : a.history = [])
    (schedule : a.schedule = s.schedule) (tally : a.tally t = s.tally t)
    (balance : dues + total t.module u.history = owed + total t.module [event]) :
    Ledger t owed [event] s (telling s event u) where
  history := rfl
  schedule := ledger.schedule.trans schedule
  tally := by
    have told : u.history = inner := by simpa [begun] using ledger.history
    change u.tally t = _
    rw [ledger.tally, tally, add_assoc, ← told, balance, add_assoc]

theorem set {h : Handle} {feature : String} {v : Value} {store : Store}
    (accepted : s.store.set h feature v = .ok store) :
    Ledger t (.bound 1) [] s (settled store s) := by
  refine count rfl rfl ?_
  simp only [Engine.tally, settled, population_set accepted]
  rfl

theorem noticing (complete : Bool) : Ledger t 0 [] s (Engine.noticing complete s) := by
  unfold Engine.noticing
  split
  · exact refl s
  · exact same rfl rfl rfl

theorem waiting (met : Bool) (d : DeferredBinding) :
    Ledger t 0 [] s (Engine.waiting met d s) := by
  unfold Engine.waiting
  split
  · exact same rfl rfl rfl
  · exact refl s

end Ledger

/-- Expressions are evaluated with no dues left. -/
def balancing (t : Transformation) : Conduct Engine :=
  .ofEnds (fun s u => ∃ done, Ledger t 0 done s u) (fun s => ⟨[], .refl s⟩)
    (fun ⟨_, first⟩ ⟨_, rest⟩ => ⟨_, by simpa using first.trans rest⟩)

def Balances (t : Transformation) (self : Evaluator) : Prop :=
  ∀ env e, Keeps (balancing t) (self env e)

section
variable {setting : Setting} {t : Transformation} {self : Evaluator} {s u : Engine}

theorem makeTargets_ledger (distinct : t.DistinctTargets) {patterns : List OutPattern}
    {outputs : Outputs} (ended : makeTargets t patterns s = .value outputs u) :
    Ledger t (.made patterns.length) [] s u := by
  induction patterns generalizing s outputs with
  | nil =>
    obtain ⟨-, rfl⟩ := pure_eq_value.1 ended
    exact .refl s
  | cons out rest ih =>
    obtain ⟨v, w, first, ended⟩ := bind_eq_value.1 ended
    obtain ⟨others, x, more, ended⟩ := bind_eq_value.1 ended
    obtain ⟨-, rfl⟩ := pure_eq_value.1 ended
    obtain ⟨provider, h, store, chosen, created, rfl, rfl⟩ := makeTarget_eq_value first
    obtain ⟨name, target⟩ := targetProvider_mem chosen
    have one : Ledger t (.made 1) [] s (owning h provider store s) := by
      refine .count rfl rfl ?_
      simp only [tally, owning, population_create distinct target created]
      rfl
    rw [List.length_cons, Nat.add_comm, Tally.made_add]
    exact one.trans (ih more)

theorem registerLink_ledger {rule : String} {source : Value} {outputs : Outputs} {kind : LinkKind}
    (ended : registerLink rule source outputs kind s = .value () u) : Ledger t 0 [] s u := by
  obtain ⟨link, trace, -, rfl⟩ := registerLink_eq_value ended
  exact .same rfl rfl rfl

theorem createLazy_ledger (distinct : t.DistinctTargets) {rule : LazyRule} {source : Value}
    {outputs : Outputs} (ended : createLazy t rule source s = .value outputs u) :
    Ledger t (.made rule.outputs.length + { lazies := 1 }) [] s u := by
  obtain ⟨_, _, noted, ended⟩ := bind_eq_value.1 ended
  obtain rfl := modify_eq_value.1 noted
  obtain ⟨made, w, created, ended⟩ := bind_eq_value.1 ended
  obtain ⟨_, x, linked, ended⟩ := bind_eq_value.1 ended
  simp only [bind_eq_value, modify_eq_value, pure_eq_value] at ended
  obtain ⟨_, _, rfl, rfl, rfl⟩ := ended
  have making := (Ledger.quiet (noteRule_quiet _ s)).same_then (makeTargets_ledger distinct created)
  have counted : Ledger t { lazies := 1 } [] x { x with lazyApplied := x.lazyApplied + 1 } :=
    .count rfl rfl rfl
  exact (making.then_same (registerLink_ledger linked)).trans counted

namespace Balances

theorem applyBinding (balances : Balances t self) {rule : String} {target : Value}
    {binding : Binding} {env : Environment} {deferrable : Bool} {replay : List CalledResult}
    (ended : applyBinding self setting rule target binding env deferrable replay s = .value () u) :
    ∃ done, Ledger t (.bound 1) done s u := by
  obtain ⟨v, w, h, stored, store, evaluated, rfl, accepted, rfl⟩ := applyBinding_eq_value ended
  obtain ⟨inner, ledger⟩ := (balances _ _).value evaluated
  have left : Ledger t 0 [] w w.popFrame := .same rfl rfl rfl
  have assigned := (ledger.then_same left).trans_nil (.set accepted)
  rw [zero_add] at assigned
  refine .imp (fun _ told => Ledger.then_same told (.waiting _ _)) ?_
  exact ⟨_, assigned.telling rfl rfl rfl (by rw [total_assignment]; rfl)⟩

theorem applyBindings (balances : Balances t self) {rule : String} {target : Value}
    {env : Environment} {bindings : List Binding}
    (ended : applyBindings self setting rule target env bindings s = .value () u) :
    ∃ done, Ledger t (.bound bindings.length) done s u := by
  induction bindings generalizing s with
  | nil =>
    obtain ⟨-, rfl⟩ := pure_eq_value.1 ended
    exact ⟨[], .refl s⟩
  | cons binding rest ih =>
    obtain ⟨_, w, applied, ended⟩ := bind_eq_value.1 ended
    obtain ⟨done, first⟩ := balances.applyBinding applied
    obtain ⟨more, behind⟩ := ih ended
    rw [List.length_cons, Nat.add_comm, Tally.bound_add]
    exact ⟨_, first.trans behind⟩

theorem fillOutputs (balances : Balances t self) {rule : String} {outputs : Outputs}
    {env : Environment} {patterns : List OutPattern}
    (ended : fillOutputs self setting rule outputs env patterns s = .value () u) :
    ∃ done, Ledger t (.bound (bindingCount patterns)) done s u := by
  induction patterns generalizing s with
  | nil =>
    obtain ⟨-, rfl⟩ := pure_eq_value.1 ended
    exact ⟨[], .refl s⟩
  | cons out rest ih =>
    obtain ⟨_, w, applied, ended⟩ := bind_eq_value.1 ended
    obtain ⟨done, first⟩ := balances.applyBindings applied
    obtain ⟨more, behind⟩ := ih ended
    exact ⟨_, first.trans behind⟩

theorem fillApplication (balances : Balances t self) {rule : String} {patterns : List OutPattern}
    {outputs : Outputs} {scope : Named Value}
    (ended : fillApplication self setting rule patterns outputs scope s = .value () u) :
    ∃ done, Ledger t (.bound (bindingCount patterns)) done s u := by
  obtain ⟨_, _, noted, ended⟩ := bind_eq_value.1 ended
  obtain rfl := modify_eq_value.1 noted
  obtain ⟨done, filled⟩ := balances.fillOutputs ended
  exact ⟨done, (Ledger.quiet (noteRule_quiet rule s)).same_then filled⟩

theorem executeStatement (balances : Balances t self) {env : Environment} {statement : Statement}
    {v : Value} (ended : executeStatement self setting env statement s = .value v u) :
    ∃ done, Ledger t (.bound ([statement].countP Statement.assigns)) done s u := by
  cases statement with
  | evaluate e => exact (balances _ _).value ended
  | assign target feature e =>
    obtain ⟨stored, x, inside, rfl⟩ := working_eq_value.1 ended
    obtain ⟨w, y, evaluated, inside⟩ := bind_eq_value.1 inside
    simp only [bind_eq_value, ofResult_eq_value, state_eq_value, guarded_eq_value, modify_eq_value,
      pure_eq_value, Prod.mk.injEq] at inside
    obtain ⟨object, _, ⟨-, rfl⟩, _, _, ⟨rfl, rfl⟩, -, _, _, rfl, value, z, assigned,
      ⟨rfl, rfl⟩, rfl⟩ := inside
    obtain ⟨h, store, rfl, -, accepted, rfl⟩ := assign_eq_value assigned
    obtain ⟨inner, ledger⟩ := (balances _ _).value evaluated
    have set : Ledger t (.bound 1) [] y (settled store y) := .set accepted
    have assigned := ledger.trans_nil set
    rw [zero_add] at assigned
    exact ⟨_, assigned.telling rfl rfl rfl (by rw [total_assignment]; rfl)⟩

theorem executeBody (balances : Balances t self) {env : Environment} {last v : Value}
    {body : List Statement} (ended : executeBody self setting env last body s = .value v u) :
    ∃ done, Ledger t (.bound (body.countP Statement.assigns)) done s u := by
  induction body generalizing s last with
  | nil =>
    obtain ⟨-, rfl⟩ := pure_eq_value.1 ended
    exact ⟨[], .refl s⟩
  | cons statement rest ih =>
    obtain ⟨w, x, executed, ended⟩ := bind_eq_value.1 ended
    obtain ⟨done, first⟩ := balances.executeStatement executed
    obtain ⟨more, behind⟩ := ih ended
    rw [← List.singleton_append, List.countP_append, Tally.bound_add]
    exact ⟨_, first.trans behind⟩

theorem fillLazy (balances : Balances t self) {rule : LazyRule} {source : Value} {outputs : Outputs}
    (ended : fillLazy self setting rule source outputs s = .value () u) :
    ∃ event, Ledger t (.bound (bindingCount rule.outputs)) [event] s u := by
  unfold Engine.fillLazy at ended
  obtain ⟨w, filled, rfl⟩ := applying_eq_value.1 ended
  obtain ⟨inner, ledger⟩ := balances.fillApplication filled
  exact ⟨_, ledger.telling rfl rfl rfl (by rw [total_application])⟩

theorem executeCalled (balances : Balances t self) (distinct : t.DistinctTargets)
    {rule : CalledRule} {args : List Value} {v : Value}
    (ended : executeCalled self setting t rule args s = .value v u) :
    ∃ done, Ledger t (.made rule.outputs.length + .bound (Rule.called rule).assignments) done s u := by
  obtain ⟨_, _, noted, ended⟩ := bind_eq_value.1 ended
  obtain rfl := modify_eq_value.1 noted
  obtain ⟨outputs, w, made, ended⟩ := bind_eq_value.1 ended
  obtain ⟨last, x, worked, ended⟩ := bind_eq_value.1 ended
  obtain ⟨-, rfl⟩ := pure_eq_value.1 ended
  obtain ⟨y, inside, rfl⟩ := applying_eq_value.1 worked
  obtain ⟨_, z, filled, executed⟩ := bind_eq_value.1 inside
  obtain ⟨done, first⟩ := balances.fillApplication filled
  obtain ⟨more, behind⟩ := balances.executeBody executed
  have making := (Ledger.quiet (noteRule_quiet _ s)).same_then (makeTargets_ledger distinct made)
  have working := first.trans behind
  rw [← Tally.bound_add] at working
  exact ⟨_, making.nil_trans (working.telling rfl rfl rfl (by rw [total_application]; rfl))⟩

/-- A request that is told as one event leaves no dues, whether it is answered from memory or not. -/
theorem request (balances : Balances t self) (distinct : t.DistinctTargets) {rule : LazyRule}
    (known : t.module.lazyRule? rule.name = some rule) {argument : Value} {outputs : Outputs}
    (complete : Bool) (result : Option Value)
    (ended : LazyCache.request cachePlace (createLazy t rule argument)
      (Engine.fillLazy self setting rule argument) rule.name argument { s with history := [] } =
        .value outputs u) :
    Ledger t 0 [.lazy rule.name argument complete result u.history] s
      (telling s (.lazy rule.name argument complete result u.history) u) := by
  obtain ⟨entry, found, rfl, rfl⟩ | ⟨missing, a, b, created, filled, rfl⟩ := request_eq_value ended
  · have hit : Ledger t 0 [] { s with history := [] } { s with history := [], cache := s.cache.hit } :=
      .same rfl rfl rfl
    exact hit.telling rfl rfl rfl rfl
  · obtain ⟨event, filling⟩ := balances.fillLazy filled
    have making := createLazy_ledger distinct created
    have started : Ledger t 0 [] a { a with cache := a.cache.start rule.name argument outputs } :=
      .same rfl rfl rfl
    have finished : Ledger t 0 [] b { b with cache := b.cache.finish rule.name argument } :=
      .same rfl rfl rfl
    have applied := ((making.then_same started).nil_trans filling).then_same finished
    have within : b.history = [event] := applied.history
    refine applied.telling rfl rfl rfl ?_
    rw [total_lazy known within, Rule.tally_lazy]
    abel

theorem invokeLazy (balances : Balances t self) (distinct : t.DistinctTargets) {rule : LazyRule}
    (known : t.module.lazyRule? rule.name = some rule) {argument v : Value}
    (ended : invokeLazy self setting t rule argument s = .value v u) :
    ∃ done, Ledger t 0 done s u := by
  obtain ⟨_, _, refused, ended⟩ := bind_eq_value.1 ended
  obtain rfl := (refuseWhileMatching_keeps (c := .still) _).value refused
  split at ended
  · obtain ⟨-, rfl⟩ := pure_eq_value.1 ended
    exact ⟨[], .refl s⟩
  obtain ⟨_, _, checked, ended⟩ := bind_eq_value.1 ended
  obtain rfl := (checkArgument_keeps (c := .still) _ _ _).value checked
  obtain ⟨_, _, entered, ended⟩ := bind_eq_value.1 ended
  obtain rfl := enterRule_eq_value entered
  obtain ⟨⟨result, complete⟩, w, invoked, ended⟩ := bind_eq_value.1 ended
  obtain ⟨x, inside, rfl⟩ := nest_eq_telling.1 invoked
  obtain ⟨made, _, requested, inside⟩ := bind_eq_value.1 inside
  obtain ⟨y, answered, rfl⟩ := ensuring_eq_value.1 requested
  simp only [bind_eq_value, state_eq_value, pure_eq_value, Prod.mk.injEq] at inside
  obtain ⟨_, _, ⟨rfl, rfl⟩, ⟨rfl, rfl⟩, rfl⟩ := inside
  obtain rfl := noticing_eq_value ended
  have entering : Ledger t 0 [] s s.enter := .same rfl rfl rfl
  have told (complete result) :=
    entering.same_then (balances.request distinct known complete result answered)
  have left (event) : Ledger t 0 [] (telling s.enter event y) (telling s.enter event y.leave) :=
    .same rfl rfl rfl
  exact ⟨_, ((told _ _).then_same (left _)).then_same (.noticing _)⟩

theorem invokeCalled (balances : Balances t self) (distinct : t.DistinctTargets)
    {rule : CalledRule} (known : t.module.calledRule? rule.name = some rule) {args : List Value}
    {v : Value} (ended : invokeCalled self setting t rule args s = .value v u) :
    ∃ done, Ledger t 0 done s u := by
  obtain ⟨_, _, refused, ended⟩ := bind_eq_value.1 ended
  obtain rfl := (refuseWhileMatching_keeps (c := .still) _).value refused
  obtain ⟨-, ended⟩ := guarded_eq_value.1 ended
  obtain ⟨_, _, checked, ended⟩ := bind_eq_value.1 ended
  obtain rfl := (checkArguments_keeps (c := .still) _ _ _).value checked
  obtain ⟨answer, w, asked, answered⟩ := bind_eq_value.1 ended
  -- Either the rule is executed, or an earlier result answers and nothing is owed.
  obtain ⟨unkept, rfl, rfl⟩ | ⟨call, frame, kept, rfl, rfl⟩ := recorded?_eq_value asked
  · obtain ⟨_, _, entered, going⟩ := bind_eq_value.1 answered
    obtain rfl := enterRule_eq_value entered
    obtain ⟨⟨result, after⟩, x, invoked, going⟩ := bind_eq_value.1 going
    obtain ⟨y, inside, rfl⟩ := nest_eq_telling.1 invoked
    obtain ⟨z, framed, rfl⟩ := ensuring_eq_value.1 inside
    obtain ⟨a, ran, rfl, rfl⟩ := inFrame_eq_value.1 framed
    obtain ⟨inner, executed⟩ := balances.executeCalled distinct ran
    simp only [bind_eq_value, modify_eq_value, pure_eq_value] at going
    obtain ⟨_, _, rfl, _, _, rfl, rfl, rfl⟩ := going
    have counted : Ledger t { calls := 1 } [] a
        { a.popFrame.leave with calledApplied := a.calledApplied + 1 } := .count rfl rfl rfl
    have told : Ledger t 0 [.called rule.name args (some result) a.history] w
        (telling w (.called rule.name args (some result) a.history)
          { a.popFrame.leave with calledApplied := a.calledApplied + 1 }) := by
      refine (executed.trans_nil counted).telling rfl rfl rfl ?_
      rw [total_called known, Rule.tally_called]
      change _ + total t.module a.history = _
      abel
    exact ⟨_, told.then_same (.same rfl rfl rfl)⟩
  · simp only [bind_eq_value, modify_eq_value, pure_eq_value] at answered
    obtain ⟨_, _, rfl, rfl, rfl⟩ := answered
    exact ⟨_, rfl, rfl, (add_zero _).symm⟩

theorem fillAll (balances : Balances t self) {work : List (Application × Outputs)}
    (ended : fillAll self setting work s = .value () u) :
    ∃ done, Ledger t (work.map fun item => .bound (bindingCount item.1.rule.outputs)).sum done s u := by
  induction work generalizing s with
  | nil =>
    obtain ⟨-, rfl⟩ := pure_eq_value.1 ended
    exact ⟨[], .refl s⟩
  | cons item rest ih =>
    obtain ⟨_, w, worked, ended⟩ := bind_eq_value.1 ended
    obtain ⟨x, filled, rfl⟩ := applying_eq_value.1 worked
    obtain ⟨inner, ledger⟩ := balances.fillApplication filled
    obtain ⟨more, behind⟩ := ih ended
    rw [List.map_cons, List.sum_cons]
    exact ⟨_, .trans (ledger.telling rfl rfl rfl (by rw [total_application])) behind⟩

theorem resolveDeferred (balances : Balances t self) {d : DeferredBinding}
    (ended : resolveDeferred self setting d s = .value () u) :
    ∃ done, Ledger t (.turns 1) done s u := by
  obtain ⟨_, w, applied, counted⟩ := bind_eq_value.1 ended
  obtain rfl := modify_eq_value.1 counted
  obtain ⟨done, ledger⟩ := balances.applyBinding applied
  have counted : Ledger t { resolved := 1 } [] w
      { w with deferredResolved := w.deferredResolved + 1 } := .count rfl rfl rfl
  exact ⟨done, ledger.trans_nil counted⟩

/-- Every turn of the walk sets a feature and resolves a binding. -/
theorem resolveFrom (balances : Balances t self) {bound position : Nat}
    (ended : resolveFrom self setting bound position s = .value () u) :
    ∃ n done, Ledger t (.turns n) done s u := by
  induction bound generalizing s position with
  | zero => cases ended
  | succ bound ih =>
    obtain ⟨_, _, read, ended⟩ := bind_eq_value.1 ended
    obtain ⟨rfl, rfl⟩ := state_eq_value.1 read
    cases turn : s.deferred[position]? with
    | none =>
      simp only [turn, pure_eq_value] at ended
      obtain ⟨-, rfl⟩ := ended
      exact ⟨0, [], .refl s⟩
    | some d =>
      simp only [turn] at ended
      obtain ⟨_, w, redone, ended⟩ := bind_eq_value.1 ended
      obtain ⟨done, first⟩ := balances.resolveDeferred redone
      obtain ⟨n, more, rest⟩ := ih ended
      exact ⟨1 + n, _, first.trans rest⟩

theorem serves (balances : Balances t self) (distinct : t.DistinctTargets)
    (given : setting.transformation = some t) : Serves (balancing t) setting self where
  quiet quiet := ⟨[], .quiet quiet⟩
  expression := balances
  lazy := by
    rintro other rule ⟨running, known⟩ v
    obtain rfl := Option.some.inj (running.symm.trans given)
    exact .ofEnds (fun _ _ => trivial) (fun _ => trivial) (balances.invokeLazy distinct known)
  called := by
    rintro other rule ⟨running, known⟩ args
    obtain rfl := Option.some.inj (running.symm.trans given)
    exact .ofEnds (fun _ _ => trivial) (fun _ => trivial) (balances.invokeCalled distinct known)

end Balances

theorem evaluateWithin_balances (distinct : t.DistinctTargets)
    (given : setting.transformation = some t) (depth : Nat) :
    Balances t (evaluateWithin setting depth) :=
  evaluateWithin_keeps (fun _ => trivial) (fun _ balances => Balances.serves balances distinct given)
    depth

theorem matchObjects_examined {m : Module} {model : String} {objects : List Handle}
    {schedule final : Schedule}
    (ended : matchObjects self setting m model schedule objects s = .value final u) :
    final.examined = schedule.examined + objects.length := by
  induction objects generalizing schedule s with
  | nil =>
    obtain ⟨rfl, -⟩ := pure_eq_value.1 ended
    rfl
  | cons h rest ih =>
    obtain ⟨rule, w, selected, ended⟩ := bind_eq_value.1 ended
    have later := ih ended
    rw [later, List.length_cons]
    exact Nat.add_right_comm _ 1 _

/-- The objects of a list of models are examined once each, as they were before. -/
theorem matchModels_examined (guarded : ∀ env e, Keeps guarding (self env e)) {m : Module}
    {providers : Named Provider} {names : List String} {schedule final : Schedule}
    (matching : s.phase = .matching)
    (ended : matchModels self setting m providers schedule names s = .value final u) :
    final.examined = schedule.examined +
      ((names.filterMap providers.get?).flatMap fun p => s.store.members p.model).length := by
  induction names generalizing schedule s with
  | nil =>
    obtain ⟨rfl, -⟩ := pure_eq_value.1 ended
    rfl
  | cons name rest ih =>
    unfold matchModels at ended
    cases known : providers.get? name with
    | none => simp [known] at ended
    | some provider =>
      simp only [known, bind_eq_value, state_eq_value, collaborate_eq_value] at ended
      obtain ⟨_, _, ⟨rfl, rfl⟩, objects, _, ⟨listed, rfl⟩, between, w, matched, ended⟩ := ended
      have objects : s.store.members provider.model = objects :=
        Except.ok.inj (refuse_eq_ok listed)
      have serves : Serves guarding setting self := guarding_serves guarded
      have quiet := ((serves.guards m).matchObjects _ _ _).value matched matching
      have later := ih (quiet.phase.trans matching) ended
      have same : w.store = s.store := quiet.idle.store
      rw [later, matchObjects_examined matched, same, List.filterMap_cons, known, List.flatMap_cons,
        List.length_append, objects, Nat.add_assoc]

/-- What is created for the schedule, application by application. -/
theorem createAll_ledger (distinct : t.DistinctTargets) {apps : List Application}
    (ended : createAll t apps s = .value () u) :
    Ledger t (apps.map fun a => .made a.rule.outputs.length + { matched := 1 }).sum [] s u ∧
      u.created.length = s.created.length + apps.length := by
  induction apps generalizing s with
  | nil =>
    obtain ⟨-, rfl⟩ := pure_eq_value.1 ended
    exact ⟨.refl s, rfl⟩
  | cons a rest ih =>
    obtain ⟨_, _, noted, ended⟩ := bind_eq_value.1 ended
    obtain rfl := modify_eq_value.1 noted
    obtain ⟨outputs, w, made, ended⟩ := bind_eq_value.1 ended
    obtain ⟨_, x, linked, ended⟩ := bind_eq_value.1 ended
    obtain ⟨_, _, counted, ended⟩ := bind_eq_value.1 ended
    obtain rfl := modify_eq_value.1 counted
    obtain ⟨behind, created⟩ := ih ended
    have making := (Ledger.quiet (noteRule_quiet _ s)).same_then (makeTargets_ledger distinct made)
    have counted : Ledger t { matched := 1 } [] x
        { x with created := x.created ++ [outputs], matchedApplied := x.matchedApplied + 1 } :=
      .count rfl rfl rfl
    have one := (making.then_same (registerLink_ledger linked)).trans counted
    refine ⟨?_, ?_⟩
    · rw [List.map_cons, List.sum_cons]
      exact one.trans behind
    · have kept : w.created = s.created := ((makeTargets_keeps _).value made).others.created
      obtain ⟨link, trace, -, rfl⟩ := registerLink_eq_value linked
      rw [created, List.length_append, kept, List.length_cons]
      exact Nat.add_right_comm _ _ _

/-- What matching leaves: a schedule over the source objects, and nothing counted. -/
theorem matching_account (guarded : ∀ env e, Keeps guarding (self env e)) {store : Store}
    {log : List LogRecord}
    (ended : runPhase setting .matching (matchSources self setting t) { store, log } = .value () u) :
    u.tally t = { members := t.population store } ∧ u.history = [] ∧ u.created = [] ∧
      u.counters.elementsProcessed = (t.sourceObjects store).length := by
  obtain ⟨w, worked, quietly⟩ := runPhase_eq_value ended
  obtain ⟨schedule, v, built, planned⟩ := bind_eq_value.1 worked
  obtain rfl := modify_eq_value.1 planned
  have examined := matchModels_examined guarded rfl built
  have still : Keeps guarding (buildSchedule self setting t.module t.sources) :=
    buildSchedule_guarded guarded
  obtain ⟨_, _, _, _, _, _, _, _, _, rfl⟩ := still.value built rfl
  obtain ⟨_, _, _, _, _, _, _, _, _, rfl⟩ := quietly
  refine ⟨rfl, rfl, rfl, ?_⟩
  change (schedule.examined : Int) = _
  rw [examined]
  exact congrArg Int.ofNat (Nat.zero_add _)

theorem sum_scheduled (apps : List Application) :
    (apps.map fun a => Tally.made a.rule.outputs.length + { matched := 1 }).sum +
      (apps.map fun a => Tally.bound (bindingCount a.rule.outputs)).sum =
    (apps.map fun a => (Rule.matched a.rule).tally).sum := by
  rw [← List.sum_map_add]
  refine congrArg List.sum (List.map_congr_left fun a _ => ?_)
  rw [Rule.tally_matched]
  abel

/-- Up to the walk the rules that were scheduled are applied, once each. -/
theorem prepareWalk_account (balances : Balances t self) (distinct : t.DistinctTargets)
    (guarded : ∀ env e, Keeps guarding (self env e)) {store : Store} {log : List LogRecord}
    (ended : prepareWalk self setting t { store, log } = .value () u) :
    u.tally t = { members := t.population store } +
        ((scheduled u).map fun a => (Rule.matched a.rule).tally).sum + total t.module u.history ∧
      u.counters.elementsProcessed = (t.sourceObjects store).length := by
  obtain ⟨_, b, prepared, filled⟩ := bind_eq_value.1 ended
  obtain ⟨_, a, matched, created⟩ := bind_eq_value.1 prepared
  obtain ⟨begun, told, nothing, examined⟩ := matching_account guarded matched
  -- creation
  obtain ⟨w, created, quietly⟩ := runPhase_eq_value created
  obtain ⟨_, _, read, created⟩ := bind_eq_value.1 created
  obtain ⟨rfl, rfl⟩ := state_eq_value.1 read
  obtain ⟨creation, count⟩ := createAll_ledger distinct created
  have creation := creation.phase quietly
  have planned : scheduled b = scheduled a := by rw [scheduled, creation.schedule, scheduled]
  have whole : b.created.length = (scheduled b).length := by
    rw [quietly.idle.created, count, planned]
    change a.created.length + _ = _
    rw [nothing]
    exact Nat.zero_add _
  -- initialization
  obtain ⟨x, filled, quietly'⟩ := runPhase_eq_value filled
  obtain ⟨_, _, read, filled⟩ := bind_eq_value.1 filled
  obtain ⟨rfl, rfl⟩ := state_eq_value.1 read
  obtain ⟨done, filling⟩ := balances.fillAll filled
  have filling := filling.phase quietly'
  have firsts : ((scheduled b).zip b.created).map (·.1) = scheduled a := by
    rw [← planned]
    exact List.map_fst_zip (Nat.le_of_eq whole.symm)
  have items : ((scheduled b).zip b.created).map
      (fun item => Tally.bound (bindingCount item.1.rule.outputs)) =
        (scheduled a).map fun a => Tally.bound (bindingCount a.rule.outputs) := by
    rw [← firsts, List.map_map]
    rfl
  have both := creation.nil_trans filling
  have told : u.history = done := by rw [both.history, told, List.nil_append]
  have same : scheduled u = scheduled a := by rw [scheduled, both.schedule, scheduled]
  refine ⟨?_, ?_⟩
  · rw [both.tally, begun, same, told, ← sum_scheduled, ← items]
    rfl
  · rw [← examined]
    simp only [counters, both.schedule]

/-- The rules a run applied, those of its schedule first. -/
def appliedRules (m : Module) (s : Engine) : List Rule :=
  ((scheduled s).map fun a => .matched a.rule) ++ rulesWithin m s.history

theorem countP_isMatched :
    (appliedRules t.module s).countP Rule.isMatched = (scheduled s).length := by
  have none : (rulesWithin t.module s.history).countP Rule.isMatched = 0 :=
    List.countP_eq_zero.2 fun r member => by simp [not_matched_of_mem_rulesWithin member]
  rw [appliedRules, List.countP_append, none, List.countP_map]
  exact List.countP_eq_length.2 fun _ _ => rfl

theorem runWith_account (balances : Balances t self) (distinct : t.DistinctTargets)
    (guarded : ∀ env e, Keeps guarding (self env e)) {store : Store} {log : List LogRecord}
    {bound : Nat} (ended : runWith self bound setting t { store, log } = .value () u) :
    u.tally t = { members := t.population store } +
        ((appliedRules t.module u).map Rule.tally).sum + .turns u.deferredResolved ∧
      u.counters.elementsProcessed = (t.sourceObjects store).length := by
  obtain ⟨c, w, e, prepared, walked, quietly, rfl⟩ := runWith_eq_value ended
  obtain ⟨before, examined⟩ := prepareWalk_account balances distinct guarded prepared
  obtain ⟨n, done, walk⟩ := balances.resolveFrom walked
  have complete : Ledger t 0 [] e (enterPhase .complete e) := .same rfl rfl rfl
  have walk := (walk.phase quietly).then_same complete
  have same : scheduled (enterPhase .complete e) = scheduled c := by
    rw [scheduled, walk.schedule, scheduled]
  have counted : (enterPhase .complete e).tally t = { members := t.population store } +
      ((appliedRules t.module (enterPhase .complete e)).map Rule.tally).sum + .turns n := by
    rw [walk.tally, before, appliedRules, same, walk.history, rulesWithin_append, List.map_append,
      List.map_append, List.sum_append, List.sum_append, List.map_map]
    simp only [total, Function.comp_def]
    abel
  have resolved : (enterPhase .complete e).deferredResolved = n := by
    have last := congrArg Tally.resolved counted
    rw [sum_tally] at last
    simpa [tally, Tally.turns] using last
  refine ⟨by rw [resolved, counted], ?_⟩
  rw [← examined]
  simp only [counters, walk.schedule]

end

end Engine

/-- From one store to another by setting features in turn, and by making objects in between. -/
inductive Edited : List (Handle × String × Value) → Store → Store → Prop
  | refl (store : Store) : Edited [] store store
  | trans {sets more store next last} (first : Edited sets store next)
      (rest : Edited more next last) : Edited (sets ++ more) store last
  | set {store next h feature v} (accepted : store.set h feature v = .ok next) :
      Edited [(h, feature, v)] store next
  | create {store next model type h} (created : store.create model type = .ok (h, next)) :
      Edited [] store next

/-- The feature that an evaluation set, and to what. -/
def Evaluation.setting? (e : Evaluation) : Option (Handle × String × Value) :=
  match e.work.target, e.stored with
  | .object h, some v => some (h, e.work.feature, v)
  | _, _ => none

/-- The features that were set among the events and within them. -/
def settings (events : List Event) : List (Handle × String × Value) :=
  (evaluations events).filterMap Evaluation.setting?

section
variable {events more inner : List Event}

theorem settings_append : settings (events ++ more) = settings events ++ settings more := by
  simp [settings]

theorem settings_assignment {occasion : Occasion} {work : Assignment} {h : Handle} {v : Value}
    (target : work.target = .object h) :
    settings [.assignment occasion work (some v) inner] =
      settings inner ++ [(h, work.feature, v)] := by
  simp [settings, Evaluation.setting?, target]

end

/-- The features that the events tell of were set, each with one binding more evaluated. -/
structure Sets (events : List Event) (before : Store) (evaluated : Nat) (after : Store) (all : Nat) :
    Prop where
  edited : Edited (settings events) before after
  counted : all = evaluated + (settings events).length

namespace Sets
variable {events more inner : List Event} {before between after : Store} {n k l : Nat}

theorem nothing (store : Store) (n : Nat) : Sets [] store n store n := ⟨.refl store, rfl⟩

theorem trans (first : Sets events before n between k) (rest : Sets more between k after l) :
    Sets (events ++ more) before n after l where
  edited := settings_append ▸ first.edited.trans rest.edited
  counted := by rw [rest.counted, first.counted, settings_append, List.length_append, Nat.add_assoc]

/-- A feature is set after all that happened within. -/
theorem assignment {occasion : Occasion} {work : Assignment} {h : Handle} {v : Value}
    (sets : Sets inner before n between k) (target : work.target = .object h)
    (accepted : between.set h work.feature v = .ok after) :
    Sets [.assignment occasion work (some v) inner] before n after (k + 1) where
  edited := settings_assignment target ▸ sets.edited.trans (.set accepted)
  counted := by
    rw [settings_assignment target, sets.counted, List.length_append]
    rfl

/-- Nothing is set but within the event. -/
theorem within {event : Event} (same : evaluations [event] = evaluations inner)
    (sets : Sets inner before n after k) : Sets [event] before n after k where
  edited := by
    rw [settings, same]
    exact sets.edited
  counted := by
    rw [settings, same]
    exact sets.counted

end Sets

open Engine in
theorem Course.sets {setting : Setting} {s u : Engine} {done : List Event}
    (course : Course setting done s u) :
    Sets done s.store s.bindingsEvaluated u.store u.bindingsEvaluated := by
  induction course with
  | quiet quiet =>
    obtain ⟨_, _, _, _, _, _, _, _, _, rfl⟩ := quiet
    exact .nothing _ _
  | aside | link _ => exact .nothing _ _
  | create created => exact ⟨.create created, rfl⟩
  | trans _ _ first rest => exact first.trans rest
  | binding _ target _ accepted inner =>
    rw [waiting_store, waiting_bindingsEvaluated]
    exact inner.assignment target accepted
  | statement target _ accepted inner => exact inner.assignment target accepted
  | application _ _ inner => exact .within (evaluations_application ..) inner
  | hit _ =>
    rw [noticing_eq]
    exact .within (evaluations_lazy ..) (.nothing _ _)
  | miss _ _ _ _ _ created filled =>
    rw [noticing_eq]
    exact .within (evaluations_lazy ..) (created.trans filled)
  | called _ _ inner => exact .within (evaluations_called ..) inner
  | replayed _ => exact .within (evaluations_replayed ..) (.nothing _ _)

theorem Redoing.sets {setting : Setting} {s u : Engine} {position : Nat} {done : List Event}
    (walk : Redoing setting position done s u) :
    Sets done s.store s.bindingsEvaluated u.store u.bindingsEvaluated := by
  induction walk with
  | finished _ => exact .nothing _ _
  | next _ target evaluated accepted _ rest => exact (evaluated.sets.assignment target accepted).trans rest

section
variable {setting : Setting} {t : Transformation} {store : Store} {log : List LogRecord}
  {s : Engine}

/-- A run counts what the rules it applied make and assign, and the bindings it evaluated again: so many
objects were made, by which the target models have grown, and so many features set. -/
theorem statistics_account (given : setting.transformation = some t) (distinct : t.DistinctTargets)
    (completes : Completes setting t store log s) :
    let applied := Engine.appliedRules t.module s
    s.counters.objectsCreated = (applied.map (·.outputs.length)).sum ∧
      t.population s.store = t.population store + (applied.map (·.outputs.length)).sum ∧
      s.counters.matchedRulesApplied = (Engine.scheduled s).length ∧
      s.counters.lazyRulesApplied = applied.countP Rule.isLazy ∧
      s.counters.calledRulesApplied = applied.countP Rule.isCalled ∧
      s.counters.elementsProcessed = (t.sourceObjects store).length ∧
      s.counters.bindingsEvaluated =
        (applied.map Rule.assignments).sum + s.counters.deferredBindingsResolved ∧
      s.counters.bindingsEvaluated = (settings s.history).length ∧
      Edited (settings s.history) store s.store := by
  intro applied
  obtain ⟨before, walk, a, b, history, course, redoing, finish, -⟩ := completes.course
  obtain ⟨depth, bound, ended⟩ := completes
  have balances := Engine.evaluateWithin_balances distinct given depth
  have guarded := Engine.evaluateWithin_guarding setting depth
  obtain ⟨counted, examined⟩ := Engine.runWith_account balances distinct guarded ended
  rw [sum_tally] at counted
  have sets : Sets s.history store 0 s.store s.bindingsEvaluated := by
    rw [history, ← List.append_nil (before ++ walk)]
    exact (course.sets.trans redoing.sets).trans finish.sets
  have fields := Tally.ext_iff.1 counted
  simp only [Engine.tally, Tally.turns, Tally.add_objects, Tally.add_members, Tally.add_bindings,
    Tally.add_matched, Tally.add_lazies, Tally.add_calls, Nat.zero_add, Nat.add_zero] at fields
  obtain ⟨objects, members, bindings, matched, lazies, calls, -⟩ := fields
  have written : s.bindingsEvaluated = (settings s.history).length := by
    simpa using sets.counted
  refine ⟨congrArg _ objects, members, congrArg _ (matched.trans Engine.countP_isMatched), congrArg _ lazies,
    congrArg _ calls, examined, ?_, congrArg _ written, sets.edited⟩
  change (s.bindingsEvaluated : Int) = _
  rw [bindings]
  rfl

/-- Three rules are applied once each, with four assignments, and one binding is evaluated again. -/
theorem statistics_account_throughBody :
    ∃ s, Completes (Looping.settingOf Looping.throughBody) Looping.throughBody Looping.objects [] s ∧
      Looping.throughBody.population s.store = 3 ∧
      ((Engine.appliedRules Looping.throughBody.module s).map Rule.assignments).sum = 4 ∧
      (settings s.history).length = 5 := by
  obtain ⟨s, completes, tested⟩ := Looping.completes_of_passes Looping.throughBody
    (fun s => s.objectsCreated == 3 && s.bindingsEvaluated == 5 && s.deferredResolved == 1)
    (by decide +kernel)
  simp only [Bool.and_eq_true, beq_iff_eq] at tested
  obtain ⟨⟨three, five⟩, one⟩ := tested
  have distinct : Looping.throughBody.DistinctTargets := List.nodup_singleton _
  obtain ⟨objects, members, -, -, -, -, bindings, written, -⟩ :=
    statistics_account rfl distinct completes
  simp only [Engine.counters, three, five, one] at objects bindings written
  have empty : Looping.throughBody.population Looping.objects = 0 := rfl
  exact ⟨s, completes, by omega, by omega, by omega⟩

end

end Metamorph
