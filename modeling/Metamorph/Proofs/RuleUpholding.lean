import Metamorph.Proofs.Upholding

/-! Rules that are up to a standard. What they make, link, remember, assign and put down keeps to the norm
if the expressions in them do; where a rule is applied the books are kept. -/
namespace Metamorph

theorem Engine.asFeatureValue_meets {norm : Norm} {v : Value} (meets : v.Meets norm) :
    (asFeatureValue v).Meets norm := by
  unfold asFeatureValue
  split
  · exact allMeet_iff.2 meets.each
  · exact meets

namespace BindingFrame.Meets
variable {norm : Norm} {frame : BindingFrame}

theorem empty : BindingFrame.Meets norm {} := ⟨nofun, nofun⟩

theorem incomplete {sawIncomplete : Bool} (meets : frame.Meets norm) :
    BindingFrame.Meets norm { frame with sawIncomplete } :=
  ⟨meets.1, meets.2⟩

theorem take? {rule : String} {args : List Value} {call : CalledResult} {next : BindingFrame}
    (meets : frame.Meets norm) (taken : frame.take? rule args = some (call, next)) :
    call.result.Meets norm ∧ next.Meets norm := by
  obtain ⟨found, picked, same⟩ := Option.map_eq_some_iff.1 taken
  cases same
  exact ⟨meets.2 _ (List.mem_of_find?_eq_some picked), meets.1,
    fun call member => meets.2 call (List.mem_of_mem_eraseP member)⟩

end BindingFrame.Meets

namespace Engine.Standard
variable {setting : Setting} {std : Standard setting} {α : Type} {post : α → Prop}
  {run other : Run Engine α} {s : Engine} {v : Value}

/-! Changes to a state that is up to the standard. -/
namespace State
variable (state : std.State s)
include state

theorem entered : std.State s.enter := state.following { state.meets with } rfl

theorem left : std.State s.leave := state.following { state.meets with } rfl

theorem told {history : List Event} (told : std.norm.Told history) : std.State { s with history } :=
  state.following { state.meets with told } rfl

theorem noted {event : Event} (told : std.norm.Told [event]) : std.State (note event s) :=
  state.told (state.meets.told.append told)

theorem framed {frames : List BindingFrame} (meets : ∀ frame ∈ frames, frame.Meets std.norm) :
    std.State { s with frames } :=
  state.following { state.meets with frames := meets } rfl

theorem pushed {frame : BindingFrame} (meets : frame.Meets std.norm) :
    std.State (pushFrame frame s) :=
  state.framed (List.forall_mem_cons.2 ⟨meets, state.meets.frames⟩)

theorem popped : std.State s.popFrame :=
  state.framed fun frame member => state.meets.frames frame (List.mem_of_mem_tail member)

theorem changed {change : BindingFrame → BindingFrame}
    (kept : ∀ frame ∈ s.frames.head?, (change frame).Meets std.norm) :
    std.State (changeFrame change s) := by
  refine state.framed fun frame member => ?_
  have before := state.meets.frames
  cases frames : s.frames with
  | nil => simp [frames] at member
  | cons top rest =>
    rw [frames] at member kept before
    rcases List.mem_cons.1 member with rfl | below
    · exact kept top rfl
    · exact before frame (List.mem_cons_of_mem _ below)

theorem counted {bindingsEvaluated : Nat} : std.State { s with bindingsEvaluated } :=
  state.following { state.meets with } rfl

theorem stored {store : Store} (meets : store.Meets std.norm) : std.State { s with store } :=
  state.following { state.meets with store := meets } rfl

theorem owning {h : Handle} {provider : Provider} {store : Store}
    (meets : store.Meets std.norm) (allowed : provider.refusals.Allowed std.norm) :
    std.State (owning h provider store s) :=
  state.following
    { state.meets with
      store := meets
      owners := List.forall_mem_cons.2 ⟨allowed, state.meets.owners⟩ } rfl

theorem deferring {d : DeferredBinding} (meets : d.Meets std.norm) :
    std.State { s with deferred := s.deferred ++ [d] } :=
  state.following
    { state.meets with
      deferred := List.forall_mem_append.2
        ⟨state.meets.deferred, List.forall_mem_singleton.2 meets⟩ } rfl

/-- The entries of the cache are the same up to being complete. -/
theorem remembering {cache : LazyCache}
    (same : cache.entries.map LazyEntry.application = s.cache.entries.map LazyEntry.application) :
    std.State { s with cache } := by
  refine state.following { state.meets with cache := fun entry member => ?_ }
    (by simp only [record, same])
  have listed : entry.application ∈ s.cache.entries.map LazyEntry.application :=
    same ▸ List.mem_map_of_mem member
  obtain ⟨old, known, alike⟩ := List.mem_map.1 listed
  have outputs : old.outputs = entry.outputs := congrArg (·.2.2) alike
  exact outputs ▸ state.meets.cache old known

/-- A lazy rule was applied: its outputs are linked and remembered. -/
theorem begun {t : Transformation} {rule : LazyRule} {argument : Value} {outputs : Outputs}
    {link : TraceLink} {trace : Trace} (known : HasLazy setting t rule)
    (missing : s.cache.lookup? rule.name argument = none)
    (registered : s.trace.register s.store rule.name argument outputs .lazy = .ok (link, trace))
    (meets : std.norm.Table outputs) :
    std.State { s with
      trace
      lazyApplied := s.lazyApplied + 1
      cache := s.cache.start rule.name argument outputs } := by
  obtain ⟨-, links, -, -, linked⟩ := Trace.register_eq_ok registered
  constructor
  · refine { state.meets with trace := ?_, cache := ?_ }
    · rw [links]
      exact List.forall_mem_append.2
        ⟨state.meets.trace, List.forall_mem_singleton.2 (linked ▸ meets)⟩
    · exact List.forall_mem_append.2
        ⟨state.meets.cache, List.forall_mem_singleton.2 meets⟩
  · have books := std.books.begins known state.books missing registered
    simpa [record, LazyCache.start, LazyEntry.application] using books

/-- The next application of the schedule was created. -/
theorem created {t : Transformation} {a : Application} {outputs : Outputs} {link : TraceLink}
    {trace : Trace} (given : setting.transformation = some t)
    (turn : (scheduled s)[s.created.length]? = some a)
    (registered :
      s.trace.register s.store a.rule.name a.source outputs .matched = .ok (link, trace))
    (meets : std.norm.Table outputs) :
    std.State { s with
      trace
      created := s.created ++ [outputs]
      matchedApplied := s.matchedApplied + 1 } := by
  obtain ⟨-, links, -, -, linked⟩ := Trace.register_eq_ok registered
  refine ⟨{ state.meets with trace := ?_, created := ?_ },
    std.books.creates given state.books turn registered⟩
  · rw [links]
    exact List.forall_mem_append.2
      ⟨state.meets.trace, List.forall_mem_singleton.2 (linked ▸ meets)⟩
  · exact List.forall_mem_append.2 ⟨state.meets.created, List.forall_mem_singleton.2 meets⟩

end State

/-- What happens in two runs that do the same becomes the same event. -/
theorem At.nest {event : Option α → List Event → Event}
    (at' : std.At post { s with history := [] } run other) (state : std.State s)
    (telling : ∀ {ended inner}, (∀ a, ended = some a → post a) → std.norm.Told inner →
      std.norm.Told [event ended inner]) :
    std.At post s (nest event run) (nest event other) := by
  obtain ⟨same, admits⟩ := at'
  constructor
  · unfold Engine.nest
    rw [same]
  · unfold Engine.nest
    cases outcome : run { s with history := [] } with
    | value a u =>
      obtain ⟨holds, kept⟩ := admits.ended outcome
      refine .value holds (kept.told (state.meets.told.append (telling ?_ kept.meets.told)))
      rintro _ ⟨⟩
      exact holds
    | failure fault u =>
      obtain ⟨allowed, kept⟩ := admits.failed outcome
      exact .failure allowed (kept.told (state.meets.told.append (telling nofun kept.meets.told)))
    | exhausted => exact .exhausted

theorem Upholds.nest {event : Option α → List Event → Event} (upholds : std.Upholds post run other)
    (telling : ∀ {ended inner}, (∀ a, ended = some a → post a) → std.norm.Told inner →
      std.norm.Told [event ended inner]) :
    std.Upholds post (nest event run) (nest event other) :=
  fun _ state => (upholds _ (state.told .nil)).nest state telling

theorem Upholds.working {occasion : Occasion} {work : Assignment}
    {run other : Run Engine (α × Value)}
    (upholds : std.Upholds (fun result => post result.1 ∧ result.2.Meets std.norm) run other) :
    std.Upholds post (working occasion work run) (working occasion work other) := by
  refine .bind (upholds.nest fun {ended inner} holds told => told.assignment ?_)
    fun result kept => .pure kept.1
  intro v stored
  obtain ⟨result, rfl, rfl⟩ := Option.map_eq_some_iff.1 stored
  exact (holds result rfl).2

theorem Upholds.applying {rule : String} {patterns : List OutPattern} {body : List Statement}
    {outputs : Outputs} (upholds : std.Upholds post run other) :
    std.Upholds post (applying rule patterns body outputs run)
      (applying rule patterns body outputs other) :=
  upholds.nest fun _ told => told.within (evaluations_application ..)

theorem Upholds.inFrame {frame : BindingFrame} (meets : frame.Meets std.norm)
    (upholds : std.Upholds post run other) :
    std.Upholds (fun result => post result.1 ∧ result.2.Meets std.norm) (inFrame frame run)
      (inFrame frame other) := by
  have framed : std.Upholds (fun result => post result.1 ∧ BindingFrame.Meets std.norm result.2)
      (do
        let a ← run
        return (a, (← Run.state).frames.head?.getD frame))
      (do
        let a ← other
        return (a, (← Run.state).frames.head?.getD frame)) := by
    refine .bind upholds fun a holds => .state fun s kept => .pure ⟨holds, ?_⟩ kept
    cases top : s.frames.head? with
    | none => exact meets
    | some frame => exact kept.meets.frames frame (List.mem_of_mem_head? top)
  exact .bind (.modify fun _ state => state.pushed meets) fun _ _ s state =>
    (framed s state).ensuring State.popped

section
variable {t : Transformation} (given : setting.transformation = some t)
include given

theorem makeTarget_upholds (out : OutPattern) :
    std.Upholds (·.Meets std.norm) (makeTarget t out) (makeTarget t out) := by
  have chosen : std.norm.Sound (fun provider => provider.refusals.Allowed std.norm)
      (targetProvider t out.type) := by
    cases provides : targetProvider t out.type with
    | ok provider =>
      obtain ⟨name, target⟩ := targetProvider_mem provides
      exact .ok (std.models given _ (List.mem_append_right _ target))
    | error fault =>
      obtain ⟨reason, rfl⟩ := targetProvider_refuses provides
      exact .error rfl
  refine .bind (.ofResult chosen) fun provider allowed => .state fun s kept => ?_
  have made : std.norm.Sound (fun made => made.2.Meets std.norm)
      (provider.create s.store out.type) :=
    Provider.refuse_sound (fun fault refused => allowed fault (.inr (.inl refused)))
      kept.meets.store.create
  refine Upholds.bind (.collaborate made) (fun made meets => ?_) s kept
  exact .bind (.modify fun u state => state.owning meets allowed) fun _ _ => .pure trivial

theorem makeTargets_upholds (patterns : List OutPattern) :
    std.Upholds std.norm.Table (makeTargets t patterns) (makeTargets t patterns) := by
  induction patterns with
  | nil => exact .pure nofun
  | cons out rest ih =>
    refine .bind (makeTarget_upholds given out) fun target own => .bind ih fun others table => ?_
    exact .pure (List.forall_mem_cons.2 ⟨own, table⟩)

end

theorem assign_upholds (target : Value) (feature : String) (own : v.Meets std.norm) :
    std.Upholds (·.Meets std.norm) (assign setting target feature v)
      (assign setting target feature v) := by
  refine .state fun s kept => ?_
  split
  · rename_i provider h owned
    have allowed : provider.refusals.Allowed std.norm := by
      obtain ⟨before, after, owners, -⟩ := List.lookup_eq_some_iff.1 owned
      exact kept.meets.owners (h, provider) (owners ▸ List.mem_append_right _ List.mem_cons_self)
    have resolved : std.norm.Yields
        (if setting.settings.implicitResolution then implicitTarget s.trace v else .ok v) := by
      split
      · exact implicitTarget_yields kept.meets.trace v own
      · exact .ok own
    refine Upholds.bind (.ofResult resolved) (fun w own => ?_) s kept
    have assigned : std.norm.Sound (Store.Meets std.norm)
        (provider.assign s.store h feature (asFeatureValue w)) :=
      Provider.refuse_sound (fun fault refused => allowed fault (.inr (.inr refused)))
        (kept.meets.store.set (asFeatureValue_meets own))
    refine .bind (.collaborate assigned) fun store meets => ?_
    exact .bind (.modify fun u state => state.stored meets) fun _ _ => .pure (asFeatureValue_meets own)
  · have untold (w : Value) : std.norm.Told [.unowned w feature] := nofun
    refine Upholds.bind (.modify fun u state => state.noted (untold _)) (fun _ _ => ?_) s kept
    exact .bind (.ofResult Store.Meets.textOf_fails) fun _ _ => .fail rfl

theorem checkArgument_upholds (rule : String) (parameter : Parameter) (v : Value) :
    std.Upholds (fun _ => True) (checkArgument setting rule parameter v)
      (checkArgument setting rule parameter v) := by
  unfold checkArgument
  split
  · exact .pure trivial
  · exact .pure trivial
  · exact .bind (ancestry_upholds _) fun found _ => .ite (.pure trivial) (mismatch_upholds _ _ _)

theorem checkArguments_upholds (rule : String) (parameters : List Parameter) (args : List Value) :
    std.Upholds (fun _ => True) (checkArguments setting rule parameters args)
      (checkArguments setting rule parameters args) := by
  induction parameters generalizing args with
  | nil => exact .pure trivial
  | cons parameter rest ih =>
    cases args with
    | nil => exact .pure trivial
    | cons v others => exact .bind (checkArgument_upholds _ _ _) fun _ _ => ih others

theorem refuseWhileMatching_upholds (rule : String) :
    std.Upholds (fun _ => True) (refuseWhileMatching rule) (refuseWhileMatching rule) := by
  refine .state fun s kept => (?_ : std.Upholds _ _ _) s kept
  exact .ite (.fail rfl) (.pure trivial)

theorem enterRule_upholds (rule : String) :
    std.Upholds (fun _ => True) (enterRule setting rule) (enterRule setting rule) := by
  refine .state fun s kept => (?_ : std.Upholds _ _ _) s kept
  exact .ite (.fail rfl) (.modify fun _ state => state.entered)

theorem recorded?_upholds (rule : String) (args : List Value) :
    std.Upholds (fun answer => ∀ v, answer = some v → v.Meets std.norm) (recorded? rule args)
      (recorded? rule args) := by
  refine .state fun s kept => ?_
  split
  · exact .pure nofun kept
  · rename_i call frame taken
    obtain ⟨top, first, taken⟩ := Option.bind_eq_some_iff.1 taken
    obtain ⟨own, meets⟩ := (kept.meets.frames top (List.mem_of_mem_head? first)).take? taken
    refine At.bind (.modify (kept.changed fun _ _ => meets)) fun _ _ state => .pure ?_ state
    rintro _ ⟨⟩
    exact own

/-- The application of a lazy rule to what it was not applied to yet, up to the point where its outputs
are linked and remembered. -/
def beginLazy (t : Transformation) (rule : LazyRule) (argument : Value) : Run Engine Outputs := do
  Run.modify (cachePlace.change LazyCache.miss)
  let outputs ← createLazy t rule argument
  Run.modify (cachePlace.change fun cache => cache.start rule.name argument outputs)
  return outputs

theorem link_at {rule : String} {source : Value} {outputs : Outputs} {kind : LinkKind}
    {next : Run Engine α}
    (linked : ∀ link trace, s.trace.register s.store rule source outputs kind = .ok (link, trace) →
      std.Admits post (next { s with trace }))
    (refused : ∀ fault, s.trace.register s.store rule source outputs kind = .error fault →
      std.norm.allowed fault) (state : std.State s) :
    std.At post s (registerLink rule source outputs kind >>= fun _ => next)
      (registerLink rule source outputs kind >>= fun _ => next) := by
  refine .of_bind (fun _ u ended => ?_) fun fault u failed => ?_
  · obtain ⟨link, trace, registered, rfl⟩ := registerLink_eq_value ended
    exact linked link trace registered
  · obtain rfl := registerLink_eq_failure failed
    refine ⟨refused fault ?_, state⟩
    simp only [registerLink, Run.bind_eq_failure, Run.state_ne_failure, Run.ofResult_eq_failure,
      Run.modify_ne_failure, Run.state_eq_value, false_or, or_false, and_false,
      exists_false] at failed
    obtain ⟨_, _, ⟨rfl, rfl⟩, refusal, -⟩ := failed
    exact refusal

theorem beginLazy_at {t : Transformation} {rule : LazyRule} {argument : Value}
    (known : HasLazy setting t rule) (missing : s.cache.lookup? rule.name argument = none)
    (state : std.State s) :
    std.At std.norm.Table s (beginLazy t rule argument) (beginLazy t rule argument) := by
  unfold beginLazy createLazy
  simp only [Run.bind_assoc]
  refine At.bind (.modify (state.remembering rfl)) fun {_ u} missed _ state => ?_
  obtain rfl := Run.modify_eq_value.1 missed
  refine At.bind (Upholds.noting (fun s => noteRule_quiet rule.name s) (fun _ => rfl) _ state)
    fun {_ u} noted _ state => ?_
  obtain rfl := Run.modify_eq_value.1 noted
  refine At.bind (makeTargets_upholds known.1 rule.outputs _ state) fun {outputs w} made meets state => ?_
  have cache : w.cache = s.cache.miss := ((makeTargets_keeps _).value made).others.cache
  have missing : w.cache.lookup? rule.name argument = none := by
    rw [cache]
    exact missing
  refine link_at (fun link trace registered => ?_) (fun fault refused => ?_) state
  · exact .value meets (state.begun known missing registered meets)
  · exact std.books.refuses known state.books missing refused

theorem request_upholds {t : Transformation} {rule : LazyRule} {argument : Value}
    {fill other : Outputs → Run Engine Unit} (known : HasLazy setting t rule)
    (filled : ∀ outputs, std.norm.Table outputs →
      std.Upholds (fun _ => True) (fill outputs) (other outputs)) :
    std.Upholds std.norm.Table
      (LazyCache.request cachePlace (createLazy t rule argument) fill rule.name argument)
      (LazyCache.request cachePlace (createLazy t rule argument) other rule.name argument) := by
  refine .state fun s kept => ?_
  split
  · rename_i entry found
    refine At.bind (.modify (kept.remembering rfl)) fun _ _ state => .pure ?_ state
    exact kept.meets.cache entry (List.mem_of_find?_eq_some found)
  · rename_i missing
    have grouped (fill : Outputs → Run Engine Unit) :
        (do
          Run.modify (cachePlace.change LazyCache.miss)
          let outputs ← createLazy t rule argument
          Run.modify (cachePlace.change fun cache => cache.start rule.name argument outputs)
          fill outputs
          Run.modify (cachePlace.change fun cache => cache.finish rule.name argument)
          return outputs) =
        (do
          let outputs ← beginLazy t rule argument
          fill outputs
          Run.modify (cachePlace.change fun cache => cache.finish rule.name argument)
          return outputs : Run Engine Outputs) := by
      unfold beginLazy
      simp only [Run.bind_assoc]
      rfl
    rw [grouped fill, grouped other]
    refine At.bind (beginLazy_at known missing kept) fun _ meets state => ?_
    refine Upholds.bind (filled _ meets) (fun _ _ => ?_) _ state
    exact .bind (.modify fun u state => state.remembering (LazyCache.applications_finish ..))
      fun _ _ => .pure meets

theorem answer_meets {norm : Norm} {rule : LazyRule} {outputs : Outputs} (meets : norm.Table outputs) :
    (answer rule outputs).Meets norm := meets.getD trivial

/-- What is asked of two evaluators of expressions. -/
def Agrees (std : Standard setting) (leader follower : Evaluator) : Prop :=
  ∀ ⦃env e⦄, env.Meets std.norm → std.Upholds (·.Meets std.norm) (leader env e) (follower env e)

namespace Agrees
variable {leader follower : Evaluator} {env : Environment} {rule : String}
  (agrees : Agrees std leader follower)
include agrees

theorem applyBinding {target : Value} {binding : Binding} {deferrable : Bool}
    {replay : List CalledResult} (meets : env.Meets std.norm)
    (calls : ∀ call ∈ replay, call.result.Meets std.norm) :
    std.Upholds (fun _ => True)
      (applyBinding leader setting rule target binding env deferrable replay)
      (Engine.applyBinding follower setting rule target binding env deferrable replay) := by
  have frame : BindingFrame.Meets std.norm { replay } := ⟨List.forall_mem_nil _, calls⟩
  have worked : std.Upholds
      (fun result => BindingFrame.Meets std.norm result.1 ∧ result.2.Meets std.norm)
      (do
        let result ← inFrame { replay } (leader env binding.value)
        Run.modify fun s => { s with bindingsEvaluated := s.bindingsEvaluated + 1 }
        return (result.2, ← assign setting target binding.feature result.1))
      (do
        let result ← inFrame { replay } (follower env binding.value)
        Run.modify fun s => { s with bindingsEvaluated := s.bindingsEvaluated + 1 }
        return (result.2, ← assign setting target binding.feature result.1)) := by
    refine .bind ((agrees meets).inFrame frame) fun result both => ?_
    obtain ⟨own, frame⟩ := both
    refine .bind (.modify fun _ state => state.counted) fun _ _ => ?_
    exact .bind (assign_upholds _ _ own) fun _ own => .pure ⟨frame, own⟩
  refine .bind worked.working fun frame kept => .ite (.modify fun s state => ?_) (.pure trivial)
  exact state.deferring ⟨meets.snapshot, fun call member => kept.1 call (List.mem_reverse.1 member)⟩

theorem applyBindings {target : Value} (meets : env.Meets std.norm) (bindings : List Binding) :
    std.Upholds (fun _ => True) (applyBindings leader setting rule target env bindings)
      (Engine.applyBindings follower setting rule target env bindings) := by
  induction bindings with
  | nil => exact .pure trivial
  | cons binding rest ih => exact .bind (agrees.applyBinding meets nofun) fun _ _ => ih

theorem fillOutputs {outputs : Outputs} (meets : env.Meets std.norm) (patterns : List OutPattern) :
    std.Upholds (fun _ => True) (fillOutputs leader setting rule outputs env patterns)
      (Engine.fillOutputs follower setting rule outputs env patterns) := by
  induction patterns with
  | nil => exact .pure trivial
  | cons out rest ih => exact .bind (agrees.applyBindings meets _) fun _ _ => ih

theorem fillApplication {patterns : List OutPattern} {outputs : Outputs} {scope : Named Value}
    (table : std.norm.Table outputs) (bound : std.norm.Table scope) :
    std.Upholds (fun _ => True) (fillApplication leader setting rule patterns outputs scope)
      (Engine.fillApplication follower setting rule patterns outputs scope) :=
  .bind (.noting (noteRule_quiet rule) fun _ => rfl) fun _ _ =>
    agrees.fillOutputs (.rootEnvironment setting (bound.update table)) patterns

theorem executeStatement (meets : env.Meets std.norm) (statement : Statement) :
    std.Upholds (·.Meets std.norm) (executeStatement leader setting env statement)
      (Engine.executeStatement follower setting env statement) := by
  cases statement with
  | evaluate e => exact agrees meets
  | assign target feature e =>
    refine Upholds.working (.bind (agrees meets) fun v own => ?_)
    have found : std.norm.Yields (env.lookup target .unknown) :=
      Environment.lookup_yields fun _ bound => meets.get? bound
    refine .bind (.ofResult found) fun object _ => .state fun s kept => (?_ : std.Upholds _ _ _) s kept
    refine .ite (.bind (.fail rfl) fun _ (never : False) => never.elim) ?_
    refine .bind (.modify fun _ state => state.counted) fun _ _ => ?_
    exact .bind (assign_upholds _ _ own) fun _ stored => .pure ⟨own, stored⟩

theorem executeBody {last : Value} (meets : env.Meets std.norm) (own : last.Meets std.norm)
    (body : List Statement) :
    std.Upholds (·.Meets std.norm) (executeBody leader setting env last body)
      (Engine.executeBody follower setting env last body) := by
  induction body generalizing last with
  | nil => exact .pure own
  | cons statement rest ih => exact .bind (agrees.executeStatement meets statement) fun _ own => ih own

theorem fillLazy {rule : LazyRule} {argument : Value} {outputs : Outputs}
    (own : argument.Meets std.norm) (table : std.norm.Table outputs) :
    std.Upholds (fun _ => True) (fillLazy leader setting rule argument outputs)
      (Engine.fillLazy follower setting rule argument outputs) :=
  (agrees.fillApplication table (List.forall_mem_singleton.2 own)).applying

theorem executeCalled {t : Transformation} (given : setting.transformation = some t)
    (rule : CalledRule) {args : List Value} (each : ∀ v ∈ args, v.Meets std.norm) :
    std.Upholds (·.Meets std.norm) (executeCalled leader setting t rule args)
      (Engine.executeCalled follower setting t rule args) := by
  refine .bind (.noting (noteRule_quiet rule.name) fun _ => rfl) fun _ _ => ?_
  refine .bind (makeTargets_upholds given _) fun outputs table => ?_
  have scope : std.norm.Table (Named.ofPairs ((rule.parameters.map (·.name)).zip args)) :=
    (Norm.Table.zip each).ofPairs
  have undefined : Value.undefined.Meets std.norm := trivial
  refine .bind (.applying (.bind (agrees.fillApplication table scope) fun _ _ =>
    agrees.executeBody (.rootEnvironment setting (scope.update table)) undefined _)) fun last own => ?_
  refine .pure ?_
  split
  · exact own
  · exact table.getD trivial

theorem invokeLazy {t : Transformation} {rule : LazyRule} (known : HasLazy setting t rule)
    (own : v.Meets std.norm) :
    std.Upholds (·.Meets std.norm) (invokeLazy leader setting t rule v)
      (Engine.invokeLazy follower setting t rule v) := by
  refine .bind (refuseWhileMatching_upholds _) fun _ _ => ?_
  split
  · exact .pure trivial
  · refine .bind (checkArgument_upholds _ _ _) fun _ _ => .bind (enterRule_upholds _) fun _ _ => ?_
    have requested : std.Upholds std.norm.Table
        (LazyCache.request cachePlace (createLazy t rule v) (Engine.fillLazy leader setting rule v)
          rule.name v)
        (LazyCache.request cachePlace (createLazy t rule v) (Engine.fillLazy follower setting rule v)
          rule.name v) :=
      request_upholds known fun outputs table => agrees.fillLazy own table
    refine .bind (Upholds.nest ?_ fun _ told => told.within (evaluations_lazy ..))
      fun result (own : result.1.Meets std.norm) => ?_
    · refine .bind (fun s state => (requested s state).ensuring State.left) fun outputs table => ?_
      exact .state fun s kept => .pure (answer_meets table) kept
    · refine .ite (.bind (.modify fun s state => ?_) fun _ _ => .pure own) (.pure own)
      exact state.changed fun frame top =>
        (state.meets.frames frame (List.mem_of_mem_head? top)).incomplete

theorem invokeCalled {t : Transformation} {rule : CalledRule} (known : HasCalled setting t rule)
    {args : List Value} (each : ∀ v ∈ args, v.Meets std.norm) :
    std.Upholds (·.Meets std.norm) (invokeCalled leader setting t rule args)
      (Engine.invokeCalled follower setting t rule args) := by
  refine .bind (refuseWhileMatching_upholds _) fun _ _ => ?_
  refine .ite (.bind (.fail rfl) fun _ (never : False) => never.elim) ?_
  refine .bind (checkArguments_upholds _ _ _) fun _ _ => ?_
  refine .bind (recorded?_upholds rule.name args) fun answer kept => ?_
  cases answer with
  | some result =>
    have untold : std.norm.Told [.replayed rule.name args result] := nofun
    exact .bind (.modify fun _ state => state.noted untold) fun _ _ => .pure (kept result rfl)
  | none =>
    refine .bind (enterRule_upholds _) fun _ _ => ?_
    have executed := (agrees.executeCalled known.1 rule each).inFrame .empty
    refine .bind (Upholds.nest (fun s state => (executed s state).ensuring State.left)
      fun _ told => told.within (evaluations_called ..)) fun result ⟨own, frame⟩ => ?_
    refine .bind (.modify fun _ state => state.following { state.meets with } rfl) fun _ _ => ?_
    refine .bind (.modify fun s state => state.changed fun outer top => ?_) fun _ _ => .pure own
    have before := state.meets.frames outer (List.mem_of_mem_head? top)
    exact ⟨List.forall_mem_cons.2 ⟨own, before.1⟩, before.2⟩

theorem serves : Serves std leader follower where
  expression meets := agrees meets
  lazy := agrees.invokeLazy
  called known each := agrees.invokeCalled known each

end Agrees

end Engine.Standard

end Metamorph
