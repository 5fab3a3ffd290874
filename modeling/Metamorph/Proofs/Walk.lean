import Metamorph.Proofs.Nesting
import Metamorph.Proofs.PhaseOrder
import Metamorph.Proofs.Selection

/-! The walk over the bindings that wait. Each turn of it ends. Whether the walk does depends on how many
applications of lazy rules its turns start, since only these leave further bindings waiting. -/
namespace Metamorph

/-- No binding is left waiting where no application of a lazy rule is begun. -/
theorem Course.waiting_of_remembered {setting : Setting} {s u : Engine} {done : List Event}
    (course : Course setting done s u) (settled : s.cache.Settled)
    (same : u.cache.entries.length = s.cache.entries.length) : u.deferred = s.deferred := by
  induction course with
  | quiet quiet => exact quiet.level.deferred
  | aside => rfl
  | create _ => rfl
  | link _ => rfl
  | @trans s a u _ _ first rest here there =>
    obtain ⟨added, before, -⟩ := first.progress.remembered
    obtain ⟨others, after, -⟩ := rest.progress.remembered
    have sizes : u.cache.entries.length = s.cache.entries.length + added.length + others.length := by
      rw [after, before, List.length_append, List.length_append]
    have early : a.cache.entries.length = s.cache.entries.length := by
      rw [before, List.length_append]
      omega
    have late := there (first.progress.settled settled) (by omega)
    rw [late, here settled early]
  | binding _ _ evaluated _ inner =>
    rw [Engine.waiting_cache] at same
    have calm := (evaluated.progress.opened rfl).1.trans (evaluated.progress.calm settled)
    rw [calm]
    exact inner settled same
  | statement _ _ _ inner => exact inner settled same
  | application _ _ inner => exact inner settled same
  | hit _ =>
    rw [Engine.noticing_eq]
    rfl
  | @miss s a t rule argument outputs _ _ _ missing created filled _ _ _ _ =>
    obtain ⟨made, before, -⟩ := created.progress.remembered
    obtain ⟨added, after, -⟩ := filled.progress.remembered
    have begun : t.cache.entries.length = s.cache.entries.length + made.length + 1 + added.length := by
      have fresh : (a.cache.start rule argument outputs).entries.length = a.cache.entries.length + 1 :=
        List.length_append
      rw [after, List.length_append]
      change (a.cache.start rule argument outputs).entries.length + added.length = _
      rw [fresh, before, List.length_append]
      rfl
    have finished : (t.cache.finish rule argument).entries.length = t.cache.entries.length :=
      List.length_map ..
    rw [Engine.noticing_eq] at same
    change (t.cache.finish rule argument).entries.length = _ at same
    omega
  | called _ _ inner => exact inner settled same
  | replayed _ => rfl

namespace Engine
open Run
variable {setting : Setting} {t : Transformation} {self : Evaluator} {s u : Engine}

/-- The bindings that wait are bindings of rules of the module. -/
def Listed (m : Module) (s : Engine) : Prop := ∀ d ∈ s.deferred, d.binding.value ∈ m.expressions

theorem Listed.level {m : Module} (level : Level s u) (listed : Listed m s) : Listed m u := by
  unfold Listed
  rw [level.deferred]
  exact listed

def listing (m : Module) : Conduct Engine :=
  .both (fun s u => Listed m s → Listed m u) (fun _ => id) fun first rest => rest ∘ first

theorem listing_later {m : Module} {w : Engine} (kept : (listing m).fails s u) (level : Level u w) :
    (listing m).fails s w :=
  fun listed => Listed.level level (kept listed)

theorem listing_bears {m : Module} : Bears (listing m) (· ∈ m.expressions) := by
  refine .of_level Listed.level listing_later ?_
  intro s d own listed other member
  rcases List.mem_append.1 member with old | new
  · exact listed other old
  · obtain rfl := List.mem_singleton.1 new
    exact own

theorem listing_encloses (setting : Setting) (m : Module) :
    Encloses setting (listing m) (listing m) := by
  refine Encloses.of_level Listed.level listing_later ?_
  intro α s r run _ level kept
  have start : (listing m).ends s r := fun listed => Listed.level level listed
  have within : (listing m).Allows r (Run.ensuring leave run r) :=
    kept.ensuring (fun _ => id) fun failed => failed
  exact within.since start

theorem listing_serves (given : setting.transformation = some t)
    (kept : ∀ env e, Keeps (listing t.module) (self env e)) :
    Serves (listing t.module) setting self where
  quiet quiet := Listed.level quiet.level
  expression := kept
  lazy known v := by
    obtain ⟨other, known⟩ := known
    obtain rfl := Option.some.inj (given.symm.trans other)
    exact listing_bears.invokeLazy listing_bears (listing_encloses setting _)
      (fun env _ _ => kept env _) (Module.lazy_binds known) v
  called known args := by
    obtain ⟨other, known⟩ := known
    obtain rfl := Option.some.inj (given.symm.trans other)
    exact listing_bears.invokeCalled listing_bears (listing_encloses setting _)
      (fun env _ _ => kept env _) (Module.called_binds known) (Module.called_body known) args

theorem evaluateWithin_listing (given : setting.transformation = some t) (depth : Nat)
    (env : Environment) (e : Expr) : Keeps (listing t.module) (evaluateWithin setting depth env e) :=
  evaluateWithin_keeps (fun _ => trivial) (fun _ kept => listing_serves given kept) depth env e

/-- The first turns of the walk from a position on, or all of it. -/
def turns (self : Evaluator) (setting : Setting) : Nat → Nat → Run Engine Unit
  | 0, _ => return
  | n + 1, position => do
    match (← Run.state).deferred[position]? with
    | none => return
    | some d =>
      resolveDeferred self setting d
      turns self setting n (position + 1)

/-- What holds between two turns. -/
structure Walking (m : Module) (s : Engine) : Prop where
  depth : s.depth = 0
  settled : s.cache.Settled
  listed : Listed m s

/-- What is known of a turn, whatever it starts. -/
structure Turning (setting : Setting) (m : Module) (evaluator : Evaluator) : Prop where
  ends : ∀ {s d}, Walking m s → d.binding.value ∈ m.expressions →
    resolveDeferred evaluator setting d s ≠ .exhausted
  walking : ∀ {s d u}, Walking m s → d.binding.value ∈ m.expressions →
    resolveDeferred evaluator setting d s = .value () u → Walking m u
  grows : ∀ {s d u}, Walking m s → resolveDeferred evaluator setting d s = .value () u →
    s.cache.entries.length < u.cache.entries.length ∨
      u.cache.entries.length = s.cache.entries.length ∧ u.deferred = s.deferred

/-- How deep the evaluations of a walk may have to go. -/
noncomputable def walkDepth (setting : Setting) (m : Module) : Nat :=
  sizeOf m.expressions + levels (sizeOf m.expressions) setting.settings.depthLimit.toNat

theorem evaluateWithin_turning (given : setting.transformation = some t)
    (helperless : ∀ helper, ¬ HasHelper setting helper) {depth : Nat}
    (enough : walkDepth setting t.module ≤ depth) :
    Turning setting t.module (evaluateWithin setting depth) := by
  have back {d : DeferredBinding} (own : d.binding.value ∈ t.module.expressions) :
      Keeps (atDepth 0) (resolveDeferred (evaluateWithin setting depth) setting d) := by
    have bears : Bears (atDepth 0) (· ∈ t.module.expressions) := atDepth_bears
    refine bears.resolveDeferred (fun env e member => ?_) own
    have inside := List.sizeOf_lt_of_mem member
    have limit : setting.settings.depthLimit ≤
        ((0 : Nat) : Int) + (setting.settings.depthLimit.toNat : Int) := by omega
    unfold walkDepth at enough
    exact evaluateWithin_ends given helperless limit env (by omega)
  have listing {d : DeferredBinding} (own : d.binding.value ∈ t.module.expressions) :
      Keeps (listing t.module) (resolveDeferred (evaluateWithin setting depth) setting d) :=
    listing_bears.resolveDeferred (fun env _ _ => evaluateWithin_listing given depth env _) own
  have follows := evaluateWithin_follows setting depth
  constructor
  · intro s d walking own cut
    have kept := back own s
    rw [cut] at kept
    exact kept walking.depth
  · intro s d u walking own ended
    obtain ⟨_, _, _, w, _, _, course, _, rfl⟩ := follows.resolveDeferred ended
    have settled : w.cache.Settled := course.progress.settled walking.settled
    exact ⟨(back own).value ended walking.depth, settled, (listing own).value ended walking.listed⟩
  · intro s d u walking ended
    obtain ⟨_, _, _, w, _, _, course, _, rfl⟩ := follows.resolveDeferred ended
    obtain ⟨added, entries, -⟩ := course.progress.remembered
    have sizes : w.cache.entries.length = s.cache.entries.length + added.length := by
      rw [entries]
      exact List.length_append
    by_cases same : w.cache.entries.length = s.cache.entries.length
    · exact .inr ⟨same, course.waiting_of_remembered walking.settled same⟩
    · exact .inl (by change s.cache.entries.length < w.cache.entries.length; omega)

section
variable {position : Nat} {d : DeferredBinding}

theorem resolveFrom_finished (last : s.deferred[position]? = none) (bound : Nat) :
    resolveFrom self setting (bound + 1) position s = .value () s := by
  unfold resolveFrom
  rw [state_bind, last]
  rfl

theorem turns_finished (last : s.deferred[position]? = none) (n : Nat) :
    turns self setting n position s = .value () s := by
  cases n with
  | zero => rfl
  | succ n =>
    unfold turns
    rw [state_bind, last]
    rfl

theorem resolveFrom_next (turn : s.deferred[position]? = some d) (bound : Nat) :
    resolveFrom self setting (bound + 1) position s =
      (resolveDeferred self setting d >>= fun _ => resolveFrom self setting bound (position + 1)) s := by
  rw [resolveFrom, state_bind]
  simp only [turn]

theorem turns_next (turn : s.deferred[position]? = some d) (n : Nat) :
    turns self setting (n + 1) position s =
      (resolveDeferred self setting d >>= fun _ => turns self setting n (position + 1)) s := by
  rw [turns, state_bind]
  simp only [turn]

end

/-- The walk comes to an end, the same with any larger bound. -/
def Halts (self : Evaluator) (setting : Setting) (position : Nat) (s : Engine) : Prop :=
  ∃ bound outcome, outcome ≠ .exhausted ∧
    ∀ more, resolveFrom self setting (bound + more) position s = outcome

/-- No more applications of lazy rules than so many are begun, however far the walk goes. -/
def Bounded (self : Evaluator) (setting : Setting) (most position : Nat) (s : Engine) : Prop :=
  ∀ n u, turns self setting n position s = .value () u → u.cache.entries.length ≤ most

theorem Bounded.next {most position : Nat} {d : DeferredBinding}
    (bounded : Bounded self setting most position s) (turn : s.deferred[position]? = some d)
    (ended : resolveDeferred self setting d s = .value () u) :
    Bounded self setting most (position + 1) u := by
  intro n w gone
  refine bounded (n + 1) w ?_
  rw [turns_next turn]
  exact bind_eq_value.2 ⟨(), u, ended, gone⟩

theorem Halts.next {position : Nat} {d : DeferredBinding} (turn : s.deferred[position]? = some d)
    (ended : resolveDeferred self setting d s = .value () u)
    (halts : Halts self setting (position + 1) u) : Halts self setting position s := by
  obtain ⟨bound, outcome, certain, same⟩ := halts
  refine ⟨bound + 1, outcome, certain, fun more => ?_⟩
  rw [Nat.add_right_comm, resolveFrom_next turn, bind_of_value ended, same more]

/-- Each turn takes one binding off, or begins an application of which only so many are left. -/
theorem Turning.halts {most : Nat} (turning : Turning setting t.module self) (position : Nat)
    (s : Engine) (walking : Walking t.module s) (bounded : Bounded self setting most position s) :
    Halts self setting position s := by
  cases turn : s.deferred[position]? with
  | none =>
    refine ⟨1, .value () s, by simp, fun more => ?_⟩
    rw [Nat.add_comm, resolveFrom_finished turn]
  | some d =>
    have own := walking.listed d (List.mem_of_getElem? turn)
    cases ended : resolveDeferred self setting d s with
    | value _ u =>
      have later : Bounded self setting most (position + 1) u := bounded.next turn ended
      have grows := turning.grows walking ended
      have few : u.cache.entries.length ≤ most := later 0 u rfl
      have waits : position < s.deferred.length := (List.getElem?_eq_some_iff.1 turn).1
      exact .next turn ended (turning.halts (position + 1) u (turning.walking walking own ended) later)
    | failure fault u =>
      refine ⟨1, .failure fault u, by simp, fun more => ?_⟩
      rw [Nat.add_comm, resolveFrom_next turn, bind_of_failure ended]
    | exhausted => exact absurd ended (turning.ends walking own)
termination_by (most - s.cache.entries.length, s.deferred.length - position)
decreasing_by
  rcases grows with begun | ⟨same, waiting⟩
  · exact .left _ _ (by omega)
  · rw [same, waiting]
    exact .right _ (by omega)

theorem turns_eq_resolveFrom {position bound n : Nat}
    (certain : resolveFrom self setting bound position s ≠ .exhausted) (further : bound ≤ n) :
    turns self setting n position s = resolveFrom self setting bound position s := by
  induction bound generalizing s position n with
  | zero => exact absurd rfl certain
  | succ bound ih =>
    obtain ⟨n, rfl⟩ : ∃ k, n = k + 1 := ⟨n - 1, by omega⟩
    cases turn : s.deferred[position]? with
    | none => rw [turns_finished turn, resolveFrom_finished turn]
    | some d =>
      rw [resolveFrom_next turn] at certain ⊢
      rw [turns_next turn]
      cases done : resolveDeferred self setting d s with
      | value _ u =>
        rw [bind_of_value done] at certain ⊢
        rw [bind_of_value done]
        exact ih certain (by omega)
      | failure fault u => rw [bind_of_failure done, bind_of_failure done]
      | exhausted => exact absurd (bind_eq_exhausted.2 (.inl done)) certain

/-- Any number of turns ends. -/
theorem Turning.turns_end (turning : Turning setting t.module self) (n position : Nat)
    (walking : Walking t.module s) : turns self setting n position s ≠ .exhausted := by
  induction n generalizing position s with
  | zero => nofun
  | succ n ih =>
    cases turn : s.deferred[position]? with
    | none =>
      rw [turns_finished turn]
      nofun
    | some d =>
      have own := walking.listed d (List.mem_of_getElem? turn)
      rw [turns_next turn]
      intro cut
      rcases bind_eq_exhausted.1 cut with cut | ⟨_, u, ended, cut⟩
      · exact turning.ends walking own cut
      · exact ih (position + 1) (turning.walking walking own ended) cut

/-- So many turns begin only so many applications. -/
theorem turns_begin (self : Evaluator) (setting : Setting) (position : Nat) (s : Engine) (k : Nat) :
    ∃ most, ∀ n < k, ∀ u, turns self setting n position s = .value () u →
      u.cache.entries.length ≤ most := by
  induction k with
  | zero => exact ⟨0, by simp⟩
  | succ k ih =>
    obtain ⟨most, early⟩ := ih
    obtain ⟨more, last⟩ : ∃ more, ∀ u, turns self setting k position s = .value () u →
        u.cache.entries.length ≤ more := by
      cases ended : turns self setting k position s with
      | value _ u => exact ⟨u.cache.entries.length, by rintro w ⟨⟩; exact Nat.le_refl _⟩
      | failure fault u => exact ⟨0, nofun⟩
      | exhausted => exact ⟨0, nofun⟩
    refine ⟨max most more, fun n within u gone => ?_⟩
    rcases Nat.lt_succ_iff_lt_or_eq.1 within with before | rfl
    · exact Nat.le_trans (early n before u gone) (Nat.le_max_left _ _)
    · exact Nat.le_trans (last u gone) (Nat.le_max_right _ _)

theorem bounded_of_resolveFrom {position bound : Nat}
    (certain : resolveFrom self setting bound position s ≠ .exhausted) :
    ∃ most, Bounded self setting most position s := by
  obtain ⟨most, early⟩ := turns_begin self setting position s (bound + 1)
  refine ⟨most, fun n u gone => ?_⟩
  by_cases before : n < bound + 1
  · exact early n before u gone
  · have last := turns_eq_resolveFrom certain (Nat.le_refl bound)
    have later : turns self setting n position s = resolveFrom self setting bound position s :=
      turns_eq_resolveFrom certain (by omega)
    rw [later, ← last] at gone
    exact early bound (by omega) u gone

theorem Quiet.scheduled (quiet : Quiet s u) : scheduled u = scheduled s := by
  obtain ⟨_, _, _, _, _, _, _, _, _, rfl⟩ := quiet
  rfl

theorem matchAndCreate_declared (ended : matchAndCreate self setting t s = .value () u) :
    ∀ a ∈ scheduled u, a.rule ∈ t.module.matched := by
  obtain ⟨_, a, matched, created⟩ := bind_eq_value.1 ended
  obtain ⟨w, planned, quietly⟩ := runPhase_eq_value matched
  obtain ⟨x, made, settled⟩ := runPhase_eq_value created
  have kept : Keeps unwritten (do createAll t (scheduled (← Run.state))) :=
    .bind .state fun s => createAll_unwritten _
  have same : x.schedule = a.schedule := (kept.value made).schedule
  have declared := scheduled_declared planned
  rw [settled.scheduled]
  unfold scheduled at declared ⊢
  rw [same, show a.schedule = w.schedule from ?_]
  · exact declared
  · obtain ⟨_, _, _, _, _, _, _, _, _, rfl⟩ := quietly
    rfl

section
variable {store : Store} {log : List LogRecord} {depth : Nat}

/-- So a walk begins. -/
theorem prepareWalk_walking (given : setting.transformation = some t)
    (ended : prepareWalk (evaluateWithin setting depth) setting t { store, log } = .value () s) :
    At .initialization s ∧ Walking t.module (enterPhase .resolution s) := by
  have guarded := evaluateWithin_guarding setting depth
  have here := prepareWalk_at guarded (evaluateWithin_steady setting depth) ended
  refine ⟨here, here.depth, ?_, ?_⟩
  · obtain ⟨_, course⟩ := (evaluateWithin_follows setting depth).prepareWalk ended
    exact course.progress.settled (by simp [LazyCache.Settled])
  · obtain ⟨_, b, created, filled⟩ := bind_eq_value.1 ended
    obtain ⟨-, unset⟩ := matchAndCreate_at guarded created
    have declared := matchAndCreate_declared created
    obtain ⟨w, filled, quietly⟩ := runPhase_eq_value filled
    obtain ⟨_, _, read, filled⟩ := bind_eq_value.1 filled
    obtain ⟨rfl, rfl⟩ := state_eq_value.1 read
    have fills : Keeps (listing t.module) (fillAll (evaluateWithin setting depth) setting
        ((scheduled (enterPhase .initialization b)).zip (enterPhase .initialization b).created)) := by
      refine listing_bears.fillAll (fun env _ _ => evaluateWithin_listing given depth env _)
        fun item member => ?_
      have planned : item.1 ∈ scheduled b := (List.of_mem_zip member).1
      exact Module.matched_binds (declared _ planned)
    have nothing : Listed t.module (enterPhase .initialization b) := by
      have none : (enterPhase .initialization b).deferred = [] := unset.deferred
      simp [Listed, none]
    have listed : Listed t.module s := Listed.level quietly.level (fills.value filled nothing)
    exact listed

theorem runPhase_eq_exhausted {phase next : Phase} {work : Run Engine Unit} (here : At phase s)
    (follows : phase.next? = some next) :
    runPhase setting next work s = .exhausted ↔ work (enterPhase next s) = .exhausted := by
  rw [runPhase, bind_of_value (advance_at here follows), bind_eq_exhausted]
  refine or_iff_left ?_
  rintro ⟨_, u, -, noted⟩
  split at noted
  · cases noted
  · cases noted

/-- Whether a run ends is up to the walk, once there is one. -/
theorem runWith_eq_exhausted (here : At .initialization s)
    (prepared : prepareWalk self setting t { store, log } = .value () s) (bound : Nat) :
    runWith self bound setting t { store, log } = .exhausted ↔
      resolveFrom self setting bound 0 (enterPhase .resolution s) = .exhausted := by
  have worked (fault : Fault) (u : Engine) :
      (do Run.modify (failed t fault); Run.fail fault : Run Engine Unit) u ≠ .exhausted := nofun
  rw [runWith, state_bind, if_neg (by simp), bind_eq_exhausted, rescue_eq_exhausted worked,
    phases_eq_bind, bind_of_value prepared, runPhase_eq_exhausted here rfl]
  refine or_iff_left ?_
  rintro ⟨_, u, -, advanced⟩
  rcases bind_eq_exhausted.1 advanced with read | ⟨_, _, _, advanced⟩
  · cases read
  · split at advanced
    · cases advanced
    · cases advanced

theorem prepare_helperless {settings : Settings} {navigator : Navigator}
    (helperless : t.module.helpers = []) (prepared : prepare t settings navigator = .ok setting) :
    setting.transformation = some t ∧ ∀ helper, ¬ HasHelper setting helper := by
  unfold prepare at prepared
  rw [helperless] at prepared
  simp only [Bind.bind, Except.bind] at prepared
  split at prepared
  · cases prepared
  split at prepared
  · cases prepared
  cases prepared
  refine ⟨rfl, fun helper => ?_⟩
  rintro (⟨name, known⟩ | ⟨name, helpers, known, -⟩)
  · cases known
  · cases known

end

end Engine

end Metamorph
