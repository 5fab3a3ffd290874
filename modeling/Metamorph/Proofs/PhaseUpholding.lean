import Metamorph.Proofs.PhaseOrder
import Metamorph.Proofs.Reach
import Metamorph.Proofs.RuleUpholding

/-! Pipelines that are up to a standard, phase by phase, and the evaluators that they are run with. What
is scheduled comes from the sources; once everything is created the schedule has its outputs. -/
namespace Metamorph

/-- An ambiguous match is reported as such, with a note for each rule. -/
theorem Engine.ambiguousMatch_usual (source : String) (rules : List MatchedRule) :
    (ambiguousMatch source rules).isDuplicate = false := by
  have noted (error : Diagnostic) :
      (rules.foldl (fun error rule => error.addNote
        { message := "rule '" ++ rule.name ++ "' matches " ++ rule.source.type
          span := some (.ofLocation rule.loc) }) error).cause = error.cause := by
    induction rules generalizing error with
    | nil => rfl
    | cons rule rest ih => exact ih _
  unfold ambiguousMatch Fault.isDuplicate
  dsimp only
  rw [noted]
  rfl

namespace Engine
open Run
variable {setting : Setting} {t : Transformation} {self : Evaluator} {m : Module}
  {s u : Engine}

/-! The sources of a schedule are objects that were examined, in their order. -/
section
variable {schedule final : Schedule} {model : String} {examined : List Handle}

theorem add_sources (rule : Option MatchedRule) (h : Handle)
    (part : (schedule.applications.map (·.source)).Sublist (examined.map .object)) :
    ((Schedule.add schedule rule (.object h) model).applications.map (·.source)).Sublist
      ((examined ++ [h]).map .object) := by
  rw [List.map_append]
  cases rule with
  | none => exact part.trans (List.sublist_append_left _ _)
  | some rule =>
    unfold Schedule.add
    rw [List.map_append]
    exact part.append (List.Sublist.refl _)

theorem matchObjects_sources {objects : List Handle}
    (part : (schedule.applications.map (·.source)).Sublist (examined.map .object))
    (ended : matchObjects self setting m model schedule objects s = .value final u) :
    (final.applications.map (·.source)).Sublist ((examined ++ objects).map .object) := by
  induction objects generalizing schedule examined s with
  | nil =>
    obtain ⟨rfl, -⟩ := pure_eq_value.1 ended
    rwa [List.append_nil]
  | cons h rest ih =>
    obtain ⟨rule, w, -, ended⟩ := bind_eq_value.1 ended
    have later := ih (add_sources rule h part) ended
    rwa [List.append_assoc] at later

theorem matchModels_sources (guarded : ∀ env e, Keeps guarding (self env e))
    {providers : Named Provider} {names : List String} (matching : s.phase = .matching)
    (part : (schedule.applications.map (·.source)).Sublist (examined.map .object))
    (ended : matchModels self setting m providers schedule names s = .value final u) :
    (final.applications.map (·.source)).Sublist
      ((examined ++ (names.filterMap providers.get?).flatMap fun p =>
        s.store.members p.model).map .object) := by
  induction names generalizing schedule examined s with
  | nil =>
    obtain ⟨rfl, -⟩ := pure_eq_value.1 ended
    rwa [List.filterMap_nil, List.flatMap_nil, List.append_nil]
  | cons name rest ih =>
    unfold matchModels at ended
    cases known : providers.get? name with
    | none => simp [known] at ended
    | some provider =>
      simp only [known, bind_eq_value, state_eq_value, collaborate_eq_value] at ended
      obtain ⟨_, _, ⟨rfl, rfl⟩, objects, _, ⟨listed, rfl⟩, between, w, matched, ended⟩ := ended
      have objects : s.store.members provider.model = objects :=
        Except.ok.inj (refuse_eq_ok listed)
      have serves : Serves guarding setting self := guarding_serves guarded
      have quiet := ((serves.guards m).matchObjects _ _ _).value matched matching
      have later := ih (quiet.phase.trans matching) (matchObjects_sources part matched) ended
      have same : w.store = s.store := quiet.idle.store
      rwa [same, List.append_assoc, ← objects, ← List.flatMap_cons
        (f := fun p : Provider => s.store.members p.model), ← List.filterMap_cons_some known] at later

/-- What is scheduled is planned. -/
theorem buildSchedule_planned (guarded : ∀ env e, Keeps guarding (self env e))
    (matching : s.phase = .matching)
    (ended : buildSchedule self setting t.module t.sources s = .value final u) :
    Planned t s.store final where
  declared := matchModels_declared (by simp [Schedule.Declared]) ended
  sources := by
    have nothing : ((Schedule.mk [] 0).applications.map (·.source)).Sublist
      (([] : List Handle).map .object) := .slnil
    exact matchModels_sources guarded matching nothing ended

end

/-- What is planned comes from objects of the sources. -/
theorem Planned.sourced {schedule : Schedule} {store : Store} (planned : Planned t store schedule)
    {a : Application} (member : a ∈ schedule.applications) :
    ∃ h, a.source = .object h ∧ h ∈ t.sourceObjects store := by
  have listed : a.source ∈ (t.sourceObjects store).map .object :=
    planned.sources.subset (List.mem_map_of_mem member)
  obtain ⟨h, known, object⟩ := List.mem_map.1 listed
  exact ⟨h, object.symm, known⟩

/-- Creation goes through the schedule. -/
theorem createAll_length {left : List Application}
    (ended : createAll t left s = .value () u) :
    u.schedule = s.schedule ∧ u.created.length = s.created.length + left.length := by
  induction left generalizing s with
  | nil =>
    obtain ⟨-, rfl⟩ := pure_eq_value.1 ended
    exact ⟨rfl, rfl⟩
  | cons a rest ih =>
    obtain ⟨_, _, noted, ended⟩ := bind_eq_value.1 ended
    obtain rfl := modify_eq_value.1 noted
    obtain ⟨outputs, w, made, ended⟩ := bind_eq_value.1 ended
    obtain ⟨_, x, linked, ended⟩ := bind_eq_value.1 ended
    obtain ⟨link, trace, -, rfl⟩ := registerLink_eq_value linked
    obtain ⟨_, _, counted, ended⟩ := bind_eq_value.1 ended
    obtain rfl := modify_eq_value.1 counted
    have others := ((makeTargets_keeps _).value made).others
    obtain ⟨schedule, created⟩ := ih ended
    have kept : w.created.length = s.created.length := congrArg List.length others.created
    refine ⟨schedule.trans others.schedule, ?_⟩
    rw [created]
    change (w.created ++ [outputs]).length + rest.length = _
    rw [List.length_append, kept, List.length_cons]
    exact Nat.add_right_comm _ 1 _

namespace Standard
variable {std : Standard setting} {leader follower : Evaluator} {α : Type}

/-! States between the phases. -/

theorem State.planned {schedule : Schedule} (given : setting.transformation = some t)
    (state : std.State s) (nothing : s.created = []) (early : .initialization ∉ s.visited)
    (listed : std.books.lists t s.store) (planned : Planned t s.store schedule) :
    std.State { s with schedule := some schedule } := by
  have books := std.books.plans given state.books nothing early listed planned
  refine ⟨{ state.meets with scheduled := fun a member => ?_ }, books⟩
  obtain ⟨h, object, -⟩ := planned.sourced member
  exact object ▸ trivial

theorem State.phase {phase : Phase} (state : std.State s)
    (created : phase = .initialization → s.created.length = (scheduled s).length) :
    std.State (enterPhase phase s) :=
  ⟨{ state.meets with }, std.books.enters state.books created⟩

namespace Agrees
variable (agrees : Agrees std leader follower)
include agrees

/-! Matching. -/

theorem guardHolds (rule : MatchedRule) {source : Value} (own : source.Meets std.norm) :
    std.Upholds (fun _ => True) (guardHolds leader setting rule source)
      (Engine.guardHolds follower setting rule source) := by
  unfold Engine.guardHolds
  split
  · exact .pure trivial
  · have bound : std.norm.Table [(rule.source.name, source)] := List.forall_mem_singleton.2 own
    exact .bind (agrees (.rootEnvironment setting bound)) fun _ _ => .pure trivial

theorem winners {source : Value} (own : source.Meets std.norm) (best : Option Nat)
    (fitting : List (Nat × MatchedRule)) :
    std.Upholds (fun _ => True) (winners leader setting source best fitting)
      (Engine.winners follower setting source best fitting) := by
  induction fitting generalizing best with
  | nil => exact .pure trivial
  | cons candidate rest ih =>
    unfold Engine.winners
    refine .ite (.pure trivial) (.bind (agrees.guardHolds _ own) fun holds _ => ?_)
    exact .ite (.bind (ih _) fun _ _ => .pure trivial) (ih _)

theorem selectRule {source : Value} (own : source.Meets std.norm) (model : String) :
    std.Upholds (fun _ => True) (selectRule leader setting m source model)
      (Engine.selectRule follower setting m source model) := by
  refine .bind (ancestry_upholds _) fun found _ => .bind (agrees.winners own _ _) fun rules _ => ?_
  split
  · exact .pure trivial
  · exact .pure trivial
  · refine .state fun s kept => (?_ : std.Upholds _ _ _) s kept
    exact .bind (.ofResult Store.Meets.textOf_fails) fun text _ => .fail (ambiguousMatch_usual _ _)

theorem matchObjects (model : String) (schedule : Schedule) (objects : List Handle) :
    std.Upholds (fun _ => True) (matchObjects leader setting m model schedule objects)
      (Engine.matchObjects follower setting m model schedule objects) := by
  induction objects generalizing schedule with
  | nil => exact .pure trivial
  | cons h rest ih =>
    have own : (Value.object h).Meets std.norm := trivial
    exact .bind (agrees.selectRule own model) fun _ _ => ih _

theorem matchModels {providers : Named Provider}
    (allowed : ∀ name provider, providers.get? name = some provider →
      provider.refusals.Allowed std.norm) (schedule : Schedule) (names : List String) :
    std.Upholds (fun _ => True) (matchModels leader setting m providers schedule names)
      (Engine.matchModels follower setting m providers schedule names) := by
  induction names generalizing schedule with
  | nil => exact .pure trivial
  | cons name rest ih =>
    unfold Engine.matchModels
    split
    · exact .fail rfl
    · rename_i provider known
      refine .state fun s kept => (?_ : std.Upholds _ _ _) s kept
      have listed : std.norm.Fails (provider.objects s.store) :=
        Provider.refuse_sound (fun fault refused => allowed name provider known fault (.inl refused))
          (.ok trivial)
      refine .bind (.collaborate listed) fun objects _ => ?_
      exact .bind (agrees.matchObjects _ _ _) fun _ _ => ih _

theorem matchSources_at (given : setting.transformation = some t)
    (guarded : ∀ env e, Keeps guarding (leader env e)) (matching : s.phase = .matching)
    (nothing : s.created = []) (early : .initialization ∉ s.visited)
    (listed : std.books.lists t s.store) (state : std.State s) :
    std.At (fun _ => True) s (matchSources leader setting t)
      (Engine.matchSources follower setting t) := by
  have built := agrees.matchModels (m := t.module) (fun _ _ known => sources_allowed given known) {}
    t.module.sources.names s state
  refine At.bind built fun {schedule u} ended _ kept => .modify ?_
  have planned := buildSchedule_planned guarded matching ended
  have still : Keeps guarding (buildSchedule leader setting t.module t.sources) :=
    buildSchedule_guarded guarded
  have quiet : Quiet s u := still.value ended matching
  have same : u.store = s.store := quiet.idle.store
  refine kept.planned given (quiet.idle.created.trans nothing) ?_ (same ▸ listed) (same ▸ planned)
  rw [quiet.level.visited]
  exact early

end Agrees

/-! Creation. -/

theorem createAll_at {left : List Application} (given : setting.transformation = some t)
    (pending : (scheduled s).drop s.created.length = left) (state : std.State s) :
    std.At (fun _ => True) s (createAll t left) (createAll t left) := by
  induction left generalizing s with
  | nil => exact .pure trivial state
  | cons a rest ih =>
    refine At.bind (Upholds.noting (noteRule_quiet a.rule.name) (fun _ => rfl) s state)
      fun {_ u} noted _ state => ?_
    obtain rfl := modify_eq_value.1 noted
    refine At.bind (makeTargets_upholds given a.rule.outputs _ state) fun {outputs w} made meets state => ?_
    have others := ((makeTargets_keeps _).value made).others
    have same : (scheduled w).drop w.created.length = a :: rest := by
      rw [scheduled, others.schedule, others.created]
      exact pending
    have turn : (scheduled w)[w.created.length]? = some a := by
      have first := congrArg (·[0]?) same
      simpa using first
    refine link_at (fun link trace registered => ?_) (fun fault refused => ?_) state
    · refine (ih ?_ (state.created given turn registered meets)).admits
      have left := congrArg List.tail same
      rw [List.tail_drop, List.tail_cons] at left
      change (scheduled w).drop (w.created ++ [outputs]).length = rest
      simpa using left
    · exact std.books.rejects given state.books turn refused

/-! Phases. -/

theorem advance_at {phase : Phase} (state : std.State s)
    (created : phase = .initialization → s.created.length = (scheduled s).length) :
    std.At (fun _ => True) s (advance phase) (advance phase) := by
  refine .state ?_
  split
  · exact .modify (state.phase created)
  · exact .fail (std.norm.ordinary rfl) state

theorem runPhase_at {phase : Phase} {work other : Run Engine Unit} (state : std.State s)
    (created : phase = .initialization → s.created.length = (scheduled s).length)
    (worked : std.State (enterPhase phase s) →
      std.At (fun _ => True) (enterPhase phase s) work other) :
    std.At (fun _ => True) s (runPhase setting phase work) (runPhase setting phase other) := by
  refine At.bind (advance_at state created) fun {_ u} advanced _ state => ?_
  obtain rfl := advance_eq_value advanced
  refine At.bind (worked state) fun {_ u} _ _ state => ?_
  split
  · exact .modify (state.following { state.meets with } rfl)
  · exact .pure trivial state

/-- After a phase in which everything was created. -/
theorem created_of_runPhase (nothing : s.created = [])
    (ended : runPhase setting .creation (do createAll t (scheduled (← Run.state))) s = .value () u) :
    u.created.length = (scheduled u).length := by
  obtain ⟨w, worked, quiet⟩ := runPhase_eq_value ended
  obtain ⟨_, _, read, created⟩ := bind_eq_value.1 worked
  obtain ⟨rfl, rfl⟩ := state_eq_value.1 read
  obtain ⟨schedule, length⟩ := createAll_length created
  have begun : (enterPhase .creation s).created.length = 0 := congrArg List.length nothing
  rw [quiet.idle.created, scheduled, quiet.idle.schedule, schedule, length, begun, Nat.zero_add]
  rfl

namespace Agrees
variable (agrees : Agrees std leader follower)
include agrees

theorem fillAll {work : List (Application × Outputs)}
    (meets : ∀ item ∈ work, item.1.source.Meets std.norm ∧ std.norm.Table item.2) :
    std.Upholds (fun _ => True) (fillAll leader setting work)
      (Engine.fillAll follower setting work) := by
  induction work with
  | nil => exact .pure trivial
  | cons item rest ih =>
    obtain ⟨⟨own, table⟩, others⟩ := List.forall_mem_cons.1 meets
    refine .bind (Upholds.applying (agrees.fillApplication table ?_)) fun _ _ => ih others
    exact List.forall_mem_singleton.2 own

theorem resolveFrom (bound position : Nat) :
    std.Upholds (fun _ => True) (resolveFrom leader setting bound position)
      (Engine.resolveFrom follower setting bound position) := by
  induction bound generalizing position with
  | zero => exact .cutOff
  | succ bound ih =>
    refine .state fun s kept => ?_
    cases turn : s.deferred[position]? with
    | none => exact .pure trivial kept
    | some d =>
      have meets := kept.meets.deferred d (List.mem_of_getElem? turn)
      refine Upholds.bind (.bind (agrees.applyBinding (.rootEnvironment setting meets.scope) meets.calls)
        fun _ _ => .modify fun u state => ?_) (fun _ _ => ih (position + 1)) s kept
      exact state.following { state.meets with } rfl

theorem phases_at (bound : Nat) {store : Store} {log : List LogRecord}
    (given : setting.transformation = some t) (guarded : ∀ env e, Keeps guarding (leader env e))
    (listed : std.books.lists t store)
    (state : std.State { store, log }) :
    std.At (fun _ => True) { store, log } (phases leader bound setting t)
      (phases follower bound setting t) := by
  have matched : std.At (fun _ => True) { store, log }
      (runPhase setting .matching (matchSources leader setting t))
      (runPhase setting .matching (matchSources follower setting t)) :=
    runPhase_at state (by simp) fun state =>
      agrees.matchSources_at given guarded rfl rfl (by simp [enterPhase]) listed state
  refine At.bind matched fun {_ a} matched _ state => ?_
  have nothing : a.created = [] := by
    obtain ⟨w, worked, quiet⟩ := runPhase_eq_value matched
    obtain ⟨schedule, still⟩ := matchSources_left guarded rfl (Outcome.state?_value worked)
    exact (still.trans quiet).idle.created
  have created : std.At (fun _ => True) a
      (runPhase setting .creation (do createAll t (scheduled (← Run.state))))
      (runPhase setting .creation (do createAll t (scheduled (← Run.state)))) := by
    refine runPhase_at state (by simp) fun state => .state (createAll_at given ?_ state)
    change (scheduled a).drop a.created.length = _
    rw [nothing]
    rfl
  refine At.bind created fun {_ b} created _ state => ?_
  refine At.bind (runPhase_at state (fun _ => created_of_runPhase nothing created) fun state => .state ?_)
    fun {_ c} filled _ state => ?_
  · refine agrees.fillAll (fun item member => ?_) _ state
    obtain ⟨first, second⟩ := List.of_mem_zip member
    exact ⟨state.meets.scheduled _ first, state.meets.created _ second⟩
  · exact runPhase_at state (by simp) (agrees.resolveFrom bound 0 _)

theorem runWith_at (bound : Nat) {store : Store} {log : List LogRecord}
    (given : setting.transformation = some t) (guarded : ∀ env e, Keeps guarding (leader env e))
    (listed : std.books.lists t store)
    (state : std.State { store, log }) :
    std.At (fun _ => True) { store, log } (runWith leader bound setting t)
      (runWith follower bound setting t) := by
  refine .state ?_
  rw [if_neg (by simp), if_neg (by simp)]
  have worked : std.At (fun _ => True) { store, log } (phases leader bound setting t)
      (phases follower bound setting t) :=
    agrees.phases_at bound given guarded listed state
  refine At.bind (worked.rescue fun {fault u} allowed state => ?_) fun _ _ state =>
    advance_at state nofun
  refine At.bind (.modify ?_) fun _ _ state => .fail allowed state
  have entered : std.State (enterPhase .failed u) := state.phase nofun
  exact entered.following { entered.meets with } rfl

theorem callRuleWith (given : setting.transformation = some t) (name : String)
    {args : List Value} (each : ∀ v ∈ args, v.Meets std.norm) :
    std.Upholds (·.Meets std.norm) (callRuleWith leader setting t name args)
      (Engine.callRuleWith follower setting t name args) := by
  refine .state fun s kept => ?_
  split
  · exact .fail (std.norm.ordinary rfl) kept
  · split
    · exact .fail (std.norm.ordinary rfl) kept
    · rename_i rule known
      have named : rule.name = name := by simpa using List.find?_some known
      exact agrees.invokeCalled ⟨given, named ▸ known⟩ each s kept

end Agrees

/-- Where everything is up to the standard evaluation is broken off at the same places, with faults that
are allowed. -/
structure Unseen (std : Standard setting) (stop watch : Interruption) : Prop where
  before : ∀ {env e s}, env.Meets std.norm → std.State s →
    watch.before env e s = stop.before env e s ∧
      ∀ fault, stop.before env e s = some fault → std.norm.allowed fault
  after : ∀ {env e v s}, env.Meets std.norm → v.Meets std.norm → std.State s →
    watch.after env e v s = stop.after env e v s ∧
      ∀ fault, stop.after env e v s = some fault → std.norm.allowed fault

theorem breakOff_upholds {fault? other? : Engine → Option Fault}
    (same : ∀ s, std.State s → other? s = fault? s ∧
      ∀ fault, fault? s = some fault → std.norm.allowed fault) :
    std.Upholds (fun _ => True) (breakOff fault?) (breakOff other?) := by
  refine .state fun s kept => ?_
  obtain ⟨alike, allowed⟩ := same s kept
  rw [alike]
  split
  · exact .fail (allowed _ ‹_›) kept
  · exact .pure trivial kept

theorem evaluateUntil_agrees {stop watch : Interruption} (unseen : Unseen std stop watch)
    (bound : Nat) : Agrees std (evaluateUntil stop setting bound) (evaluateUntil watch setting bound) := by
  induction bound with
  | zero => exact fun _ _ _ => .cutOff
  | succ bound ih =>
    intro env e meets
    refine .bind (breakOff_upholds fun s kept => unseen.before meets kept) fun _ _ => ?_
    have stepped : std.Upholds (·.Meets std.norm)
        (Run.mapFault (Fault.locate e.span) (step setting (evaluateUntil stop setting bound) env e))
        (Run.mapFault (Fault.locate e.span) (step setting (evaluateUntil watch setting bound) env e)) :=
      fun s kept => (ih.serves.step meets e s kept).mapFault (std.norm.located e.span)
    refine .bind stepped fun v own => ?_
    exact .bind (breakOff_upholds fun s kept => unseen.after meets own kept) fun _ _ => .pure own

end Standard

/-- The pipeline may be found in the state, at some point of its run, after it, or after called rules that
were handed values with the property. -/
inductive ReachesWith (handed : Value → Prop) (setting : Setting) (t : Transformation) (store : Store)
    (log : List LogRecord) : Engine → Prop
  | within {stop depth bound s}
      (left : (phases (evaluateUntil stop setting depth) bound setting t { store, log }).state? =
        some s) : ReachesWith handed setting t store log s
  | ran {stop depth bound s}
      (left : (runWith (evaluateUntil stop setting depth) bound setting t { store, log }).state? =
        some s) : ReachesWith handed setting t store log s
  | called {stop depth name args s u}
      (earlier : ReachesWith handed setting t store log s)
      (each : ∀ v ∈ args, handed v)
      (left : (callRuleWith (evaluateUntil stop setting depth) setting t name args s).state? =
        some u) : ReachesWith handed setting t store log u

section
variable {handed : Value → Prop} {store : Store} {log : List LogRecord}

theorem Reaches.with (all : ∀ v, handed v) (reaches : Reaches setting t store log u) :
    ReachesWith handed setting t store log u := by
  induction reaches with
  | within left => exact .within left
  | ran left => exact .ran left
  | called _ left ih => exact .called ih (fun v _ => all v) left

theorem ReachesWith.reaches (reaches : ReachesWith handed setting t store log u) :
    Reaches setting t store log u := by
  induction reaches with
  | within left => exact .within left
  | ran left => exact .ran left
  | called _ _ left ih => exact .called ih left

theorem evaluateUntil_guarding (stop : Interruption) (setting : Setting) (depth : Nat) :
    ∀ env e, Keeps guarding (evaluateUntil stop setting depth env e) :=
  evaluateUntil_keeps (fun _ => trivial) (fun _ kept => guarding_serves kept) depth

/-- Whatever ends a run, the state is up to the standard. -/
theorem ReachesWith.state {std : Standard setting} (given : setting.transformation = some t)
    (lenient : ∀ fault, std.norm.allowed fault) (listed : std.books.lists t store)
    (begun : std.State { store, log })
    (reaches : ReachesWith (·.Meets std.norm) setting t store log u) : std.State u := by
  have agrees (stop : Interruption) (depth : Nat) : Standard.Agrees std
      (evaluateUntil stop setting depth) (evaluateUntil stop setting depth) :=
    Standard.evaluateUntil_agrees
      ⟨fun _ _ => ⟨rfl, fun _ _ => lenient _⟩, fun _ _ _ => ⟨rfl, fun _ _ => lenient _⟩⟩ depth
  induction reaches with
  | @within stop depth bound s left =>
    have guarded := evaluateUntil_guarding stop setting depth
    exact ((agrees stop depth).phases_at bound given guarded listed begun).admits.left left
  | @ran stop depth bound s left =>
    have guarded := evaluateUntil_guarding stop setting depth
    exact ((agrees stop depth).runWith_at bound given guarded listed begun).admits.left left
  | @called stop depth name args s u earlier each left ih =>
    exact ((agrees stop depth).callRuleWith given name each s ih).admits.left left

end

end Engine

end Metamorph
