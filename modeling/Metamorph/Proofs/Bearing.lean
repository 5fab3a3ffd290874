import Metamorph.Engine.Pipeline
import Metamorph.Proofs.Evaluation

/-! What rules at work keep whatever they do. Making objects, linking and assigning them leaves the
phases, the rules and bindings at work, the bindings that wait and the history as they are, so a
conduct that heeds nothing else is kept by rules as soon as it is kept by their expressions. -/
namespace Metamorph

/-- The expression that a statement evaluates. -/
def Statement.expression : Statement → Expr
  | .assign _ _ e => e
  | .evaluate e => e

/-- The expressions of the bindings are of the kind. -/
def OutPattern.Binds (on : Expr → Prop) (out : OutPattern) : Prop :=
  ∀ binding ∈ out.bindings, on binding.value

theorem OutPattern.binds_any (out : OutPattern) : out.Binds fun _ => True :=
  fun _ _ => trivial

/-- More was noted in the frame, and less is left to use again. -/
structure BindingFrame.Grows (frame next : BindingFrame) : Prop where
  saw : frame.sawIncomplete = true → next.sawIncomplete = true
  calls : frame.calls <:+ next.calls
  replay : List.Sublist next.replay frame.replay

namespace BindingFrame.Grows
variable {frame next last : BindingFrame}

theorem refl (frame : BindingFrame) : frame.Grows frame := ⟨id, List.suffix_rfl, List.Sublist.refl _⟩

theorem trans (first : frame.Grows next) (rest : next.Grows last) : frame.Grows last :=
  ⟨rest.saw ∘ first.saw, first.calls.trans rest.calls, rest.replay.trans first.replay⟩

theorem take? {rule : String} {args : List Value} {call : CalledResult}
    (taken : frame.take? rule args = some (call, next)) : frame.Grows next := by
  obtain ⟨_, -, same⟩ := Option.map_eq_some_iff.1 taken
  cases same
  exact ⟨id, List.suffix_rfl, List.eraseP_sublist⟩

end BindingFrame.Grows

/-- The invocation of a lazy or a called rule, with what happened within it. -/
def Event.Invokes (inner : List Event) : Event → Prop
  | .lazy _ _ _ _ within => within = inner
  | .called _ _ _ within => within = inner
  | _ => False

/-- Work on an assignment or on an application, with what happened within it. -/
def Event.Works (inner : List Event) : Event → Prop
  | .assignment _ _ _ within => within = inner
  | .application _ _ _ _ within => within = inner
  | _ => False

/-- A call that was answered or an assignment that was refused: nothing happened within it. -/
def Event.Notes : Event → Prop
  | .replayed _ _ _ => True
  | .unowned _ _ => True
  | _ => False

namespace Engine
open Run

/-- The states agree on the phases, on how deep rules are nested and on the bindings that wait. -/
structure Level (s t : Engine) : Prop where
  phase : t.phase = s.phase
  visited : t.visited = s.visited
  depth : t.depth = s.depth
  deferred : t.deferred = s.deferred

/-- They also agree on the attributes of the module and on how these were read. -/
structure Abreast (s t : Engine) : Prop where
  phase : t.phase = s.phase
  visited : t.visited = s.visited
  depth : t.depth = s.depth
  deferred : t.deferred = s.deferred
  attributes : t.attributes = s.attributes
  readings : t.readings = s.readings

/-- They also agree on the bindings at work and on what is told. -/
structure Stationary (s t : Engine) : Prop where
  phase : t.phase = s.phase
  visited : t.visited = s.visited
  depth : t.depth = s.depth
  deferred : t.deferred = s.deferred
  attributes : t.attributes = s.attributes
  readings : t.readings = s.readings
  frames : t.frames = s.frames
  history : t.history = s.history

theorem Abreast.level {s t : Engine} (abreast : Abreast s t) : Level s t :=
  ⟨abreast.phase, abreast.visited, abreast.depth, abreast.deferred⟩

theorem Stationary.abreast {s t : Engine} (stationary : Stationary s t) : Abreast s t :=
  ⟨stationary.phase, stationary.visited, stationary.depth, stationary.deferred,
    stationary.attributes, stationary.readings⟩

theorem Aside.stationary {s t : Engine} (aside : Aside s t) : Stationary s t := by
  obtain ⟨_, _, _, _, _, _, _, rfl⟩ := aside
  constructor <;> rfl

theorem Quiet.level {s t : Engine} (quiet : Quiet s t) : Level s t := by
  obtain ⟨_, _, _, _, _, _, _, _, _, rfl⟩ := quiet
  constructor <;> rfl

/-- The conduct heeds nothing but that. The innermost binding at work may note what it meets, the
history what happens, and bindings with expressions of the kind may be put down. -/
structure Bears (c : Conduct Engine) (on : Expr → Prop) : Prop where
  stationary : ∀ {s t}, Stationary s t → c.ends s t
  later : ∀ {s t u}, c.fails s t → Stationary t u → c.fails s u
  defer : ∀ {s d}, on d.binding.value → c.ends s { s with deferred := s.deferred ++ [d] }
  heed : ∀ {s change}, (∀ frame ∈ s.frames.head?, frame.Grows (change frame)) →
    c.ends s (changeFrame change s)
  note : ∀ {s event}, event.Notes → c.ends s (note event s)
  inFrame : ∀ {α frame} {body : Run Engine α}, Keeps c body → Keeps c (inFrame frame body)
  nest : ∀ {α} {event : Option α → List Event → Event} {body : Run Engine α},
    (∀ a inner, (event a inner).Works inner) → Keeps c body → Keeps c (nest event body)

namespace Bears
variable {c : Conduct Engine} {on : Expr → Prop} {setting : Setting} {t : Transformation}
  {self : Evaluator}

/-- A conduct that does not heed the history. -/
theorem nest_unheeded (told : ∀ s history, c.ends s { s with history })
    (later : ∀ {s u} history, c.fails s u → c.fails s { u with history }) {α : Type}
    {event : Option α → List Event → Event} {body : Run Engine α} {s r : Engine}
    (kept : c.Allows s (body { r with history := [] })) : c.Allows s (Engine.nest event body r) :=
  nest_allows kept (fun _ ends => c.trans ends (told _ _)) (later _) id

/-- A conduct that does not heed the bindings at work and the history. -/
theorem of_abreast (abreast : ∀ {s t}, Abreast s t → c.ends s t)
    (later : ∀ {s t u}, c.fails s t → Abreast t u → c.fails s u)
    (defer : ∀ {s d}, on d.binding.value → c.ends s { s with deferred := s.deferred ++ [d] }) :
    Bears c on where
  stationary stationary := abreast stationary.abreast
  later failed stationary := later failed stationary.abreast
  defer := defer
  heed _ := abreast (by constructor <;> rfl)
  note _ := abreast (by constructor <;> rfl)
  inFrame {α frame body} kept := by
    refine .bind (.modify fun _ => abreast (by constructor <;> rfl)) fun _ s => ?_
    have framed : Keeps c (do
        let a ← body
        return (a, (← Run.state).frames.head?.getD frame)) :=
      .bind kept fun _ => .bind .state fun _ => .pure _
    refine (framed s).ensuring (fun u => abreast ?_) fun failed => later failed ?_
    · constructor <;> rfl
    · constructor <;> rfl
  nest _ kept _ := by
    refine nest_unheeded (fun _ _ => abreast (by constructor <;> rfl))
      (fun _ failed => later failed (by constructor <;> rfl)) ?_
    exact (kept _).since (abreast (by constructor <;> rfl))

/-- Nor does it heed the attributes of the module. -/
theorem of_level (level : ∀ {s t}, Level s t → c.ends s t)
    (later : ∀ {s t u}, c.fails s t → Level t u → c.fails s u)
    (defer : ∀ {s d}, on d.binding.value → c.ends s { s with deferred := s.deferred ++ [d] }) :
    Bears c on :=
  of_abreast (fun abreast => level abreast.level)
    (fun failed abreast => later failed abreast.level) defer

theorem modify (bears : Bears c on) {change : Engine → Engine}
    (stationary : ∀ s, Stationary s (change s)) : Keeps c (Run.modify change) :=
  .modify fun s => bears.stationary (stationary s)

theorem working (bears : Bears c on) {α : Type} {occasion : Occasion} {work : Assignment}
    {body : Run Engine (α × Value)} (kept : Keeps c body) :
    Keeps c (working occasion work body) :=
  .bind (bears.nest (fun _ _ => rfl) kept) fun _ => .pure _

theorem makeTarget (bears : Bears c on) (out : OutPattern) : Keeps c (makeTarget t out) := by
  refine .bind (.ofResult _) fun provider => .bind .state fun s => ?_
  refine .bind (.collaborate _ _) fun made => ?_
  exact .bind (bears.modify fun _ => by constructor <;> rfl) fun _ => .pure _

theorem makeTargets (bears : Bears c on) (patterns : List OutPattern) :
    Keeps c (makeTargets t patterns) := by
  induction patterns with
  | nil => exact .pure _
  | cons out rest ih => exact .bind (bears.makeTarget out) fun _ => .bind ih fun _ => .pure _

theorem registerLink (bears : Bears c on) (rule : String) (source : Value) (outputs : Outputs)
    (kind : LinkKind) : Keeps c (registerLink rule source outputs kind) := by
  refine .bind .state fun s => .bind (.ofResult _) fun linked => ?_
  exact bears.modify fun _ => by constructor <;> rfl

theorem assign (bears : Bears c on) (target : Value) (feature : String) (v : Value) :
    Keeps c (assign setting target feature v) := by
  refine .bind .state fun s => ?_
  split
  · refine .bind (.ofResult _) fun v => .bind (.collaborate _ _) fun store => ?_
    exact .bind (bears.modify fun _ => by constructor <;> rfl) fun _ => .pure _
  · refine .bind (.modify fun _ => bears.note trivial) fun _ => ?_
    exact .bind (.ofResult _) fun _ => .fail _

section
variable (bears : Bears c on) (expression : ∀ env {e}, on e → Keeps c (self env e))
include bears expression

theorem applyBinding {rule : String} {target : Value} {binding : Binding} {env : Environment}
    {deferrable : Bool} {replay : List CalledResult} (own : on binding.value) :
    Keeps c (applyBinding self setting rule target binding env deferrable replay) := by
  refine .bind (bears.working ?_) fun frame => ?_
  · refine .bind (bears.inFrame (expression env own)) fun evaluated => ?_
    refine .bind (bears.modify fun _ => by constructor <;> rfl) fun _ => ?_
    exact .bind (bears.assign _ _ _) fun _ => .pure _
  · split
    · exact .modify fun s => bears.defer own
    · exact .pure _

theorem applyBindings {rule : String} {target : Value} {env : Environment}
    {bindings : List Binding} (own : ∀ binding ∈ bindings, on binding.value) :
    Keeps c (applyBindings self setting rule target env bindings) := by
  induction bindings with
  | nil => exact .pure _
  | cons binding rest ih =>
    obtain ⟨first, others⟩ := List.forall_mem_cons.1 own
    exact .bind (bears.applyBinding expression first) fun _ => ih others

theorem fillOutputs {rule : String} {outputs : Outputs} {env : Environment}
    {patterns : List OutPattern} (own : ∀ out ∈ patterns, out.Binds on) :
    Keeps c (fillOutputs self setting rule outputs env patterns) := by
  induction patterns with
  | nil => exact .pure _
  | cons out rest ih =>
    obtain ⟨first, others⟩ := List.forall_mem_cons.1 own
    exact .bind (bears.applyBindings expression first) fun _ => ih others

theorem fillApplication {rule : String} {patterns : List OutPattern} {outputs : Outputs}
    {scope : Named Value} (own : ∀ out ∈ patterns, out.Binds on) :
    Keeps c (fillApplication self setting rule patterns outputs scope) :=
  .bind (bears.modify fun s => (noteRule_aside rule s).stationary) fun _ =>
    bears.fillOutputs expression own

theorem executeStatement {env : Environment} {statement : Statement}
    (own : on statement.expression) : Keeps c (executeStatement self setting env statement) := by
  cases statement with
  | evaluate e => exact expression env own
  | assign target feature e =>
    refine bears.working (.bind (expression env own) fun v => .bind (.ofResult _) fun object => ?_)
    refine .bind .state fun s => ?_
    split
    · exact .bind (.fail _) fun _ => .bind (bears.modify fun _ => by constructor <;> rfl)
        fun _ => .bind (bears.assign _ _ _) fun _ => .pure _
    · refine .bind (bears.modify fun _ => by constructor <;> rfl) fun _ => ?_
      exact .bind (bears.assign _ _ _) fun _ => .pure _

theorem executeBody {env : Environment} {last : Value} {body : List Statement}
    (own : ∀ statement ∈ body, on statement.expression) :
    Keeps c (executeBody self setting env last body) := by
  induction body generalizing last with
  | nil => exact .pure _
  | cons statement rest ih =>
    obtain ⟨first, others⟩ := List.forall_mem_cons.1 own
    exact .bind (bears.executeStatement expression first) fun v => ih others

theorem fillLazy {rule : LazyRule} {source : Value} {outputs : Outputs}
    (own : ∀ out ∈ rule.outputs, out.Binds on) :
    Keeps c (fillLazy self setting rule source outputs) := by
  unfold Engine.fillLazy applying
  exact bears.nest (fun _ _ => rfl) (bears.fillApplication expression own)

theorem executeCalled {rule : CalledRule} {args : List Value}
    (own : ∀ out ∈ rule.outputs, out.Binds on)
    (body : ∀ statement ∈ rule.body, on statement.expression) :
    Keeps c (executeCalled self setting t rule args) := by
  refine .bind (bears.modify fun s => (noteRule_aside _ s).stationary) fun _ => ?_
  refine .bind (bears.makeTargets _) fun outputs => ?_
  refine .bind (bears.nest (fun _ _ => rfl) ?_) fun _ => .pure _
  exact .bind (bears.fillApplication expression own) fun _ => bears.executeBody expression body

end

theorem createLazy (bears : Bears c on) (rule : LazyRule) (source : Value) :
    Keeps c (createLazy t rule source) := by
  refine .bind (bears.modify fun s => (noteRule_aside _ s).stationary) fun _ => ?_
  refine .bind (bears.makeTargets _) fun outputs => .bind (bears.registerLink _ _ _ _) fun _ => ?_
  exact .bind (bears.modify fun _ => by constructor <;> rfl) fun _ => .pure _

theorem request (bears : Bears c on) {create : Run Engine Outputs}
    {fill : Outputs → Run Engine Unit} (created : Keeps c create)
    (filled : ∀ outputs, Keeps c (fill outputs)) (rule : String) (source : Value) :
    Keeps c (LazyCache.request cachePlace create fill rule source) := by
  refine .bind .state fun s => ?_
  split
  · exact .bind (bears.modify fun _ => by constructor <;> rfl) fun _ => .pure _
  · refine .bind (bears.modify fun _ => by constructor <;> rfl) fun _ => .bind created fun outputs => ?_
    refine .bind (bears.modify fun _ => by constructor <;> rfl) fun _ => ?_
    refine .bind (filled outputs) fun _ => ?_
    exact .bind (bears.modify fun _ => by constructor <;> rfl) fun _ => .pure _

theorem recorded? (bears : Bears c on) (rule : String) (args : List Value) :
    Keeps c (recorded? rule args) := by
  intro s
  unfold Engine.recorded?
  rw [state_bind]
  cases kept : s.frames.head?.bind (·.take? rule args) with
  | none => exact c.refl s
  | some found =>
    refine (?_ : c.ends s (changeFrame (fun _ => found.2) s))
    refine bears.heed fun top first => ?_
    rw [first] at kept
    exact .take? kept

theorem createAll (bears : Bears c on) (scheduled : List Application) :
    Keeps c (createAll t scheduled) := by
  induction scheduled with
  | nil => exact .pure _
  | cons e rest ih =>
    refine .bind (bears.modify fun s => (noteRule_aside _ s).stationary) fun _ => ?_
    refine .bind (bears.makeTargets _) fun outputs => .bind (bears.registerLink _ _ _ _) fun _ => ?_
    exact .bind (bears.modify fun _ => by constructor <;> rfl) fun _ => ih

theorem fillAll (bears : Bears c on) (expression : ∀ env {e}, on e → Keeps c (self env e))
    {work : List (Application × Outputs)}
    (binds : ∀ item ∈ work, ∀ out ∈ item.1.rule.outputs, out.Binds on) :
    Keeps c (fillAll self setting work) := by
  induction work with
  | nil => exact .pure _
  | cons item rest ih =>
    obtain ⟨first, others⟩ := List.forall_mem_cons.1 binds
    refine .bind (bears.nest (fun _ _ => rfl) ?_) fun _ => ih others
    exact bears.fillApplication expression first

theorem resolveDeferred (bears : Bears c on) (expression : ∀ env {e}, on e → Keeps c (self env e))
    {d : DeferredBinding} (own : on d.binding.value) :
    Keeps c (resolveDeferred self setting d) :=
  .bind (bears.applyBinding expression own) fun _ => bears.modify fun _ => by constructor <;> rfl

end Bears

/-- What keeps the inner conduct one level deeper keeps the outer one, as the invocation of a rule. -/
def Encloses (setting : Setting) (c inner : Conduct Engine) : Prop :=
  ∀ {α β : Type} {s : Engine} {event : Option β → List Event → Event} {run : Run Engine α}
    {finish : α → Run Engine β}, (∀ b within, (event b within).Invokes within) →
    ¬ setting.settings.depthLimit ≤ s.depth →
    inner.Allows { s.enter with history := [] } (run { s.enter with history := [] }) →
    (∀ a u, ∃ b, finish a u = .value b u) →
      c.Allows s (nest event (Run.ensuring leave run >>= finish) s.enter)

/-- A conduct that does not heed the history is kept if it is when the rule is left. -/
theorem Encloses.of_abreast {setting : Setting} {c inner : Conduct Engine}
    (abreast : ∀ {s t}, Abreast s t → c.ends s t)
    (later : ∀ {s t u}, c.fails s t → Abreast t u → c.fails s u)
    (leaving : ∀ {α : Type} {s r : Engine} {run : Run Engine α},
      ¬ setting.settings.depthLimit ≤ s.depth → Abreast s.enter r → inner.Allows r (run r) →
        c.Allows s (Run.ensuring leave run r)) : Encloses setting c inner := by
  intro α β s event run finish _ shallow kept finishes
  refine Bears.nest_unheeded (fun _ _ => abreast (by constructor <;> rfl))
    (fun _ failed => later failed (by constructor <;> rfl)) ?_
  refine .bind (leaving shallow (by constructor <;> rfl) kept) fun {a u} _ => ?_
  obtain ⟨b, finished⟩ := finishes a u
  rw [finished]
  exact c.refl u

theorem Encloses.of_level {setting : Setting} {c inner : Conduct Engine}
    (level : ∀ {s t}, Level s t → c.ends s t)
    (later : ∀ {s t u}, c.fails s t → Level t u → c.fails s u)
    (leaving : ∀ {α : Type} {s r : Engine} {run : Run Engine α},
      ¬ setting.settings.depthLimit ≤ s.depth → Level s.enter r → inner.Allows r (run r) →
        c.Allows s (Run.ensuring leave run r)) : Encloses setting c inner :=
  Encloses.of_abreast (fun abreast => level abreast.level)
    (fun failed abreast => later failed abreast.level)
    fun shallow abreast => leaving shallow abreast.level

section
variable {c inner : Conduct Engine} {on own : Expr → Prop} {setting : Setting}
  {t : Transformation} {self : Evaluator}

theorem enterRule_keeps {α : Type} {rule : String} {next : Unit → Run Engine α}
    (within : ∀ s, ¬ setting.settings.depthLimit ≤ s.depth → c.Allows s (next () s.enter)) :
    Keeps c (enterRule setting rule >>= next) := by
  intro s
  by_cases deep : setting.settings.depthLimit ≤ s.depth
  · have refused : (enterRule setting rule >>= next) s = .failure (.unsupported rule
        ("rule invocations nested deeper than " ++ toString setting.settings.depthLimit)) s := by
      refine bind_eq_failure.2 (.inl (bind_eq_failure.2 (.inr ⟨s, s, rfl, ?_⟩)))
      simp only [deep, if_true]
      rfl
    rw [refused]
    exact c.stop s
  · have entered : enterRule setting rule s = .value () s.enter := by
      refine bind_eq_value.2 ⟨s, s, rfl, ?_⟩
      simp only [deep, if_false]
      rfl
    rw [bind_of_value entered]
    exact within s deep

/-- A lazy rule is kept to a conduct by its expressions one level deeper. -/
theorem Bears.invokeLazy (bears : Bears c on) (deeper : Bears inner own)
    (encloses : Encloses setting c inner) {rule : LazyRule}
    (expression : ∀ env {e}, own e → Keeps inner (self env e))
    (binds : ∀ out ∈ rule.outputs, out.Binds own) (argument : Value) :
    Keeps c (invokeLazy self setting t rule argument) := by
  refine .bind (refuseWhileMatching_keeps _) fun _ => ?_
  split
  · exact .pure _
  refine .bind (checkArgument_keeps _ _ _) fun _ => enterRule_keeps fun s shallow => ?_
  have requested : Keeps inner (LazyCache.request cachePlace (Engine.createLazy t rule argument)
      (Engine.fillLazy self setting rule argument) rule.name argument) :=
    deeper.request (deeper.createLazy _ _) (fun _ => deeper.fillLazy expression binds) _ _
  refine .bind (encloses (fun _ _ => rfl) shallow (requested _) fun _ _ => ⟨_, rfl⟩)
    fun {answered u} _ => (?_ : Keeps c _) u
  dsimp only
  split
  · refine .bind (.modify fun _ => bears.heed fun frame _ => ?_) fun _ => .pure _
    exact ⟨fun _ => rfl, List.suffix_rfl, List.Sublist.refl _⟩
  · exact .pure _

/-- So is a called rule. -/
theorem Bears.invokeCalled (bears : Bears c on) (deeper : Bears inner own)
    (encloses : Encloses setting c inner) {rule : CalledRule}
    (expression : ∀ env {e}, own e → Keeps inner (self env e))
    (binds : ∀ out ∈ rule.outputs, out.Binds own)
    (body : ∀ statement ∈ rule.body, own statement.expression) (args : List Value) :
    Keeps c (invokeCalled self setting t rule args) := by
  refine .bind (refuseWhileMatching_keeps _) fun _ => ?_
  split
  · intro s
    exact .bind (Keeps.fail _ s) fun failed => absurd failed fail_ne_value
  refine .bind (checkArguments_keeps _ _ _) fun _ => .bind (bears.recorded? _ _) fun answer => ?_
  cases answer with
  | some result => exact .bind (.modify fun _ => bears.note trivial) fun _ => .pure _
  | none =>
    have executed : Keeps inner (Engine.inFrame {} (Engine.executeCalled self setting t rule args)) :=
      deeper.inFrame (deeper.executeCalled expression binds body)
    refine enterRule_keeps fun s shallow => ?_
    refine .bind ?_ fun {answered u} _ => (?_ : Keeps c _) u
    · rw [← bind_pure (Run.ensuring leave _)]
      exact encloses (fun _ _ => rfl) shallow (executed _) fun _ _ => ⟨_, rfl⟩
    · refine .bind (bears.modify fun _ => by constructor <;> rfl) fun _ => ?_
      refine .bind (.modify fun _ => bears.heed fun frame _ => ?_) fun _ => .pure _
      exact ⟨fun saw => by simp [saw], List.suffix_cons _ _, List.Sublist.refl _⟩

end

namespace Bears
variable {c : Conduct Engine} {setting : Setting} {t : Transformation} {self : Evaluator}
  (bears : Bears c fun _ => True) (kept : ∀ env e, Keeps c (self env e))
include bears kept

/-! What is kept on every level. -/

theorem serves (quiet : ∀ {s t}, Quiet s t → c.ends s t) (encloses : Encloses setting c c) :
    Serves c setting self where
  quiet := quiet
  expression := kept
  lazy _ v := bears.invokeLazy bears encloses (fun env _ _ => kept env _)
    (fun out _ => out.binds_any) v
  called _ args := bears.invokeCalled bears encloses (fun env _ _ => kept env _)
    (fun out _ => out.binds_any) (fun _ _ => trivial) args

theorem resolveFrom (cut : ∀ s, c.cut s) (bound position : Nat) :
    Keeps c (resolveFrom self setting bound position) := by
  induction bound generalizing position with
  | zero => exact .cutOff cut
  | succ bound ih =>
    refine .bind .state fun s => ?_
    split
    · exact .pure _
    · exact .bind (bears.resolveDeferred (fun env _ _ => kept env _) trivial) fun _ => ih _

theorem callRuleWith (encloses : Encloses setting c c) (name : String) (args : List Value) :
    Keeps c (callRuleWith self setting t name args) := by
  refine .bind .state fun s => ?_
  split
  · exact .fail _
  · split
    · exact .fail _
    · exact bears.invokeCalled bears encloses (fun env _ _ => kept env _)
        (fun out _ => out.binds_any) (fun _ _ => trivial) args

end Bears

end Engine

end Metamorph
