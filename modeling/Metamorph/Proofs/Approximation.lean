import Metamorph.Engine.Pipeline
import Metamorph.Proofs.BodyRelation
import Metamorph.Proofs.Run

/-! Runs that stop, and how they go on where they do not. Two runs may do the same unless the first one
stops with a fault of some kind or is cut off; the first approximates the second if it has to be cut off.
Whatever the engine does with an evaluator it does the same with another one, unless the evaluator stops
in this way for a part. So faults of parts are faults of the whole, and what a run comes to does not
depend on how deep it was allowed to go. -/
namespace Metamorph

/-- The outcome is a fault of the kind, or a run that was cut off. -/
def Outcome.Stops {σ α : Type} (kind : Fault → Prop) : Outcome σ α → Prop
  | .value _ _ => False
  | .failure fault _ => kind fault
  | .exhausted => True

namespace Run
variable {σ α β : Type}

/-- The second run does the same unless the first one stops. -/
def Unless (kind : Fault → Prop) (run other : Run σ α) : Prop :=
  ∀ s, (run s).Stops kind ∨ other s = run s

namespace Unless
variable {kind : Fault → Prop} {run other : Run σ α}

theorem refl (run : Run σ α) : Unless kind run run := fun _ => .inr rfl

theorem cutOff (run : Run σ α) : Unless kind Run.cutOff run := fun _ => .inl trivial

theorem bind {next further : α → Run σ β} (first : Unless kind run other)
    (rest : ∀ a, Unless kind (next a) (further a)) :
    Unless kind (run >>= next) (other >>= further) := by
  intro s
  cases outcome : run s with
  | value a t =>
    have same := ((first s).resolve_left (by rw [outcome]; exact id)).trans outcome
    rw [bind_of_value outcome, bind_of_value same]
    exact rest a t
  | failure fault t =>
    rw [bind_of_failure outcome]
    exact (first s).imp (fun stops => by rwa [outcome] at stops) fun same =>
      bind_of_failure (same.trans outcome)
  | exhausted => exact .inl (by rw [bind_eq_exhausted.2 (.inl outcome)]; trivial)

/-- A run and what follows it, where only the latter differs. -/
theorem after {next further : α → Run σ β} (rest : ∀ a, Unless kind (next a) (further a)) :
    Unless kind (run >>= next) (run >>= further) :=
  bind (refl run) rest

/-- A run and what follows it, where only the former differs. -/
theorem before {next : α → Run σ β} (first : Unless kind run other) :
    Unless kind (run >>= next) (other >>= next) :=
  bind first fun a => refl (next a)

/-- A check that fails stops both. -/
theorem guarded {p : Prop} [Decidable p] {fault : Fault} {next further : Unit → Run σ α}
    (rest : ∀ u, Unless kind (next u) (further u)) :
    Unless kind (if p then Run.fail fault >>= next else next ())
      (if p then Run.fail fault >>= further else further ()) := by
  split
  · exact after rest
  · exact rest ()

theorem mapFault {change : Fault → Fault} (closed : ∀ fault, kind fault → kind (change fault))
    (first : Unless kind run other) :
    Unless kind (Run.mapFault change run) (Run.mapFault change other) := by
  intro s
  unfold Run.mapFault
  rcases first s with stops | same
  · left
    cases outcome : run s with
    | value a t => rwa [outcome] at stops
    | failure fault t =>
      rw [outcome] at stops
      exact closed fault stops
    | exhausted => trivial
  · rw [same]
    exact .inr rfl

theorem ensuring (change : σ → σ) (first : Unless kind run other) :
    Unless kind (Run.ensuring change run) (Run.ensuring change other) := by
  intro s
  unfold Run.ensuring
  rcases first s with stops | same
  · left
    cases outcome : run s <;> rw [outcome] at stops <;> exact stops
  · rw [same]
    exact .inr rfl

end Unless

/-- Where the first run ends the second one ends alike. -/
def Below (run other : Run σ α) : Prop := ∀ s, run s ≠ .exhausted → other s = run s

theorem Unless.below {run other : Run σ α} (first : Unless (fun _ => False) run other) :
    Below run other := by
  intro s certain
  refine (first s).resolve_left fun stops => ?_
  cases outcome : run s with
  | value a t => rwa [outcome] at stops
  | failure fault t => rwa [outcome] at stops
  | exhausted => exact certain outcome

namespace Below
variable {run other : Run σ α}

theorem toUnless {kind : Fault → Prop} (below : Below run other) : Unless kind run other := by
  intro s
  cases outcome : run s with
  | exhausted => exact .inl trivial
  | value a t => exact .inr ((below s (by rw [outcome]; nofun)).trans outcome)
  | failure fault t => exact .inr ((below s (by rw [outcome]; nofun)).trans outcome)

theorem refl (run : Run σ α) : Below run run := fun _ _ => rfl

theorem cutOff (run : Run σ α) : Below Run.cutOff run := fun _ certain => absurd rfl certain

theorem trans {last : Run σ α} (first : Below run other) (rest : Below other last) :
    Below run last := by
  intro s certain
  have same := first s certain
  rw [rest s (by rwa [same]), same]

theorem value (below : Below run other) {s t : σ} {a : α} (ended : run s = .value a t) :
    other s = .value a t := by
  rw [below s (by rw [ended]; nofun), ended]

theorem failure (below : Below run other) {s t : σ} {fault : Fault}
    (failed : run s = .failure fault t) : other s = .failure fault t := by
  rw [below s (by rw [failed]; nofun), failed]

theorem bind {next further : α → Run σ β} (first : Below run other)
    (rest : ∀ a, Below (next a) (further a)) : Below (run >>= next) (other >>= further) :=
  (first.toUnless.bind fun a => (rest a).toUnless).below

/-- A run and what follows it, where only the latter differs. -/
theorem after {next further : α → Run σ β} (rest : ∀ a, Below (next a) (further a)) :
    Below (run >>= next) (run >>= further) :=
  bind (refl run) rest

/-- A run and what follows it, where only the former differs. -/
theorem before {next : α → Run σ β} (first : Below run other) :
    Below (run >>= next) (other >>= next) :=
  bind first fun a => refl (next a)

theorem mapFault (change : Fault → Fault) (below : Below run other) :
    Below (Run.mapFault change run) (Run.mapFault change other) :=
  (below.toUnless.mapFault fun _ => False.elim).below

theorem rescue (handler : Fault → Run σ α) (below : Below run other) :
    Below (Run.rescue run handler) (Run.rescue other handler) := by
  intro s certain
  unfold Run.rescue at certain ⊢
  cases outcome : run s with
  | value a t => rw [below.value outcome]
  | failure fault t => rw [below.failure outcome]
  | exhausted => simp [outcome] at certain

end Below

end Run

namespace Collection
open Run
variable {σ : Type} {halts : Fault → Prop} {f g : Value → Run σ Value}

/-- The one run does the same as the other unless it stops. -/
def halting (σ : Type) (halts : Fault → Prop) : BodyRelation Unit Unit (Run σ) (Run σ) where
  Relates run other := Unless halts (run ()) (other ())
  pure _ := .refl _
  fail _ := .refl _
  bind first rest := first.bind rest

theorem iterate_unless (heeds : ∀ v, Unless halts (f v) (g v)) (typeOf : Value → String) (op : Iterator)
    (kind : CollectionKind) (items : List Value) :
    Unless halts (iterate typeOf op kind items f) (iterate typeOf op kind items g) :=
  (halting σ halts).iterate (fun _ => f) (fun _ => g) (fun v _ => heeds v) typeOf op kind

end Collection

namespace Engine
open Run

/-- The second evaluator does the same unless the first one stops, whatever they evaluate. -/
def Heeds (halts : Fault → Prop) (self other : Evaluator) : Prop :=
  ∀ env e, Unless halts (self env e) (other env e)

/-- The evaluator approximates the other one, whatever they evaluate. -/
def Approximates (self other : Evaluator) : Prop := ∀ env e, Below (self env e) (other env e)

theorem Approximates.heeds {halts : Fault → Prop} {self other : Evaluator}
    (below : Approximates self other) : Heeds halts self other :=
  fun env e => (below env e).toUnless

variable {halts : Fault → Prop}

theorem nest_unless {α : Type} {event : Option α → List Event → Event} {body other : Run Engine α}
    (heeds : Unless halts body other) : Unless halts (nest event body) (nest event other) := by
  intro s
  unfold nest
  rcases heeds { s with history := [] } with stops | same
  · left
    cases outcome : body { s with history := [] } <;> rw [outcome] at stops <;> exact stops
  · rw [same]
    exact .inr rfl

theorem inFrame_unless {α : Type} (frame : BindingFrame) {body other : Run Engine α}
    (heeds : Unless halts body other) : Unless halts (inFrame frame body) (inFrame frame other) :=
  .after fun _ => .ensuring _ (.before heeds)

theorem working_unless {α : Type} (occasion : Occasion) (work : Assignment)
    {body other : Run Engine (α × Value)} (heeds : Unless halts body other) :
    Unless halts (working occasion work body) (working occasion work other) :=
  .before (nest_unless heeds)

theorem request_unless {create : Run Engine Outputs} {fill further : Outputs → Run Engine Unit}
    (heeds : ∀ outputs, Unless halts (fill outputs) (further outputs)) (rule : String)
    (source : Value) :
    Unless halts (LazyCache.request cachePlace create fill rule source)
      (LazyCache.request cachePlace create further rule source) := by
  refine .after fun s => ?_
  split
  · exact .refl _
  · refine .after fun _ => .after fun outputs => .after fun _ => ?_
    exact .before (heeds outputs)

namespace Heeds
variable {self other : Evaluator} {setting : Setting} {t : Transformation}
variable (heeds : Heeds halts self other)
include heeds

/-! Rules. -/

theorem applyBinding (rule : String) (target : Value) (binding : Binding) (env : Environment)
    (deferrable : Bool) (replay : List CalledResult) :
    Unless halts (applyBinding self setting rule target binding env deferrable replay)
      (applyBinding other setting rule target binding env deferrable replay) :=
  .before (working_unless _ _ (.before (inFrame_unless _ (heeds env _))))

theorem applyBindings (rule : String) (target : Value) (env : Environment)
    (bindings : List Binding) :
    Unless halts (applyBindings self setting rule target env bindings)
      (applyBindings other setting rule target env bindings) := by
  induction bindings with
  | nil => exact .refl _
  | cons binding rest ih => exact .bind (heeds.applyBinding _ _ _ _ _ _) fun _ => ih

theorem fillOutputs (rule : String) (outputs : Outputs) (env : Environment)
    (patterns : List OutPattern) :
    Unless halts (fillOutputs self setting rule outputs env patterns)
      (fillOutputs other setting rule outputs env patterns) := by
  induction patterns with
  | nil => exact .refl _
  | cons out rest ih => exact .bind (heeds.applyBindings _ _ _ _) fun _ => ih

theorem fillApplication (rule : String) (patterns : List OutPattern) (outputs : Outputs)
    (scope : Named Value) :
    Unless halts (fillApplication self setting rule patterns outputs scope)
      (fillApplication other setting rule patterns outputs scope) :=
  .after fun _ => heeds.fillOutputs _ _ _ _

theorem executeStatement (env : Environment) (statement : Statement) :
    Unless halts (executeStatement self setting env statement)
      (executeStatement other setting env statement) := by
  cases statement with
  | evaluate e => exact heeds env e
  | assign target feature e => exact working_unless _ _ (.before (heeds env e))

theorem executeBody (env : Environment) (last : Value) (body : List Statement) :
    Unless halts (executeBody self setting env last body) (executeBody other setting env last body) := by
  induction body generalizing last with
  | nil => exact .refl _
  | cons statement rest ih => exact .bind (heeds.executeStatement env statement) fun v => ih v

theorem fillLazy (rule : LazyRule) (source : Value) (outputs : Outputs) :
    Unless halts (fillLazy self setting rule source outputs)
      (fillLazy other setting rule source outputs) := by
  unfold Engine.fillLazy applying
  exact nest_unless (heeds.fillApplication _ _ _ _)

theorem executeCalled (rule : CalledRule) (args : List Value) :
    Unless halts (executeCalled self setting t rule args) (executeCalled other setting t rule args) := by
  refine .after fun _ => .after fun outputs => .before (nest_unless ?_)
  exact .bind (heeds.fillApplication _ _ _ _) fun _ => heeds.executeBody _ _ _

theorem invokeLazy (rule : LazyRule) (argument : Value) :
    Unless halts (invokeLazy self setting t rule argument)
      (invokeLazy other setting t rule argument) := by
  refine .after fun _ => ?_
  split
  · exact .refl _
  · refine .after fun _ => .after fun _ => .before (nest_unless (.before (.ensuring _ ?_)))
    exact request_unless (fun outputs => heeds.fillLazy rule argument outputs) _ _

theorem invokeCalled (rule : CalledRule) (args : List Value) :
    Unless halts (invokeCalled self setting t rule args) (invokeCalled other setting t rule args) := by
  refine .after fun _ => .guarded fun _ => .after fun _ => .after fun answer => ?_
  cases answer with
  | some result => exact .refl _
  | none =>
    refine .after fun _ => .before (nest_unless (.ensuring _ (inFrame_unless _ ?_)))
    exact heeds.executeCalled rule args

/-! Helpers and calls. -/

theorem invokeHelper (helper : Helper) (receiver : Value) (args : List Value) :
    Unless halts (invokeHelper self setting helper receiver args)
      (invokeHelper other setting helper receiver args) := by
  unfold Engine.invokeHelper
  split
  · exact .refl _
  · exact .after fun _ => heeds _ _

theorem moduleAttribute (name : String) :
    Unless halts (moduleAttribute self setting name) (moduleAttribute other setting name) := by
  refine .after fun s => ?_
  split
  · exact .refl _
  · split
    · exact .refl _
    · exact .before (heeds.invokeHelper _ _ _)

theorem callModule (name : String) (args : List Value) :
    Unless halts (callModule self setting name args) (callModule other setting name args) := by
  unfold Engine.callModule
  split
  · split
    · exact heeds.moduleAttribute _
    · exact heeds.invokeHelper _ _ _
  · cases setting.transformation with
    | none => exact .refl _
    | some t =>
      simp only [Option.bind_some, ruleCall?]
      cases t.module.lazyRule? name with
      | some rule =>
        dsimp only
        split
        · exact heeds.invokeLazy _ _
        · exact .refl _
      | none =>
        cases t.module.calledRule? name with
        | some rule => exact heeds.invokeCalled _ _
        | none => exact .refl _

theorem callOn (v : Value) (name : String) (args : List Value) :
    Unless halts (callOn self setting v name args) (callOn other setting v name args) := by
  refine .after fun found => ?_
  cases found with
  | some helper => exact heeds.invokeHelper _ _ _
  | none => exact .refl _

/-! Expressions. -/

theorem navigation (v : Value) (feature : String) :
    Unless halts (navigation self setting v feature) (navigation other setting v feature) := by
  unfold Engine.navigation
  split
  · exact .refl _
  · exact heeds.moduleAttribute _
  · exact .refl _
  · refine .after fun found => ?_
    cases found with
    | none => exact .refl _
    | some helper =>
      refine .after fun known => ?_
      split
      · exact .refl _
      · exact heeds.invokeHelper _ _ _

theorem evaluateAll (env : Environment) (es : List Expr) :
    Unless halts (evaluateAll self env es) (evaluateAll other env es) := by
  induction es with
  | nil => exact .refl _
  | cons e rest ih => exact .bind (heeds env e) fun _ => .before ih

theorem evaluateFields (env : Environment) (fields : List (TupleField Expr)) :
    Unless halts (evaluateFields self env fields) (evaluateFields other env fields) := by
  induction fields with
  | nil => exact .refl _
  | cons part rest ih => exact .bind (heeds env part.value) fun _ => .before ih

theorem binary (env : Environment) (op : BinaryOperator) (lhs rhs : Expr) :
    Unless halts (binary self env op lhs rhs) (binary other env op lhs rhs) := by
  unfold Engine.binary
  split
  · refine .bind (heeds env lhs) fun l => .after fun a => ?_
    split
    · exact .refl _
    · exact .before (heeds env rhs)
  · exact .bind (heeds env lhs) fun l => .before (heeds env rhs)

theorem iterate (env : Environment) (parameter accumulator : String) (body : Expr) (acc : Value)
    (items : List Value) :
    Unless halts (iterate self env parameter accumulator body acc items)
      (iterate other env parameter accumulator body acc items) := by
  induction items generalizing acc with
  | nil => exact .refl _
  | cons v rest ih => exact .bind (heeds _ body) fun acc => ih acc

theorem collectionOperation (env : Environment) (op : CollectionOperation) (kind : CollectionKind)
    (items : List Value) (parameter : Option String) (body : Option Expr) :
    Unless halts (collectionOperation self setting env op kind items parameter body)
      (collectionOperation other setting env op kind items parameter body) := by
  unfold Engine.collectionOperation
  split
  · exact .refl _
  · exact .after fun s => Collection.iterate_unless (fun v => heeds _ _) _ _ _ _
  · exact .refl _
  · exact .before (heeds _ _)
  · exact .refl _

theorem collectionMethod (env : Environment) (op : CollectionOperation) (kind : CollectionKind)
    (items : List Value) (args : List Expr) :
    Unless halts (collectionMethod self setting env op kind items args)
      (collectionMethod other setting env op kind items args) := by
  unfold Engine.collectionMethod
  split
  · exact heeds.collectionOperation _ _ _ _ _ _
  · exact .refl _
  · exact heeds.collectionOperation _ _ _ _ _ _
  · exact .refl _
  · exact heeds.collectionOperation _ _ _ _ _ _
  · exact .refl _

theorem method (env : Environment) (v : Value) (name : String) (args : List Expr) :
    Unless halts (method self setting env v name args) (method other setting env v name args) := by
  unfold Engine.method
  split
  · exact .bind (heeds.evaluateAll _ _) fun _ => heeds.callModule _ _
  · exact heeds.collectionMethod _ _ _ _ _
  · exact .bind (heeds.evaluateAll _ _) fun _ => heeds.callOn _ _ _

theorem step (env : Environment) (e : Expr) :
    Unless halts (step setting self env e) (step setting other env e) := by
  cases e with
  | literal | «variable» | typeName | lambda | «foreign» => exact .refl _
  | navigation source feature loc => exact .bind (heeds env source) fun v => heeds.navigation v _
  | binary op lhs rhs loc => exact heeds.binary env op lhs rhs
  | unary op operand loc => exact .before (heeds env operand)
  | conditional condition thenBranch elseBranch loc =>
    refine .bind (heeds env condition) fun v => ?_
    split
    · exact heeds env thenBranch
    · exact heeds env elseBranch
  | letIn name init body tag loc => exact .bind (heeds env init) fun v => heeds _ body
  | iterate source parameter accumulator init body tag loc =>
    refine .bind (heeds env source) fun v => ?_
    split
    · exact .bind (heeds env init) fun acc => heeds.iterate _ _ _ _ _ _
    · exact .refl _
  | collection kind elements loc => exact .before (heeds.evaluateAll env elements)
  | arrow source op parameter body loc =>
    exact .bind (heeds env source) fun v => heeds.collectionOperation _ _ _ _ _ _
  | method receiver name args loc =>
    exact .bind (heeds env receiver) fun v => heeds.method _ _ _ _
  | call name args loc => exact .bind (heeds.evaluateAll env args) fun _ => heeds.callModule _ _
  | tuple fields loc => exact .before (heeds.evaluateFields env fields)

/-! Whole runs. -/

theorem guardHolds (rule : MatchedRule) (source : Value) :
    Unless halts (guardHolds self setting rule source) (guardHolds other setting rule source) := by
  unfold Engine.guardHolds
  split
  · exact .refl _
  · exact .before (heeds _ _)

theorem winners (source : Value) (best : Option Nat) (rules : List (Nat × MatchedRule)) :
    Unless halts (winners self setting source best rules) (winners other setting source best rules) := by
  induction rules generalizing best with
  | nil => exact .refl _
  | cons candidate rest ih =>
    unfold Engine.winners
    split
    · exact .refl _
    · refine .bind (heeds.guardHolds _ _) fun holds => ?_
      split
      · exact .before (ih _)
      · exact ih _

theorem selectRule (m : Module) (source : Value) (model : String) :
    Unless halts (selectRule self setting m source model) (selectRule other setting m source model) :=
  .after fun _ => .before (heeds.winners _ _ _)

theorem matchObjects (m : Module) (model : String) (schedule : Schedule) (objects : List Handle) :
    Unless halts (matchObjects self setting m model schedule objects)
      (matchObjects other setting m model schedule objects) := by
  induction objects generalizing schedule with
  | nil => exact .refl _
  | cons h rest ih => exact .bind (heeds.selectRule m _ _) fun rule => ih _

theorem matchModels (m : Module) (providers : Named Provider) (schedule : Schedule)
    (models : List String) :
    Unless halts (matchModels self setting m providers schedule models)
      (matchModels other setting m providers schedule models) := by
  induction models generalizing schedule with
  | nil => exact .refl _
  | cons name rest ih =>
    unfold Engine.matchModels
    split
    · exact .refl _
    · refine .after fun s => .after fun objects => ?_
      exact .bind (heeds.matchObjects m _ _ _) fun schedule => ih schedule

theorem matchSources : Unless halts (matchSources self setting t) (matchSources other setting t) :=
  .before (heeds.matchModels _ _ _ _)

theorem fillAll (work : List (Application × Outputs)) :
    Unless halts (fillAll self setting work) (fillAll other setting work) := by
  induction work with
  | nil => exact .refl _
  | cons item rest ih => exact .bind (nest_unless (heeds.fillApplication _ _ _ _)) fun _ => ih

omit heeds in
theorem runPhase {phase : Phase} {work further : Run Engine Unit} (worked : Unless halts work further) :
    Unless halts (runPhase setting phase work) (runPhase setting phase further) :=
  .after fun _ => .before worked

theorem callRuleWith (name : String) (args : List Value) :
    Unless halts (callRuleWith self setting t name args) (callRuleWith other setting t name args) := by
  refine .after fun s => ?_
  split
  · exact .refl _
  · split
    · exact .refl _
    · exact heeds.invokeCalled _ _

end Heeds

/-- Evaluation that may go deeper does the same as far as the other one went. -/
theorem evaluateWithin_approximates (setting : Setting) {depth deeper : Nat}
    (further : depth ≤ deeper) :
    Approximates (evaluateWithin setting depth) (evaluateWithin setting deeper) := by
  induction depth generalizing deeper with
  | zero => exact fun _ _ => .cutOff _
  | succ depth ih =>
    intro env e
    obtain ⟨deeper, rfl⟩ : ∃ k, deeper = k + 1 := ⟨deeper - 1, by omega⟩
    exact .mapFault _ ((ih (by omega)).heeds.step env e).below

end Engine

end Metamorph
