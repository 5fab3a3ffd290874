import Metamorph.Engine.Evaluation
import Metamorph.Proofs.BodyRelation
import Metamorph.Proofs.Run

/-! What every evaluation keeps. An expression reaches rules through calls alone; whatever else it
does leaves objects, rules and bindings as they are. A conduct that allows for that and holds of rules
invoked by an evaluator that keeps it is kept by the evaluation of any expression. -/
namespace Metamorph.Engine
open Run

/-- The states differ in counts, timings and what was reported. -/
def Aside (s t : Engine) : Prop :=
  ∃ made helperInvocations navigations timedPhases timedRules timedHelpers log,
    t = { s with made, helperInvocations, navigations, timedPhases, timedRules, timedHelpers, log }

/-- They may also differ in attributes of the module and in how these were read. -/
def Quiet (s t : Engine) : Prop :=
  ∃ attributes readings made helperInvocations navigations timedPhases timedRules timedHelpers log,
    t = { s with attributes, readings, made, helperInvocations, navigations, timedPhases, timedRules,
                 timedHelpers, log }

theorem Aside.quiet {s t : Engine} (aside : Aside s t) : Quiet s t := by
  obtain ⟨_, _, _, _, _, _, _, rfl⟩ := aside
  exact ⟨_, _, _, _, _, _, _, _, _, rfl⟩

theorem Quiet.refl (s : Engine) : Quiet s s := ⟨_, _, _, _, _, _, _, _, _, rfl⟩

theorem Quiet.trans {s t u : Engine} (first : Quiet s t) (rest : Quiet t u) : Quiet s u := by
  obtain ⟨_, _, _, _, _, _, _, _, _, rfl⟩ := first
  obtain ⟨_, _, _, _, _, _, _, _, _, rfl⟩ := rest
  exact ⟨_, _, _, _, _, _, _, _, _, rfl⟩

theorem Quiet.phase {s t : Engine} (quiet : Quiet s t) : t.phase = s.phase := by
  obtain ⟨_, _, _, _, _, _, _, _, _, rfl⟩ := quiet
  rfl

theorem noteRule_aside (name : String) (s : Engine) : Aside s (noteRule name s) :=
  ⟨_, _, _, _, _, _, _, rfl⟩

theorem noteRule_quiet (name : String) (s : Engine) : Quiet s (noteRule name s) :=
  (noteRule_aside name s).quiet

/-- The lazy rule is one that expressions reach. -/
def HasLazy (setting : Setting) (t : Transformation) (rule : LazyRule) : Prop :=
  setting.transformation = some t ∧ t.module.lazyRule? rule.name = some rule

/-- The called rule is one that expressions reach. -/
def HasCalled (setting : Setting) (t : Transformation) (rule : CalledRule) : Prop :=
  setting.transformation = some t ∧ t.module.calledRule? rule.name = some rule

/-- The helper is one that expressions reach. -/
def HasHelper (setting : Setting) (helper : Helper) : Prop :=
  (∃ name, setting.helpers.module.get? name = some helper) ∨
    ∃ name helpers, setting.helpers.contextual.get? name = some helpers ∧ helper ∈ helpers

/-- What is asked of an evaluator of certain expressions, of the helpers and attributes and of the rules it
invokes. -/
structure AsksOn (on : Expr → Prop) (c : Conduct Engine) (setting : Setting)
    (evaluator : Evaluator) : Prop where
  aside : ∀ {s t}, Aside s t → c.ends s t
  expression : ∀ env {e}, on e → Keeps c (evaluator env e)
  reading : ∀ name, Keeps c (moduleAttribute evaluator setting name)
  helper : ∀ {helper}, HasHelper setting helper → ∀ receiver args,
    Keeps c (invokeHelper evaluator setting helper receiver args)
  lazy : ∀ {t rule}, HasLazy setting t rule → ∀ v, Keeps c (invokeLazy evaluator setting t rule v)
  called : ∀ {t rule}, HasCalled setting t rule → ∀ args,
    Keeps c (invokeCalled evaluator setting t rule args)

/-- What is asked if it does not matter which attributes are kept. -/
structure ServesOn (on : Expr → Prop) (c : Conduct Engine) (setting : Setting)
    (evaluator : Evaluator) : Prop where
  quiet : ∀ {s t}, Quiet s t → c.ends s t
  expression : ∀ env {e}, on e → Keeps c (evaluator env e)
  helper : ∀ {helper}, HasHelper setting helper → ∀ receiver args,
    Keeps c (invokeHelper evaluator setting helper receiver args)
  lazy : ∀ {t rule}, HasLazy setting t rule → ∀ v, Keeps c (invokeLazy evaluator setting t rule v)
  called : ∀ {t rule}, HasCalled setting t rule → ∀ args,
    Keeps c (invokeCalled evaluator setting t rule args)

section
variable {c : Conduct Engine} {setting : Setting}

theorem mismatch_keeps {α : Type} (expected : String) (v : Value) (context : String) :
    Keeps c (mismatch expected v context : Run Engine α) :=
  .bind .state fun _ => .fail _

theorem ancestry_keeps (v : Value) : Keeps c (ancestry setting v) := by
  unfold ancestry
  refine .bind .state fun s => ?_
  split
  · exact .pure _
  · exact .pure _
  · split <;> exact .pure _
  · exact .pure _

theorem hasFeature_keeps (v : Value) (feature : String) :
    Keeps c (hasFeature setting v feature) := by
  unfold hasFeature
  split
  · exact .pure _
  · exact .bind .state fun _ => .collaborate _ _

theorem contextHelper?_keeps (v : Value) (name : String) (isAttribute : Option Bool) :
    Keeps c (contextHelper? setting v name isAttribute) := by
  unfold contextHelper?
  split
  · exact .bind (ancestry_keeps v) fun _ => .pure _
  · exact .pure _

theorem nearest_mem {found : Named Nat} {best : Option (Helper × Nat)} {helpers : List Helper}
    {helper : Helper} (chosen : HelperTable.nearest found best helpers = some helper) :
    best.map (·.1) = some helper ∨ helper ∈ helpers := by
  induction helpers generalizing best with
  | nil => exact .inl chosen
  | cons h rest ih =>
    unfold HelperTable.nearest at chosen
    split at chosen
    · exact (ih chosen).imp_right (List.mem_cons_of_mem _)
    · split at chosen
      · rcases ih chosen with own | later
        · obtain rfl : h = helper := by simpa using own
          exact .inr List.mem_cons_self
        · exact .inr (List.mem_cons_of_mem _ later)
      · exact (ih chosen).imp_right (List.mem_cons_of_mem _)

theorem contextHelper?_has {v : Value} {name : String} {isAttribute : Option Bool} {s u : Engine}
    {helper : Helper}
    (found : contextHelper? setting v name isAttribute s = .value (some helper) u) :
    HasHelper setting helper := by
  unfold contextHelper? at found
  split at found
  · obtain ⟨distances, _, -, chosen⟩ := bind_eq_value.1 found
    obtain ⟨chosen, -⟩ := pure_eq_value.1 chosen
    rcases nearest_mem chosen with none | member
    · cases none
    · obtain ⟨listed, -⟩ := List.mem_filter.1 member
      cases known : setting.helpers.contextual.get? name with
      | none => simp [known] at listed
      | some helpers => exact .inr ⟨name, helpers, known, by simpa [known] using listed⟩
  · simp at found

theorem displayed_keeps (v : Value) : Keeps c (displayed v) :=
  .bind .state fun _ => .ofResult _

theorem applied_keeps (operation : (Value → String) → Result Value) :
    Keeps c (applied operation) :=
  .bind .state fun _ => .ofResult _

theorem requireTruth_keeps (op : String) (v : Value) : Keeps c (requireTruth op v) :=
  .bind .state fun _ => .ofResult _

theorem refuseWhileMatching_keeps (rule : String) : Keeps c (refuseWhileMatching rule) := by
  refine .bind .state fun s => ?_
  split
  · exact .fail _
  · exact .pure _

theorem checkArgument_keeps (rule : String) (parameter : Parameter) (v : Value) :
    Keeps c (checkArgument setting rule parameter v) := by
  unfold checkArgument
  split
  · exact .pure _
  · exact .pure _
  · refine .bind (ancestry_keeps _) fun found => ?_
    split
    · exact .pure _
    · exact mismatch_keeps _ _ _

theorem checkArguments_keeps (rule : String) (parameters : List Parameter) (args : List Value) :
    Keeps c (checkArguments setting rule parameters args) := by
  induction parameters generalizing args with
  | nil => exact .pure _
  | cons parameter rest ih =>
    cases args with
    | nil => exact .pure _
    | cons v others => exact .bind (checkArgument_keeps _ _ _) fun _ => ih others

theorem distanceTo_keeps (op : Universal) (v target : Value) :
    Keeps c (distanceTo setting op v target) := by
  unfold distanceTo
  refine .bind (ancestry_keeps v) fun found => ?_
  split
  · exact .pure _
  · exact mismatch_keeps _ _ _

theorem filterM_keeps {α : Type} {p : α → Run Engine Bool} (kept : ∀ a, Keeps c (p a)) :
    ∀ items : List α, Keeps c (items.filterM p) := by
  have loop (items found : List α) : Keeps c (List.filterAuxM p items found) := by
    induction items generalizing found with
    | nil => exact .pure _
    | cons a rest ih => exact .bind (kept a) fun _ => ih _
  exact fun items => .bind (loop items []) fun _ => .pure _

theorem instancesIn_keeps (cls : String) (models : List (String × Provider)) :
    Keeps c (instancesIn setting cls models) := by
  induction models with
  | nil => exact .pure _
  | cons model rest ih =>
    refine .bind .state fun s => .bind (.collaborate _ _) fun objects => ?_
    refine .bind (filterM_keeps (fun h => ?_) objects) fun found => ?_
    · exact .bind (ancestry_keeps _) fun _ => .pure _
    · exact .bind ih fun _ => .pure _

theorem onType_keeps {type name : String} {args : List Value} {run : Run Engine Value}
    (found : onType setting type name args = some run) : Keeps c run := by
  unfold onType at found
  split at found
  · cases found
    split
    · exact .fail _
    · split
      · split
        · exact .bind (instancesIn_keeps _ _) fun _ => .pure _
        · exact .fail _
      · split
        · unfold allInstancesFrom
          split
          · exact .fail _
          · exact .bind (instancesIn_keeps _ _) fun _ => .pure _
        · exact mismatch_keeps _ _ _
        · exact .fail _
  · contradiction

end

namespace AsksOn
variable {on : Expr → Prop} {c : Conduct Engine} {setting : Setting} {self : Evaluator}

theorem modify (asks : AsksOn on c setting self) {change : Engine → Engine}
    (aside : ∀ s, Aside s (change s)) : Keeps c (Run.modify change) :=
  .modify fun s => asks.aside (aside s)

theorem callNative (asks : AsksOn on c setting self) (name : String) (args : List Value) :
    Keeps c (callNative setting name args) := by
  refine .bind (asks.modify fun s => ⟨_, _, _, _, _, _, _, rfl⟩) fun _ => ?_
  exact .bind .state fun _ => .collaborate _ _

theorem navigate (asks : AsksOn on c setting self) (v : Value) (feature : String) :
    Keeps c (navigate v feature) := by
  refine .bind (asks.modify fun s => ⟨_, _, _, _, _, _, _, rfl⟩) fun _ => ?_
  exact .bind .state fun _ => .collaborate _ _

theorem navigation (asks : AsksOn on c setting self) (v : Value) (feature : String) :
    Keeps c (navigation self setting v feature) := by
  unfold Engine.navigation
  split
  · exact .pure _
  · exact asks.reading feature
  · split
    · exact .pure _
    · exact .fail _
  · dsimp only
    intro s
    refine .bind (contextHelper?_keeps _ _ _ s) fun {found u} looked => ?_
    cases found with
    | some helper =>
      refine Keeps.bind (hasFeature_keeps _ _) (fun known => ?_) u
      split
      · exact asks.navigate _ _
      · exact asks.helper (contextHelper?_has looked) _ _
    | none =>
      dsimp only
      split
      · exact asks.navigate _ _ u
      · exact mismatch_keeps _ _ _ u

theorem binary (asks : AsksOn on c setting self) (env : Environment) (op : BinaryOperator)
    {lhs rhs : Expr} (left : on lhs) (right : on rhs) :
    Keeps c (binary self env op lhs rhs) := by
  unfold Engine.binary
  split
  · refine .bind (asks.expression _ left) fun l => .bind (requireTruth_keeps _ _) fun a => ?_
    split
    · exact .pure _
    · refine .bind (asks.expression _ right) fun r => ?_
      exact .bind (requireTruth_keeps _ _) fun b => .pure _
  · refine .bind (asks.expression _ left) fun l => .bind (asks.expression _ right) fun r => ?_
    exact applied_keeps _

theorem evaluateAll (asks : AsksOn on c setting self) (env : Environment) {es : List Expr}
    (parts : ∀ e ∈ es, on e) : Keeps c (evaluateAll self env es) := by
  induction es with
  | nil => exact .pure _
  | cons e rest ih =>
    obtain ⟨first, others⟩ := List.forall_mem_cons.1 parts
    exact .bind (asks.expression _ first) fun v => .bind (ih others) fun _ => .pure _

theorem evaluateFields (asks : AsksOn on c setting self) (env : Environment)
    {fields : List (TupleField Expr)} (parts : ∀ field ∈ fields, on field.value) :
    Keeps c (evaluateFields self env fields) := by
  induction fields with
  | nil => exact .pure _
  | cons field rest ih =>
    obtain ⟨first, others⟩ := List.forall_mem_cons.1 parts
    exact .bind (asks.expression _ first) fun v => .bind (ih others) fun _ => .pure _

theorem iterate (asks : AsksOn on c setting self) (env : Environment)
    (parameter accumulator : String) {body : Expr} (part : on body) (acc : Value)
    (items : List Value) : Keeps c (iterate self env parameter accumulator body acc items) := by
  induction items generalizing acc with
  | nil => exact .pure _
  | cons v rest ih => exact .bind (asks.expression _ part) fun _ => ih _

end AsksOn

/-- The one run keeps to the conduct, whatever the other does. -/
def conducted (c : Conduct Engine) : Collection.BodyRelation Unit Unit (Run Engine) (Run Engine) where
  Relates run _ := Keeps c (run ())
  pure a := .pure a
  fail fault := .fail fault
  bind first rest := first.bind rest

/-- Iterators keep what their body keeps. -/
theorem iterator_keeps {c : Conduct Engine} {f : Value → Run Engine Value} (kept : ∀ v, Keeps c (f v))
    (typeOf : Value → String) (op : Iterator) (kind : CollectionKind) (items : List Value) :
    Keeps c (Collection.iterate typeOf op kind items f) :=
  (conducted c).iterate (fun _ => f) (fun _ => f) (fun v _ => kept v) typeOf op kind

namespace AsksOn
variable {on : Expr → Prop} {c : Conduct Engine} {setting : Setting} {self : Evaluator}

theorem collectionOperation (asks : AsksOn on c setting self) (env : Environment)
    (op : CollectionOperation) (kind : CollectionKind) (items : List Value)
    (parameter : Option String) {body : Option Expr} (part : ∀ e, body = some e → on e) :
    Keeps c (collectionOperation self setting env op kind items parameter body) := by
  unfold Engine.collectionOperation
  split
  · exact .fail _
  · exact .bind .state fun s => iterator_keeps (fun v => asks.expression _ (part _ rfl)) _ _ _ _
  · exact .fail _
  · exact .bind (asks.expression _ (part _ rfl)) fun _ => applied_keeps _
  · exact applied_keeps _

theorem collectionMethod (asks : AsksOn on c setting self) (env : Environment)
    (op : CollectionOperation) (kind : CollectionKind) (items : List Value) {args : List Expr}
    (parts : ∀ e ∈ args, on e) (bodies : ∀ name e loc, .lambda name e loc ∈ args → on e) :
    Keeps c (collectionMethod self setting env op kind items args) := by
  unfold Engine.collectionMethod
  split
  · refine asks.collectionOperation _ _ _ _ _ fun e same => ?_
    cases same
    exact bodies _ _ _ (List.mem_singleton_self _)
  · exact .fail _
  · refine asks.collectionOperation _ _ _ _ _ fun e same => ?_
    cases same
    exact parts _ (List.mem_singleton_self _)
  · exact .fail _
  · exact asks.collectionOperation _ _ _ _ _ nofun
  · exact .fail _

theorem logDebug (asks : AsksOn on c setting self) (label : String) (v : Value) :
    Keeps c (logDebug label v) := by
  refine .bind (displayed_keeps v) fun text => ?_
  exact .bind (asks.modify fun s => ⟨_, _, _, _, _, _, _, rfl⟩) fun _ => .pure _

theorem universal (asks : AsksOn on c setting self) (op : Universal) (v : Value)
    (args : List Value) : Keeps c (universal setting op v args) := by
  unfold Engine.universal
  split
  · exact asks.logDebug _ _
  · exact .bind (displayed_keeps _) fun _ => asks.logDebug _ _
  · exact .pure _
  · exact .bind (displayed_keeps _) fun _ => .pure _
  · exact .bind (ancestry_keeps _) fun _ => .pure _
  · exact .bind (distanceTo_keeps _ _ _) fun _ => .pure _
  · exact .bind (distanceTo_keeps _ _ _) fun _ => .pure _
  all_goals exact .fail _

theorem ownOperation? (asks : AsksOn on c setting self) {v : Value} {name : String}
    {args : List Value} {run : Run Engine Value}
    (found : ownOperation? setting v name args = some run) : Keeps c run := by
  unfold Engine.ownOperation? at found
  dsimp only at found
  split at found
  · exact onType_keeps found
  · obtain ⟨op, -, rfl⟩ := Option.map_eq_some_iff.1 found
    exact .bind .state fun _ => .ofResult _
  iterate 2
    obtain ⟨op, -, rfl⟩ := Option.map_eq_some_iff.1 found
    refine .bind .state fun s => ?_
    refine .bind (asks.modify fun s => ⟨_, _, _, _, _, _, _, rfl⟩) fun _ => ?_
    exact .bind .state fun _ => .ofResult _
  · contradiction

theorem ruleCall? (asks : AsksOn on c setting self) {t : Transformation}
    (given : setting.transformation = some t) {name : String} {args : List Value}
    {run : Run Engine Value} (found : ruleCall? self setting t name args = some run) :
    Keeps c run := by
  have text (v : Value) : Keeps c (ruleCall?.text v) := by
    unfold ruleCall?.text
    split
    · exact .pure _
    · exact mismatch_keeps _ _ _
  have look (source output : Value) (rule : Option Value) :
      Keeps c (ruleCall?.resolveTemp source output rule) := by
    unfold ruleCall?.resolveTemp
    refine .bind ?_ fun rule => .bind (text output) fun _ => .bind .state fun _ => .ofResult _
    cases rule with
    | none => exact .pure _
    | some rule => exact .map _ (text rule)
  unfold Engine.ruleCall? at found
  split at found
  · rename_i rule known
    have named : rule.name = name := by simpa using List.find?_some known
    cases found
    split
    · exact asks.lazy ⟨given, named ▸ known⟩ _
    · exact .fail _
  · rename_i rule _ known
    have named : rule.name = name := by simpa using List.find?_some known
    cases found
    exact asks.called ⟨given, named ▸ known⟩ _
  · split at found
    · cases found
      split
      · exact look _ _ _
      · exact look _ _ _
      · exact .fail _
    · contradiction

theorem callModule (asks : AsksOn on c setting self) (name : String) (args : List Value) :
    Keeps c (callModule self setting name args) := by
  unfold Engine.callModule
  split
  · rename_i helper known
    split
    · exact asks.reading _
    · exact asks.helper (.inl ⟨name, known⟩) _ _
  · split
    · rename_i run found
      obtain ⟨t, given, called⟩ := Option.bind_eq_some_iff.1 found
      exact asks.ruleCall? given called
    · exact asks.callNative _ _

theorem callOn (asks : AsksOn on c setting self) (v : Value) (name : String) (args : List Value) :
    Keeps c (callOn self setting v name args) := by
  intro s
  refine .bind (contextHelper?_keeps _ _ _ s) fun {found u} looked => ?_
  cases found with
  | some helper => exact asks.helper (contextHelper?_has looked) _ _ u
  | none =>
    refine (?_ : Keeps c _) u
    dsimp only
    split
    · exact asks.universal _ _ _
    · split
      · rename_i run own
        exact asks.ownOperation? own
      · split
        · exact asks.callNative _ _
        · exact .bind .state fun _ => .fail _

theorem method (asks : AsksOn on c setting self) (env : Environment) (v : Value) (name : String)
    {args : List Expr} (parts : ∀ e ∈ args, on e)
    (bodies : ∀ name e loc, .lambda name e loc ∈ args → on e) :
    Keeps c (method self setting env v name args) := by
  unfold Engine.method
  split
  · exact .bind (asks.evaluateAll _ parts) fun _ => asks.callModule _ _
  · exact asks.collectionMethod _ _ _ _ parts bodies
  · exact .bind (asks.evaluateAll _ parts) fun _ => asks.callOn _ _ _

/-- The evaluator is asked for parts of the expression only, and these are smaller. -/
theorem step (asks : AsksOn on c setting self) (env : Environment) {e : Expr}
    (parts : ∀ part : Expr, sizeOf part < sizeOf e → on part) :
    Keeps c (step setting self env e) := by
  have smaller {part : Expr} (less : sizeOf part < sizeOf e) (env : Environment) :
      Keeps c (self env part) :=
    asks.expression env (parts part less)
  cases e with
  | literal value span => exact .pure _
  | «variable» name span => exact .ofResult _
  | typeName name span => exact .pure _
  | lambda parameter body span => exact .pure _
  | navigation source feature span =>
    exact .bind (smaller (by simp; omega) env) fun v => asks.navigation v feature
  | binary op lhs rhs span =>
    exact asks.binary env op (parts lhs (by simp; omega)) (parts rhs (by simp; omega))
  | unary op operand span => exact .bind (smaller (by simp; omega) env) fun v => applied_keeps _
  | conditional condition thenBranch elseBranch span =>
    refine .bind (smaller (by simp; omega) env) fun v => ?_
    split
    · exact smaller (by simp; omega) env
    · exact smaller (by simp; omega) env
  | letIn name init body type span =>
    exact .bind (smaller (by simp; omega) env) fun v => smaller (by simp; omega) _
  | iterate source parameter accumulator init body type span =>
    refine .bind (smaller (by simp; omega) env) fun v => ?_
    split
    · refine .bind (smaller (by simp; omega) env) fun acc => ?_
      exact asks.iterate _ _ _ (parts body (by simp; omega)) _ _
    · exact mismatch_keeps _ _ _
  | collection kind elements span =>
    refine .bind (asks.evaluateAll _ fun part member => parts part ?_) fun _ => .pure _
    have inside := List.sizeOf_lt_of_mem member
    simp
    omega
  | arrow source op parameter body span =>
    refine .bind (smaller (by simp; omega) env) fun v => ?_
    refine asks.collectionOperation _ _ _ _ _ fun part same => parts part ?_
    simp [same]
    omega
  | method receiver name args span =>
    refine .bind (smaller (by simp; omega) env) fun v => asks.method _ _ _ (fun part member => ?_)
      fun parameter body loc member => ?_
    all_goals
      have inside := List.sizeOf_lt_of_mem member
      refine parts _ ?_
      simp at inside ⊢
      omega
  | call name args span =>
    refine .bind (asks.evaluateAll _ fun part member => parts part ?_) fun _ =>
      asks.callModule _ _
    have inside := List.sizeOf_lt_of_mem member
    simp
    omega
  | tuple fields span =>
    refine .bind (asks.evaluateFields _ fun field member => parts _ ?_) fun _ => .pure _
    have inside := List.sizeOf_lt_of_mem member
    have own : sizeOf field.value < sizeOf field := by
      cases field
      simp
      omega
    simp
    omega
  | foreign kind span => exact .fail _

end AsksOn

namespace ServesOn
variable {on : Expr → Prop} {c : Conduct Engine} {setting : Setting} {self : Evaluator}

theorem moduleAttribute (serves : ServesOn on c setting self) (name : String) :
    Keeps c (moduleAttribute self setting name) := by
  unfold Engine.moduleAttribute
  refine .bind .state fun s => ?_
  split
  · refine .bind (.modify fun s => serves.quiet ?_) fun _ => .pure _
    exact ⟨_, _, _, _, _, _, _, _, _, rfl⟩
  · split
    · exact .fail _
    · rename_i helper known
      have listed := (Option.filter_eq_some_iff.1 known).1
      refine .bind (serves.helper (.inl ⟨name, listed⟩) _ _) fun v => ?_
      refine .bind (.modify fun s => serves.quiet ?_) fun _ => .pure _
      exact ⟨_, _, _, _, _, _, _, _, _, rfl⟩

theorem asks (serves : ServesOn on c setting self) : AsksOn on c setting self where
  aside aside := serves.quiet aside.quiet
  expression := serves.expression
  reading := serves.moduleAttribute
  helper := serves.helper
  lazy := serves.lazy
  called := serves.called

theorem step (serves : ServesOn on c setting self) (env : Environment) {e : Expr}
    (parts : ∀ part : Expr, sizeOf part < sizeOf e → on part) : Keeps c (step setting self env e) :=
  serves.asks.step env parts

end ServesOn

/-- What is asked of an evaluator of all expressions and of the rules it invokes. -/
structure Serves (c : Conduct Engine) (setting : Setting) (evaluator : Evaluator) : Prop where
  quiet : ∀ {s t}, Quiet s t → c.ends s t
  expression : ∀ env e, Keeps c (evaluator env e)
  lazy : ∀ {t rule}, HasLazy setting t rule → ∀ v, Keeps c (invokeLazy evaluator setting t rule v)
  called : ∀ {t rule}, HasCalled setting t rule → ∀ args,
    Keeps c (invokeCalled evaluator setting t rule args)

theorem Serves.on {c : Conduct Engine} {setting : Setting} {self : Evaluator}
    (serves : Serves c setting self) : ServesOn (fun _ => True) c setting self where
  quiet := serves.quiet
  expression env e _ := serves.expression env e
  helper _ receiver args := by
    unfold Engine.invokeHelper
    split
    · exact .fail _
    · refine .bind (.modify fun s => serves.quiet ⟨_, _, _, _, _, _, _, _, _, rfl⟩) fun _ => ?_
      exact serves.expression _ _
  lazy := serves.lazy
  called := serves.called

theorem Serves.step {c : Conduct Engine} {setting : Setting} {self : Evaluator}
    (serves : Serves c setting self) (env : Environment) (e : Expr) :
    Keeps c (step setting self env e) :=
  serves.on.step env fun _ _ => trivial

/-- What rules keep as long as their evaluator does, every evaluation keeps. -/
theorem evaluateWithin_keeps {c : Conduct Engine} {setting : Setting} (cut : ∀ s, c.cut s)
    (rules : ∀ self : Evaluator, (∀ env e, Keeps c (self env e)) → Serves c setting self)
    (bound : Nat) (env : Environment) (e : Expr) :
    Keeps c (evaluateWithin setting bound env e) := by
  induction bound generalizing env e with
  | zero => exact .cutOff cut
  | succ bound ih => exact .mapFault _ ((rules _ ih).step env e)

end Metamorph.Engine
