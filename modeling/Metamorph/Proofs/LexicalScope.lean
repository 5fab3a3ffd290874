import Metamorph.Engine.Evaluation
import Metamorph.Proofs.Scope

/-! Which variables an expression looks up: those that are free in it, and no others. Whatever else is
bound around it, and in however many frames, its evaluation is the same. -/
namespace Metamorph

/-- The names bound by the binders that may be written without one. -/
structure Binders where
  iterator : Option String → String
  lambda : String → String

/-- The names that none of the binders takes. -/
def unbound (binders names : List String) : List String := names.filter fun x => !binders.contains x

theorem mem_unbound {binders names : List String} {x : String} :
    x ∈ unbound binders names ↔ x ∈ names ∧ x ∉ binders := by
  simp [unbound]

mutual

/-- The variables that are free in an expression. Calls have those of their arguments: nothing of what
they reach is evaluated in the scope of the caller. -/
def Expr.free (binders : Binders) : Expr → List String
  | .literal _ _ | .typeName _ _ | .foreign _ _ => []
  | .variable name _ => [name]
  | .navigation source _ _ => source.free binders
  | .binary _ lhs rhs _ => lhs.free binders ++ rhs.free binders
  | .unary _ operand _ => operand.free binders
  | .conditional condition thenBranch elseBranch _ =>
    condition.free binders ++ (thenBranch.free binders ++ elseBranch.free binders)
  | .letIn name init body _ _ => init.free binders ++ unbound [name] (body.free binders)
  | .lambda parameter body _ => unbound [binders.lambda parameter] (body.free binders)
  | .iterate source parameter accumulator init body _ _ =>
    source.free binders ++ (init.free binders ++ unbound [parameter, accumulator] (body.free binders))
  | .collection _ elements _ => freeInAll binders elements
  | .arrow source op iterator body _ => source.free binders ++ freeInBody binders op iterator body
  | .method receiver _ args _ => receiver.free binders ++ freeInAll binders args
  | .call _ args _ => freeInAll binders args
  | .tuple fields _ => freeInFields binders fields

def freeInAll (binders : Binders) : List Expr → List String
  | [] => []
  | e :: rest => e.free binders ++ freeInAll binders rest

/-- Only an iterator binds a name in its body. -/
def freeInBody (binders : Binders) (op : CollectionOperation) (iterator : Option String) :
    Option Expr → List String
  | none => []
  | some body =>
    match op with
    | .iterator _ => unbound [binders.iterator iterator] (body.free binders)
    | _ => body.free binders

def freeInFields (binders : Binders) : List (TupleField Expr) → List String
  | [] => []
  | ⟨_, value, _⟩ :: rest => value.free binders ++ freeInFields binders rest

end

namespace Environment

/-- Each of the names is bound in both environments, to the same value. -/
def SameOn (names : List String) (env other : Environment) : Prop :=
  ∀ x ∈ names, ∃ v, env.get? x = some v ∧ other.get? x = some v

/-- The names have the same values in both environments, and where one has none the environments bind
the same names, so that it is missed in the same way. -/
def Alike (names : List String) (env other : Environment) : Prop :=
  ∀ x ∈ names, env.get? x = other.get? x ∧
    (env.get? x = none → env.frames.map (·.bindings.names) = other.frames.map (·.bindings.names))

theorem get?_push (env : Environment) (frame : String) (bindings : Named Value) (x : String) :
    (env.push frame bindings).get? x = (bindings.get? x).or (env.get? x) := by
  simp only [get?, push, frames, List.cons_append, List.findSome?_cons]
  cases bindings.get? x <;> rfl

theorem visibleNames_congr {env other : Environment}
    (names : env.frames.map (·.bindings.names) = other.frames.map (·.bindings.names)) :
    env.visibleNames = other.visibleNames := by
  simp only [visibleNames, List.flatMap, names]

namespace Alike
variable {env other : Environment} {names more : List String}

theorem of_sameOn (same : SameOn names env other) : Alike names env other := by
  intro x member
  obtain ⟨v, here, there⟩ := same x member
  exact ⟨here.trans there.symm, fun missing => by simp [here] at missing⟩

/-- Nothing tells frames apart but what they bind. -/
theorem of_frames (same : env.frames.map (·.bindings) = other.frames.map (·.bindings)) :
    Alike names env other := by
  have found (environment : Environment) (x : String) : environment.get? x =
      (environment.frames.map (·.bindings)).findSome? (·.get? x) := by
    rw [List.findSome?_map]
    rfl
  have named (environment : Environment) : environment.frames.map (·.bindings.names) =
      (environment.frames.map (·.bindings)).map (·.names) := by
    rw [List.map_map]
    rfl
  exact fun x _ => ⟨by rw [found, found, same], fun _ => by rw [named, named, same]⟩

theorem left (alike : Alike (names ++ more) env other) : Alike names env other :=
  fun x member => alike x (List.mem_append_left _ member)

theorem right (alike : Alike (names ++ more) env other) : Alike more env other :=
  fun x member => alike x (List.mem_append_right _ member)

/-- A frame on top binds what it binds in both. -/
theorem push {binders : List String} (alike : Alike (unbound binders names) env other)
    (frame : String) {bindings : Named Value}
    (binds : ∀ x ∈ binders, ∃ v, bindings.get? x = some v) :
    Alike names (env.push frame bindings) (other.push frame bindings) := by
  intro x member
  simp only [get?_push]
  by_cases bound : x ∈ binders
  · obtain ⟨v, found⟩ := binds x bound
    simp [found]
  · obtain ⟨same, missed⟩ := alike x (mem_unbound.2 ⟨member, bound⟩)
    refine ⟨by rw [same], fun missing => ?_⟩
    have names := missed (Option.or_eq_none_iff.1 missing).2
    simpa [Environment.push, frames] using names

theorem lookup {x : String} (alike : Alike [x] env other) (span : Span) :
    env.lookup x span = other.lookup x span := by
  obtain ⟨same, missed⟩ := alike x (List.mem_singleton_self x)
  unfold Environment.lookup
  rw [← same]
  cases found : env.get? x with
  | some v => rfl
  | none => rw [visibleNames_congr (missed found)]

end Alike

end Environment

namespace Engine
open Environment
variable {setting : Setting} {self : Evaluator} {env other : Environment}

/-- An iterator or a lambda whose name is empty binds the default one. -/
def binders (setting : Setting) : Binders where
  iterator := iteratorName setting
  lambda parameter := iteratorName setting (some parameter)

theorem single_binds (name : String) (v : Value) :
    ∀ x ∈ [name], ∃ w, Named.get? [(name, v)] x = some w := by
  intro x member
  obtain rfl := List.mem_singleton.1 member
  exact ⟨v, by simp [Named.get?_cons]⟩

theorem iterate_binds (parameter accumulator : String) (v acc : Value) :
    ∀ x ∈ [parameter, accumulator],
      ∃ w, Named.get? (Named.ofPairs [(parameter, v), (accumulator, acc)]) x = some w := by
  intro x member
  have table : Named.ofPairs [(parameter, v), (accumulator, acc)] =
      Named.set [(parameter, v)] accumulator acc := rfl
  rw [table, Named.get?_set]
  split
  · exact ⟨acc, rfl⟩
  · rename_i other
    have first : x = parameter := by simpa [other] using member
    exact ⟨v, by simp [Named.get?_cons, first]⟩

/-- The evaluator looks up free variables only. -/
def Lexical (setting : Setting) (evaluator : Evaluator) : Prop :=
  ∀ {env other e}, Alike (e.free (binders setting)) env other → evaluator env e = evaluator other e

namespace Lexical
variable (lexical : Lexical setting self)
include lexical

theorem evaluateAll {es : List Expr} (alike : Alike (freeInAll (binders setting) es) env other) :
    evaluateAll self env es = evaluateAll self other es := by
  induction es with
  | nil => rfl
  | cons e rest ih =>
    rw [freeInAll] at alike
    rw [Engine.evaluateAll, Engine.evaluateAll, lexical alike.left, ih alike.right]

theorem evaluateFields {fields : List (TupleField Expr)}
    (alike : Alike (freeInFields (binders setting) fields) env other) :
    evaluateFields self env fields = evaluateFields self other fields := by
  induction fields with
  | nil => rfl
  | cons part rest ih =>
    rw [freeInFields] at alike
    rw [Engine.evaluateFields, Engine.evaluateFields, lexical alike.left, ih alike.right]

theorem binary (op : BinaryOperator) {lhs rhs : Expr}
    (left : Alike (lhs.free (binders setting)) env other)
    (right : Alike (rhs.free (binders setting)) env other) :
    binary self env op lhs rhs = binary self other op lhs rhs := by
  unfold Engine.binary
  rw [lexical left, lexical right]

theorem iterate {parameter accumulator : String} {body : Expr}
    (alike : Alike (unbound [parameter, accumulator] (body.free (binders setting))) env other)
    (acc : Value) (items : List Value) :
    iterate self env parameter accumulator body acc items =
      iterate self other parameter accumulator body acc items := by
  induction items generalizing acc with
  | nil => rfl
  | cons v rest ih =>
    have inside := alike.push "iterate" (iterate_binds parameter accumulator v acc)
    rw [Engine.iterate, Engine.iterate, lexical inside]
    simp only [ih]

theorem elementwise {parameter : String} {body : Expr}
    (alike : Alike (unbound [parameter] (body.free (binders setting))) env other) :
    elementwise self env parameter body = elementwise self other parameter body := by
  funext v
  exact lexical (alike.push "iterator" (single_binds parameter v))

theorem collectionOperation (op : CollectionOperation) (kind : CollectionKind)
    (items : List Value) {parameter : Option String} {body : Option Expr}
    (alike : Alike (freeInBody (binders setting) op parameter body) env other) :
    collectionOperation self setting env op kind items parameter body =
      collectionOperation self setting other op kind items parameter body := by
  unfold Engine.collectionOperation
  split
  · rfl
  · rename_i body
    have inside : Engine.elementwise self env (iteratorName setting parameter) body =
        Engine.elementwise self other (iteratorName setting parameter) body :=
      lexical.elementwise alike
    rw [inside]
  · rfl
  · rename_i body
    have argument : Alike (body.free (binders setting)) env other := alike
    rw [lexical argument]
  · rfl

theorem collectionMethod (op : CollectionOperation) (kind : CollectionKind) (items : List Value)
    {args : List Expr} (alike : Alike (freeInAll (binders setting) args) env other) :
    collectionMethod self setting env op kind items args =
      collectionMethod self setting other op kind items args := by
  unfold Engine.collectionMethod
  split
  · rw [freeInAll, Expr.free] at alike
    exact lexical.collectionOperation _ _ _ alike.left
  · rfl
  · rw [freeInAll] at alike
    exact lexical.collectionOperation _ _ _ alike.left
  · rfl
  · rfl
  · rfl

theorem method (v : Value) (name : String) {args : List Expr}
    (alike : Alike (freeInAll (binders setting) args) env other) :
    method self setting env v name args = method self setting other v name args := by
  unfold Engine.method
  rw [lexical.evaluateAll alike]
  split
  · rfl
  · exact lexical.collectionMethod _ _ _ alike
  · rfl

theorem step {e : Expr} (alike : Alike (e.free (binders setting)) env other) :
    step setting self env e = step setting self other e := by
  cases e with
  | literal | typeName | lambda | «foreign» => rfl
  | «variable» name loc =>
    rw [Expr.free] at alike
    simp only [Engine.step, alike.lookup]
  | navigation source feature loc =>
    rw [Expr.free] at alike
    rw [Engine.step, Engine.step, lexical alike]
  | binary op lhs rhs loc =>
    rw [Expr.free] at alike
    exact lexical.binary op alike.left alike.right
  | unary op operand loc =>
    rw [Expr.free] at alike
    rw [Engine.step, Engine.step, lexical alike]
  | conditional condition thenBranch elseBranch loc =>
    rw [Expr.free] at alike
    rw [Engine.step, Engine.step, lexical alike.left, lexical alike.right.left,
      lexical alike.right.right]
  | letIn name init body tag loc =>
    rw [Expr.free] at alike
    have inside (v : Value) := lexical (alike.right.push "let" (single_binds name v))
    rw [Engine.step, Engine.step, lexical alike.left]
    simp only [inside]
  | iterate source parameter accumulator init body tag loc =>
    rw [Expr.free] at alike
    rw [Engine.step, Engine.step, lexical alike.left, lexical alike.right.left]
    simp only [lexical.iterate alike.right.right]
  | collection kind elements loc =>
    rw [Expr.free] at alike
    rw [Engine.step, Engine.step, lexical.evaluateAll alike]
  | arrow source op parameter body loc =>
    rw [Expr.free] at alike
    rw [Engine.step, Engine.step, lexical alike.left]
    simp only [lexical.collectionOperation _ _ _ alike.right]
  | method receiver name args loc =>
    rw [Expr.free] at alike
    rw [Engine.step, Engine.step, lexical alike.left]
    simp only [lexical.method _ _ alike.right]
  | call name args loc =>
    rw [Expr.free] at alike
    rw [Engine.step, Engine.step, lexical.evaluateAll alike]
  | tuple fields loc =>
    rw [Expr.free] at alike
    rw [Engine.step, Engine.step, lexical.evaluateFields alike]

end Lexical

theorem evaluateWithin_lexical (setting : Setting) (bound : Nat) :
    Lexical setting (evaluateWithin setting bound) := by
  induction bound with
  | zero => exact fun _ => rfl
  | succ bound ih =>
    intro env other e alike
    simp only [evaluateWithin, ih.step alike]

end Engine

open Environment

/-- In environments that bind the free variables of an expression to the same values its evaluation is
one and the same: it ends with the same value, or the same error at the same place, and with the same
effects. A lambda binds its parameter, or the default iterator if it has no name. -/
theorem lexical_scoping (setting : Setting) (bound : Nat) {env other : Environment} {e : Expr}
    (same : SameOn (e.free (Engine.binders setting)) env other) :
    Engine.evaluateWithin setting bound env e = Engine.evaluateWithin setting bound other e :=
  Engine.evaluateWithin_lexical setting bound (.of_sameOn same)

namespace Scoping

/-- `Sequence{1}.exists(binder | name)` -/
def someIs (binder name : String) : Expr :=
  .method (.collection .sequence [.literal (.integer 1) {}] {}) "exists"
    [.lambda binder (.variable name {}) {}] {}

def outer : Environment := ({} : Setting).rootEnvironment [("x", .boolean true)]

/-- More is bound here, partly to other values. -/
def inner : Environment := outer.push "let" [("it", .boolean false), ("", .boolean true)]

end Scoping

theorem lexical_scoping_lambda :
    SameOn ((Scoping.someIs "it" "x").free (Engine.binders {})) Scoping.outer Scoping.inner ∧
      Engine.evaluateWithin {} 3 Scoping.outer (Scoping.someIs "it" "x") =
        Engine.evaluateWithin {} 3 Scoping.inner (Scoping.someIs "it" "x") := by
  have free : (Scoping.someIs "it" "x").free (Engine.binders {}) = ["x"] := by decide
  have same : SameOn ((Scoping.someIs "it" "x").free (Engine.binders {}))
      Scoping.outer Scoping.inner := by
    rw [free]
    intro x member
    obtain rfl := List.mem_singleton.1 member
    exact ⟨.boolean true, rfl, rfl⟩
  exact ⟨same, lexical_scoping {} 3 same⟩

/-- The names as they are written: a lambda would bind its parameter, be it empty. -/
def Binders.written (setting : Setting) : Binders where
  iterator := Engine.iteratorName setting
  lambda parameter := parameter

/-- A lambda without a name does not bind the empty one, so that is looked up outside. -/
theorem nameless_lambda_looks_outside :
    ¬ ∀ (setting : Setting) (bound : Nat) (env other : Environment) (e : Expr),
      SameOn (e.free (.written setting)) env other →
        Engine.evaluateWithin setting bound env e = Engine.evaluateWithin setting bound other e := by
  intro sound
  have closed : (Scoping.someIs "" "").free (.written {}) = [] := by decide
  have same := sound {} 3 Scoping.outer Scoping.inner (Scoping.someIs "" "") (by simp [closed, SameOn])
  obtain ⟨fault, unbound⟩ : ∃ fault, Engine.evaluateWithin {} 3 Scoping.outer
      (Scoping.someIs "" "") {} = .failure fault {} := ⟨_, by rfl⟩
  have found : Engine.evaluateWithin {} 3 Scoping.inner (Scoping.someIs "" "") {} =
      .value (.boolean true) {} := by rfl
  rw [same, found] at unbound
  cases unbound

end Metamorph
