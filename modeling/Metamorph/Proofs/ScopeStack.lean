import Metamorph.Proofs.BodyRelation
import Metamorph.Proofs.LexicalScope
import Metamorph.Proofs.Run

/-! Evaluation with a stack of frames. Here an environment is no argument but part of the state: frames
are pushed on it, and popped again however their body ends. It is shown that every frame is popped in
its turn, so that an evaluation leaves the frames it found, and that it does the same as evaluation in
an environment that is passed along. -/
namespace Metamorph

/-- An outcome, with the environment that is left. -/
def Outcome.leaving {α : Type} (env : Environment) :
    Outcome Engine α → Outcome (Environment × Engine) α
  | .value a s => .value a (env, s)
  | .failure fault s => .failure fault (env, s)
  | .exhausted => .exhausted

/-- A run that works on an environment of its own besides. -/
abbrev Stacked (α : Type) := Run (Environment × Engine) α

namespace Stacked
variable {α : Type}

/-- What does not concern the environment. -/
def outside (run : Run Engine α) : Stacked α := fun (env, s) => (run s).leaving env

/-- The frame is popped in any case. A frame that is not on top is an error in place of the outcome. -/
def closing (serial : Nat) : Outcome (Environment × Engine) α → Outcome (Environment × Engine) α
  | .value a (env, s) =>
    match env.pop serial with
    | .ok env => .value a (env, s)
    | .error fault => .failure fault (env, s)
  | .failure fault (env, s) =>
    match env.pop serial with
    | .ok env => .failure fault (env, s)
    | .error other => .failure other (env, s)
  | .exhausted => .exhausted

/-- The body is run in a frame of its own. -/
def inScope (name : String) (bindings : Named Value) (body : Stacked α) : Stacked α := fun (env, s) =>
  closing env.nextSerial (body (env.push name bindings, s))

end Stacked

namespace Engine
open Stacked

/-- Evaluates in the environment of the state. -/
abbrev StackEvaluator := Expr → Stacked Value

/-- Evaluation in an environment of its own, that is given up afterwards. -/
def alone (self : StackEvaluator) : Evaluator := fun env e s =>
  match self e (env, s) with
  | .value v (_, u) => .value v u
  | .failure fault (_, u) => .failure fault u
  | .exhausted => .exhausted

namespace StackEvaluator
variable (self : StackEvaluator)

def all : List Expr → Stacked (List Value)
  | [] => return []
  | e :: rest => do
    let v ← self e
    return v :: (← all rest)

def fields : List (TupleField Expr) → Stacked (List (String × Value))
  | [] => return []
  | part :: rest => do
    let v ← self part.value
    return (part.name, v) :: (← fields rest)

def binary (op : BinaryOperator) (lhs rhs : Expr) : Stacked Value := do
  if op.isLogical && op ≠ .xor then
    let a ← outside (requireTruth op.text (← self lhs))
    match Operation.decided? op a with
    | some b => return .boolean b
    | none => return .boolean (← outside (requireTruth op.text (← self rhs)))
  else
    let l ← self lhs
    let r ← self rhs
    outside (applied fun typeOf => Operation.binary typeOf op l r)

def iterate (parameter accumulator : String) (body : Expr) (acc : Value) :
    List Value → Stacked Value
  | [] => return acc
  | v :: rest => do
    let bindings := Named.ofPairs [(parameter, v), (accumulator, acc)]
    let acc ← inScope "iterate" bindings (self body)
    iterate parameter accumulator body acc rest

def elementwise (parameter : String) (body : Expr) (v : Value) : Stacked Value :=
  inScope "iterator" [(parameter, v)] (self body)

def collectionOperation (setting : Setting) (op : CollectionOperation) (kind : CollectionKind)
    (items : List Value) (parameter : Option String) (body : Option Expr) : Stacked Value := do
  match op, body with
  | .iterator op, none => Run.fail (.unsupported op.text "requires a body expression")
  | .iterator op, some body =>
    Collection.iterate (← Run.state).2.typeName op kind items
      (elementwise self (iteratorName setting parameter) body)
  | .combination op, none => Run.fail (.arity op.text 1 0)
  | .combination op, some body =>
    let argument ← self body
    outside (applied fun typeOf => Collection.combine typeOf op kind items argument)
  | .query op, _ => outside (applied fun typeOf => Collection.query typeOf op kind items)

def collectionMethod (setting : Setting) (op : CollectionOperation) (kind : CollectionKind)
    (items : List Value) (args : List Expr) : Stacked Value :=
  match op, args with
  | .iterator _, [.lambda parameter body _] =>
    collectionOperation self setting op kind items (some parameter) (some body)
  | .iterator op, _ => Run.fail (.unsupported op.text "expects one lambda argument")
  | .combination _, [argument] => collectionOperation self setting op kind items none (some argument)
  | .combination op, args => Run.fail (.arity op.text 1 args.length)
  | .query _, [] => collectionOperation self setting op kind items none none
  | .query op, args => Run.fail (.arity op.text 0 args.length)

def method (setting : Setting) (v : Value) (name : String) (args : List Expr) : Stacked Value := do
  match v, CollectionOperation.named? name with
  | .thisModule _, _ => outside (callModule (alone self) setting name (← all self args))
  | .collection kind items, some op => collectionMethod self setting op kind items args
  | v, _ => outside (callOn (alone self) setting v name (← all self args))

/-- Helpers and rules are evaluated in environments of their own. -/
def step (setting : Setting) (e : Expr) : Stacked Value :=
  match e with
  | .literal value _ => return value.value
  | .variable name _ => do Run.ofResult ((← Run.state).1.lookup name e.span)
  | .typeName name _ => return .type name
  | .lambda _ _ _ => return .undefined
  | .navigation source feature _ => do
    outside (navigation (alone self) setting (← self source) feature)
  | .binary op lhs rhs _ => binary self op lhs rhs
  | .unary op operand _ => do
    let v ← self operand
    outside (applied fun typeOf => Operation.unary typeOf op v)
  | .conditional condition thenBranch elseBranch _ => do
    let v ← self condition
    if v.holds then self thenBranch else self elseBranch
  | .letIn name init body _ _ => do
    let v ← self init
    inScope "let" [(name, v)] (self body)
  | .iterate source parameter accumulator init body _ _ => do
    match ← self source with
    | .collection _ items => iterate self parameter accumulator body (← self init) items
    | v => outside (mismatch "Collection" v "'iterate'")
  | .collection kind elements _ => do
    return .collectionOf kind (← all self elements)
  | .arrow source op parameter body _ => do
    let (kind, items) := (← self source).asCollection
    collectionOperation self setting op kind items parameter body
  | .method receiver name args _ => do method self setting (← self receiver) name args
  | .call name args _ => do outside (callModule (alone self) setting name (← all self args))
  | .tuple parts _ => return .tuple (← fields self parts)
  | .foreign kind _ => Run.fail (.foreignNode kind)

end StackEvaluator

/-- Evaluation on a stack of frames, no deeper than the bound. -/
def evaluateOnStack (setting : Setting) : Nat → StackEvaluator
  | 0 => fun _ => Run.cutOff
  | bound + 1 => fun e =>
    Run.mapFault (Fault.locate e.span) (StackEvaluator.step (evaluateOnStack setting bound) setting e)

end Engine

/-- The run does on the stack what it does in the environment, and leaves the frames as they were, those
it popped aside. It does not heed frames that were popped before. -/
structure Mirrors {α : Type} (run : Environment → Run Engine α) (stacked : Stacked α) : Prop where
  same : ∀ env s, ∃ left, stacked (env, s) = (run env s).leaving { env with left }
  blind : ∀ env left, run { env with left } = run env

namespace Mirrors
open Engine Stacked
variable {α β : Type} {run : Environment → Run Engine α} {stacked : Stacked α}

theorem outside (run : Run Engine α) : Mirrors (fun _ => run) (Stacked.outside run) where
  same env _ := ⟨env.left, rfl⟩
  blind _ _ := rfl

theorem pure (a : α) : Mirrors (fun _ => Pure.pure a) (Pure.pure a) where
  same env _ := ⟨env.left, rfl⟩
  blind _ _ := rfl

theorem fail (fault : Fault) : Mirrors (fun _ => (Run.fail fault : Run Engine α)) (Run.fail fault) where
  same env _ := ⟨env.left, rfl⟩
  blind _ _ := rfl

theorem bind {next : α → Environment → Run Engine β} {further : α → Stacked β}
    (first : Mirrors run stacked) (rest : ∀ a, Mirrors (next a) (further a)) :
    Mirrors (fun env => run env >>= fun a => next a env) (stacked >>= further) where
  same env s := by
    obtain ⟨left, same⟩ := first.same env s
    cases ended : run env s with
    | value a u =>
      rw [ended] at same
      obtain ⟨last, behind⟩ := (rest a).same { env with left } u
      rw [(rest a).blind] at behind
      exact ⟨last, by rw [Run.bind_of_value same, Run.bind_of_value ended, behind]⟩
    | failure fault u =>
      rw [ended] at same
      exact ⟨left, by rw [Run.bind_of_failure same, Run.bind_of_failure ended]; rfl⟩
    | exhausted =>
      rw [ended] at same
      refine ⟨left, ?_⟩
      rw [Run.bind_eq_exhausted.2 (.inl same), Run.bind_eq_exhausted.2 (.inl ended)]
      rfl
  blind env left := by
    simp only [first.blind, (rest _).blind]

theorem mapFault (change : Fault → Fault) (mirrors : Mirrors run stacked) :
    Mirrors (fun env => Run.mapFault change (run env)) (Run.mapFault change stacked) where
  same env s := by
    obtain ⟨left, same⟩ := mirrors.same env s
    refine ⟨left, ?_⟩
    unfold Run.mapFault
    rw [same]
    cases run env s <;> rfl
  blind env left := by rw [mirrors.blind]

/-- The frame that was pushed is on top when its body is at an end. -/
theorem inScope {name : String} {bindings : Named Value} (mirrors : Mirrors run stacked)
    (blind : ∀ (env : Environment) left,
      run (({ env with left } : Environment).push name bindings) = run (env.push name bindings)) :
    Mirrors (fun env => run (env.push name bindings)) (Stacked.inScope name bindings stacked) where
  same env s := by
    obtain ⟨left, same⟩ := mirrors.same (env.push name bindings) s
    refine ⟨⟨env.nextSerial, name, bindings⟩ :: left, ?_⟩
    have popped : ({ env.push name bindings with left } : Environment).pop env.nextSerial =
        .ok { env with left := ⟨env.nextSerial, name, bindings⟩ :: left } := by
      simp [Environment.push, Environment.pop]
    unfold Stacked.inScope
    simp only [same]
    cases run (env.push name bindings) s with
    | value a u => simp only [Outcome.leaving, closing, popped]
    | failure fault u => simp only [Outcome.leaving, closing, popped]
    | exhausted => rfl
  blind := blind

theorem state {next : Engine → Environment → Run Engine β} {further : Engine → Stacked β}
    (rest : ∀ s, Mirrors (next s) (further s)) :
    Mirrors (fun env => Run.state >>= fun s => next s env) (Run.state >>= fun p => further p.2) where
  same env s := (rest s).same env s
  blind env left := by simp only [(rest _).blind]

theorem lookup (name : String) (span : Span) :
    Mirrors (fun env => Run.ofResult (env.lookup name span))
      (Run.state >>= fun p => Run.ofResult (p.1.lookup name span)) where
  same env s := by
    refine ⟨env.left, ?_⟩
    change Run.ofResult (env.lookup name span) (env, s) = _
    cases env.lookup name span <;> rfl
  blind _ _ := rfl

/-- Runs in an environment, and on the stack. -/
def relation : Collection.BodyRelation Environment Unit (Run Engine) Stacked where
  Relates run stacked := Mirrors run (stacked ())
  pure := .pure
  fail := .fail
  bind first rest := first.bind rest

theorem iterator {f : Environment → Value → Run Engine Value} {g : Value → Stacked Value}
    (mirrors : ∀ v, Mirrors (f · v) (g v)) (typeOf : Value → String) (op : Iterator) (kind : CollectionKind)
    (items : List Value) :
    Mirrors (fun env => Collection.iterate typeOf op kind items (f env))
      (Collection.iterate typeOf op kind items g) :=
  relation.iterate f (fun _ => g) (fun v _ => mirrors v) typeOf op kind

end Mirrors

namespace Engine
variable {setting : Setting} {self : Evaluator} {stacked : StackEvaluator}

/-- The evaluator does on the stack what the other one does in an environment, and that heeds nothing of
its frames but what they bind. -/
structure OnStack (evaluator : Evaluator) (stacked : StackEvaluator) : Prop where
  mirrors : ∀ e, Mirrors (evaluator · e) (stacked e)
  frames : ∀ {env other : Environment}, env.frames.map (·.bindings) = other.frames.map (·.bindings) →
    ∀ e, evaluator env e = evaluator other e

namespace OnStack
variable (onStack : OnStack self stacked)
include onStack

theorem alone : alone stacked = self := by
  funext env e s
  obtain ⟨left, same⟩ := (onStack.mirrors e).same env s
  unfold Engine.alone
  rw [same]
  cases self env e s <;> rfl

theorem inScope (name : String) (bindings : Named Value) (e : Expr) :
    Mirrors (fun env => self (env.push name bindings) e)
      (Stacked.inScope name bindings (stacked e)) :=
  .inScope (onStack.mirrors e) fun _ _ => onStack.frames (by rfl) e

theorem all (es : List Expr) :
    Mirrors (fun env => evaluateAll self env es) (StackEvaluator.all stacked es) := by
  induction es with
  | nil => exact .pure _
  | cons e rest ih => exact .bind (onStack.mirrors e) fun _ => .bind ih fun _ => .pure _

theorem fields (parts : List (TupleField Expr)) :
    Mirrors (fun env => evaluateFields self env parts) (StackEvaluator.fields stacked parts) := by
  induction parts with
  | nil => exact .pure _
  | cons part rest ih => exact .bind (onStack.mirrors part.value) fun _ => .bind ih fun _ => .pure _

theorem binary (op : BinaryOperator) (lhs rhs : Expr) :
    Mirrors (fun env => binary self env op lhs rhs) (StackEvaluator.binary stacked op lhs rhs) := by
  unfold Engine.binary StackEvaluator.binary
  split
  · refine .bind (onStack.mirrors lhs) fun l => .bind (.outside _) fun a => ?_
    cases Operation.decided? op a with
    | some b => exact .pure _
    | none => exact .bind (onStack.mirrors rhs) fun r => .bind (.outside _) fun _ => .pure _
  · exact .bind (onStack.mirrors lhs) fun l => .bind (onStack.mirrors rhs) fun r => .outside _

theorem iterate (parameter accumulator : String) (body : Expr) (acc : Value) (items : List Value) :
    Mirrors (fun env => iterate self env parameter accumulator body acc items)
      (StackEvaluator.iterate stacked parameter accumulator body acc items) := by
  induction items generalizing acc with
  | nil => exact .pure _
  | cons v rest ih => exact .bind (onStack.inScope _ _ body) fun acc => ih acc

theorem collectionOperation (op : CollectionOperation) (kind : CollectionKind)
    (items : List Value) (parameter : Option String) (body : Option Expr) :
    Mirrors (fun env => collectionOperation self setting env op kind items parameter body)
      (StackEvaluator.collectionOperation stacked setting op kind items parameter body) := by
  unfold Engine.collectionOperation StackEvaluator.collectionOperation
  split
  · exact .fail _
  · exact .state fun s => .iterator (fun v => onStack.inScope _ _ _) _ _ _ _
  · exact .fail _
  · exact .bind (onStack.mirrors _) fun _ => .outside _
  · exact .outside _

theorem collectionMethod (op : CollectionOperation) (kind : CollectionKind) (items : List Value)
    (args : List Expr) :
    Mirrors (fun env => collectionMethod self setting env op kind items args)
      (StackEvaluator.collectionMethod stacked setting op kind items args) := by
  unfold Engine.collectionMethod
  split
  · exact onStack.collectionOperation _ _ _ _ _
  · rename_i other
    rw [StackEvaluator.collectionMethod]
    · exact .fail _
    · exact other
  · exact onStack.collectionOperation _ _ _ _ _
  · rename_i other
    rw [StackEvaluator.collectionMethod]
    · exact .fail _
    · exact other
  · exact onStack.collectionOperation _ _ _ _ _
  · rename_i other
    rw [StackEvaluator.collectionMethod]
    · exact .fail _
    · exact other

theorem method (v : Value) (name : String) (args : List Expr) :
    Mirrors (fun env => method self setting env v name args)
      (StackEvaluator.method stacked setting v name args) := by
  unfold Engine.method
  split
  · rw [StackEvaluator.method, onStack.alone]
    exact .bind (onStack.all _) fun _ => .outside _
  · rename_i known
    simp only [StackEvaluator.method, known]
    exact onStack.collectionMethod _ _ _ _
  · rename_i other apart
    rw [StackEvaluator.method, onStack.alone]
    · exact .bind (onStack.all _) fun _ => .outside _
    · exact other
    · exact apart

theorem step (e : Expr) :
    Mirrors (fun env => step setting self env e) (StackEvaluator.step stacked setting e) := by
  unfold StackEvaluator.step
  rw [onStack.alone]
  cases e with
  | literal | typeName | lambda => exact .pure _
  | «variable» name loc => exact .lookup _ _
  | navigation source feature loc => exact .bind (onStack.mirrors source) fun _ => .outside _
  | binary op lhs rhs loc => exact onStack.binary op lhs rhs
  | unary op operand loc => exact .bind (onStack.mirrors operand) fun _ => .outside _
  | conditional condition thenBranch elseBranch loc =>
    refine .bind (onStack.mirrors condition) fun v => ?_
    split
    · exact onStack.mirrors thenBranch
    · exact onStack.mirrors elseBranch
  | letIn name init body tag loc =>
    exact .bind (onStack.mirrors init) fun v => onStack.inScope _ _ body
  | iterate source parameter accumulator init body tag loc =>
    refine .bind (onStack.mirrors source) fun v => ?_
    cases v with
    | collection kind items =>
      exact .bind (onStack.mirrors init) fun acc => onStack.iterate _ _ _ _ _
    | _ => exact .outside _
  | collection kind elements loc => exact .bind (onStack.all elements) fun _ => .pure _
  | arrow source op parameter body loc =>
    exact .bind (onStack.mirrors source) fun v => onStack.collectionOperation _ _ _ _ _
  | method receiver name args loc =>
    exact .bind (onStack.mirrors receiver) fun v => onStack.method _ _ _
  | call name args loc => exact .bind (onStack.all args) fun _ => .outside _
  | tuple parts loc => exact .bind (onStack.fields parts) fun _ => .pure _
  | «foreign» kind loc => exact .fail _

end OnStack

theorem evaluateOnStack_onStack (setting : Setting) (bound : Nat) :
    OnStack (evaluateWithin setting bound) (evaluateOnStack setting bound) := by
  induction bound with
  | zero =>
    refine ⟨fun e => ⟨fun env s => ⟨env.left, rfl⟩, fun _ _ => rfl⟩, fun _ _ => rfl⟩
  | succ bound ih =>
    refine ⟨fun e => .mapFault _ (ih.step e), fun same e => ?_⟩
    exact evaluateWithin_lexical setting (bound + 1) (.of_frames same)

end Engine

end Metamorph
