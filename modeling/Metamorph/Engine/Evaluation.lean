import Metamorph.Engine.Calls

/-! The evaluation of expressions. Every node has its own step, written against an evaluator for the
parts below it; the evaluator proper repeats the step, a bounded number of times deep. An error that
has no place yet gets that of the innermost node with a line. -/
namespace Metamorph.Engine

def evaluateAll (self : Evaluator) (env : Environment) : List Expr → Run Engine (List Value)
  | [] => return []
  | e :: rest => do
    let v ← self env e
    return v :: (← evaluateAll self env rest)

def evaluateFields (self : Evaluator) (env : Environment) :
    List (TupleField Expr) → Run Engine (List (String × Value))
  | [] => return []
  | part :: rest => do
    let v ← self env part.value
    return (part.name, v) :: (← evaluateFields self env rest)

/-- A function of values given by one of the operations. -/
def applied (operation : (Value → String) → Result Value) : Run Engine Value := do
  Run.ofResult (operation (← Run.state).typeName)

def requireTruth (op : String) (v : Value) : Run Engine Bool := do
  Run.ofResult (Operation.requireBoolean (← Run.state).typeName op v)

def navigation (self : Evaluator) (setting : Setting) (v : Value) (feature : String) :
    Run Engine Value := do
  match v with
  | .undefined => return .undefined
  | .thisModule _ => moduleAttribute self setting feature
  | .tuple fields =>
    match Value.field? fields feature with
    | some part => return part
    | none => Run.fail (.of (.unknownFeature "Tuple" feature))
  | v =>
    let own := v.builtinType?.isNone
    match ← contextHelper? setting v feature (some true) with
    | some helper =>
      if own && (← hasFeature setting v feature) then navigate v feature
      else invokeHelper self setting helper v []
    | none =>
      if own then navigate v feature
      else mismatch "model object" v ("navigation '." ++ feature ++ "'")

/-- The left operand of a logical operator may decide alone; the right one is then not evaluated. -/
def binary (self : Evaluator) (env : Environment) (op : BinaryOperator) (lhs rhs : Expr) :
    Run Engine Value := do
  if op.isLogical && op ≠ .xor then
    let a ← requireTruth op.text (← self env lhs)
    match Operation.decided? op a with
    | some b => return .boolean b
    | none => return .boolean (← requireTruth op.text (← self env rhs))
  else
    let l ← self env lhs
    let r ← self env rhs
    applied fun typeOf => Operation.binary typeOf op l r

/-- The accumulator goes from element to element; each body has a frame of its own. -/
def iterate (self : Evaluator) (env : Environment) (parameter accumulator : String) (body : Expr)
    (acc : Value) : List Value → Run Engine Value
  | [] => return acc
  | v :: rest => do
    let bindings := Named.ofPairs [(parameter, v), (accumulator, acc)]
    let acc ← self (env.push "iterate" bindings) body
    iterate self env parameter accumulator body acc rest

def elementwise (self : Evaluator) (env : Environment) (parameter : String) (body : Expr)
    (v : Value) : Run Engine Value :=
  self (env.push "iterator" [(parameter, v)]) body

def iteratorName (setting : Setting) : Option String → String
  | some name => if name.isEmpty then setting.settings.defaultIterator else name
  | none => setting.settings.defaultIterator

def collectionOperation (self : Evaluator) (setting : Setting) (env : Environment)
    (op : CollectionOperation) (kind : CollectionKind) (items : List Value)
    (parameter : Option String) (body : Option Expr) : Run Engine Value := do
  match op, body with
  | .iterator op, none => Run.fail (.unsupported op.text "requires a body expression")
  | .iterator op, some body =>
    Collection.iterate (← Run.state).typeName op kind items
      (elementwise self env (iteratorName setting parameter) body)
  | .combination op, none => Run.fail (.arity op.text 1 0)
  | .combination op, some body =>
    let argument ← self env body
    applied fun typeOf => Collection.combine typeOf op kind items argument
  | .query op, _ => applied fun typeOf => Collection.query typeOf op kind items

/-- A collection operation in the form of a method call. -/
def collectionMethod (self : Evaluator) (setting : Setting) (env : Environment)
    (op : CollectionOperation) (kind : CollectionKind) (items : List Value) (args : List Expr) :
    Run Engine Value :=
  match op, args with
  | .iterator _, [.lambda parameter body _] =>
    collectionOperation self setting env op kind items (some parameter) (some body)
  | .iterator op, _ => Run.fail (.unsupported op.text "expects one lambda argument")
  | .combination _, [argument] =>
    collectionOperation self setting env op kind items none (some argument)
  | .combination op, args => Run.fail (.arity op.text 1 args.length)
  | .query _, [] => collectionOperation self setting env op kind items none none
  | .query op, args => Run.fail (.arity op.text 0 args.length)

def method (self : Evaluator) (setting : Setting) (env : Environment) (v : Value) (name : String)
    (args : List Expr) : Run Engine Value := do
  match v, CollectionOperation.named? name with
  | .thisModule _, _ => callModule self setting name (← evaluateAll self env args)
  | .collection kind items, some op => collectionMethod self setting env op kind items args
  | v, _ => callOn self setting v name (← evaluateAll self env args)

def step (setting : Setting) (self : Evaluator) (env : Environment) (e : Expr) :
    Run Engine Value :=
  match e with
  | .literal value _ => return value.value
  | .variable name _ => Run.ofResult (env.lookup name e.span)
  | .typeName name _ => return .type name
  | .lambda _ _ _ => return .undefined
  | .navigation source feature _ => do navigation self setting (← self env source) feature
  | .binary op lhs rhs _ => binary self env op lhs rhs
  | .unary op operand _ => do
    let v ← self env operand
    applied fun typeOf => Operation.unary typeOf op v
  | .conditional condition thenBranch elseBranch _ => do
    let v ← self env condition
    if v.holds then self env thenBranch else self env elseBranch
  | .letIn name init body _ _ => do
    let v ← self env init
    self (env.push "let" [(name, v)]) body
  | .iterate source parameter accumulator init body _ _ => do
    match ← self env source with
    | .collection _ items => iterate self env parameter accumulator body (← self env init) items
    | v => mismatch "Collection" v "'iterate'"
  | .collection kind elements _ => do
    return .collectionOf kind (← evaluateAll self env elements)
  | .arrow source op parameter body _ => do
    let (kind, items) := (← self env source).asCollection
    collectionOperation self setting env op kind items parameter body
  | .method receiver name args _ => do method self setting env (← self env receiver) name args
  | .call name args _ => do callModule self setting name (← evaluateAll self env args)
  | .tuple fields _ => return .tuple (← evaluateFields self env fields)
  | .foreign kind _ => Run.fail (.foreignNode kind)

/-- Evaluation no deeper than the bound. -/
def evaluateWithin (setting : Setting) : Nat → Evaluator
  | 0 => fun _ _ => Run.cutOff
  | bound + 1 => fun env e =>
    Run.mapFault (Fault.locate e.span) (step setting (evaluateWithin setting bound) env e)

def nestingBound : Nat := 100000

def evaluate (setting : Setting) : Evaluator := evaluateWithin setting nestingBound

end Metamorph.Engine
