import Metamorph.Collection.Iteration
import Metamorph.Engine.Helpers
import Metamorph.Engine.Rules
import Metamorph.Operation.OnNumber
import Metamorph.Operation.Operator

/-! Calls by name. A call on the module reaches its helpers, then its rules, then native operations;
a call on any other value reaches the helpers of its type, then the operations every value has, then
those of its own type. -/
namespace Metamorph.Engine

def displayed (v : Value) : Run Engine String := do
  Run.ofResult ((← Run.state).store.display v)

/-- A rule or trace look-up called like a helper; none if the transformation has no such name. -/
def ruleCall? (self : Evaluator) (setting : Setting) (t : Transformation) (name : String)
    (args : List Value) : Option (Run Engine Value) :=
  match t.module.lazyRule? name, t.module.calledRule? name with
  | some rule, _ => some <|
    match args with
    | [v] => invokeLazy self setting t rule v
    | args => Run.fail (.arity name 1 args.length)
  | none, some rule => some (invokeCalled self setting t rule args)
  | none, none =>
    if name = "resolveTemp" then some <|
      match args with
      | [source, output] => resolveTemp source output none
      | [source, output, rule] => resolveTemp source output (some rule)
      | args => Run.fail (.arity name 2 args.length)
    else none
where
  text (v : Value) : Run Engine String :=
    match v with
    | .string s => return s
    | v => mismatch "String" v (inQuotes "resolveTemp")
  resolveTemp (source output : Value) (rule : Option Value) : Run Engine Value := do
    let rule ← rule.mapM text
    let output ← text output
    let s ← Run.state
    Run.ofResult (s.trace.resolve s.store source output rule)

def callModule (self : Evaluator) (setting : Setting) (name : String) (args : List Value) :
    Run Engine Value :=
  match setting.helpers.module.get? name with
  | some helper =>
    if helper.isAttribute && args.isEmpty then moduleAttribute self setting name
    else invokeHelper self setting helper setting.handle args
  | none =>
    match setting.transformation.bind fun t => ruleCall? self setting t name args with
    | some run => run
    | none => callNative setting name args

/-- Operations that every value has. -/
inductive Universal where
  | isUndefined | isKindOf | isTypeOf | type | toString | debug

namespace Universal

def text : Universal → String
  | isUndefined => "oclIsUndefined"
  | isKindOf => "oclIsKindOf"
  | isTypeOf => "oclIsTypeOf"
  | type => "oclType"
  | toString => "toString"
  | debug => "debug"

def named? (name : String) : Option Universal :=
  [isUndefined, isKindOf, isTypeOf, type, toString, debug].find? (·.text == name)

end Universal

/-- The entry at the least distance, of several the first. -/
def nearestType (ancestry : Named Nat) : String :=
  (ancestry.foldl (fun (best : Option (String × Nat)) entry =>
    if best.all (entry.2 < ·.2) then some entry else best) none |>.map (·.1)).getD ""

/-- The distance to the class that a type value names. -/
def distanceTo (setting : Setting) (op : Universal) (v target : Value) :
    Run Engine (Option Nat) := do
  let found ← ancestry setting v
  match target with
  | .type name => return found.get? (className name)
  | target => mismatch "type" target (inQuotes op.text)

def logDebug (label : String) (v : Value) : Run Engine Value := do
  let text ← displayed v
  Run.modify (report .info ("debug: " ++ label ++ text))
  return v

def universal (setting : Setting) (op : Universal) (v : Value) (args : List Value) :
    Run Engine Value :=
  match op, args with
  | .debug, [] => logDebug "" v
  | .debug, [label] => do logDebug ((← displayed label) ++ ": ") v
  | .isUndefined, [] => return .boolean (v.builtinType? == some "OclUndefined")
  | .toString, [] => do return .string (← displayed v)
  | .type, [] => do return .type (nearestType (← ancestry setting v))
  | .isKindOf, [target] => do return .boolean (← distanceTo setting op v target).isSome
  | .isTypeOf, [target] => do return .boolean ((← distanceTo setting op v target) == some 0)
  | .debug, args | .isKindOf, args | .isTypeOf, args => Run.fail (.arity op.text 1 args.length)
  | op, args => Run.fail (.arity op.text 0 args.length)

/-- Operations on a type. They ask the running transformation for its source objects. -/
def onType (setting : Setting) (type name : String) (args : List Value) :
    Option (Run Engine Value) :=
  if name = "allInstances" || name = "allInstancesFrom" then some <|
    match setting.transformation with
    | none => Run.fail (.unsupported name "no transformation is running")
    | some t =>
      if name = "allInstances" then
        if args.isEmpty then allInstances setting t type
        else Run.fail (.arity name 0 args.length)
      else
        match args with
        | [.string model] => allInstancesFrom setting t type model
        | [v] => mismatch "String" v (inQuotes name)
        | args => Run.fail (.arity name 1 args.length)
  else none

/-- The operation of that name on the type of the value, if there is one. -/
def ownOperation? (setting : Setting) (v : Value) (name : String) (args : List Value) :
    Option (Run Engine Value) :=
  let run := fun (operation : (Value → String) → Result Value) =>
    show Run Engine Value from do Run.ofResult (operation (← Run.state).typeName)
  match v with
  | .type type => onType setting type name args
  | .string s => (Operation.OnText.named? name).map fun op =>
    run fun typeOf => Operation.onText typeOf op s args
  | .integer _ | .real _ => (Operation.OnNumber.named? name).map fun op => do
    let s ← Run.state
    Run.modify fun s => { s with made := s.made + 1 }
    run fun typeOf => Operation.onNumber typeOf s.made op v args
  | _ => none

/-- The helper that answers to a name for a receiver, if one does. -/
def contextHelper? (setting : Setting) (v : Value) (name : String) (isAttribute : Option Bool) :
    Run Engine (Option Helper) := do
  if setting.helpers.has name then
    return setting.helpers.lookup name (← ancestry setting v) isAttribute
  else return none

/-- A call with a receiver and evaluated arguments. -/
def callOn (self : Evaluator) (setting : Setting) (v : Value) (name : String) (args : List Value) :
    Run Engine Value := do
  match ← contextHelper? setting v name none with
  | some helper => invokeHelper self setting helper v args
  | none =>
    match Universal.named? name with
    | some op => universal setting op v args
    | none =>
      match ownOperation? setting v name args with
      | some run => run
      | none =>
        if setting.helpers.natives.has name then callNative setting name (v :: args)
        else do Run.fail (.of (.unresolvedHelper name (some ((← Run.state).typeName v))))

end Metamorph.Engine
