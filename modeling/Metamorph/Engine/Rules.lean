import Metamorph.Engine.Navigation

/-! Rules at work: target objects are made, their features assigned, lazy rules applied once for
each argument and called rules at every call. A binding that meets a lazy application still being
filled in is put down for a second evaluation, which takes the results of called rules from the
first. -/
namespace Metamorph.Engine

/-- The provider that makes objects of a type: the one its qualifier names, by alias or metamodel,
or the only one there is. -/
def targetProvider (t : Transformation) (type : String) : Result Provider :=
  match (splitTypeName type).1 with
  | none =>
    match t.targets with
    | [(_, provider)] => .ok provider
    | _ => .error (.unsupported ("create " ++ type) "several target models; qualify the type")
  | some qualifier =>
    let found := t.module.targets.find? fun target =>
      qualifier == target.1 || qualifier == target.2
    match found.bind fun target => t.targets.get? target.1 with
    | some provider => .ok provider
    | none =>
      .error (.unsupported ("create " ++ type) ("no target model conforms to '" ++ qualifier ++ "'"))

/-- A new target object for an output. -/
def makeTarget (t : Transformation) (out : OutPattern) : Run Engine Value := do
  let provider ← Run.ofResult (targetProvider t out.type)
  let (h, store) ← collaborate ("create " ++ out.type)
    (provider.create (← Run.state).store out.type)
  Run.modify fun s =>
    { s with store, owners := (h, provider) :: s.owners, objectsCreated := s.objectsCreated + 1 }
  return .object h

def makeTargets (t : Transformation) : List OutPattern → Run Engine Outputs
  | [] => return []
  | out :: rest => do
    let target ← makeTarget t out
    return (out.name, target) :: (← makeTargets t rest)

mutual

/-- A value with every object that a matched rule was applied to replaced by its first target, in
nested collections too. -/
def implicitTarget (trace : Trace) : Value → Result Value
  | .collection kind items => do .ok (.collectionOf kind (← implicitTargets trace items))
  | v => if v.builtinType?.isSome then .ok v else trace.replacement v

def implicitTargets (trace : Trace) : List Value → Result (List Value)
  | [] => .ok []
  | v :: rest => do .ok ((← implicitTarget trace v) :: (← implicitTargets trace rest))

end

/-- A collection is handed to a feature as a list. -/
def asFeatureValue : Value → Value
  | .collection _ items => .listed items
  | v => v

/-- Answers with what was handed to the model. -/
def assign (setting : Setting) (target : Value) (feature : String) (v : Value) :
    Run Engine Value := do
  let s ← Run.state
  match s.ownerOf? target, target with
  | some provider, .object h =>
    let v ← Run.ofResult
      (if setting.settings.implicitResolution then implicitTarget s.trace v else .ok v)
    let stored := asFeatureValue v
    let store ← collaborate ("set " ++ feature) (provider.assign s.store h feature stored)
    Run.modify fun s => { s with store }
    return stored
  | _, _ =>
    Run.modify (note (.unowned target feature))
    let text ← Run.ofResult (s.store.cite target)
    Run.fail (.broken ("no target model owns " ++ text))

/-- Evaluates within a frame of its own and hands the frame back. -/
def inFrame {α : Type} (frame : BindingFrame) (body : Run Engine α) : Run Engine (α × BindingFrame) := do
  Run.modify (pushFrame frame)
  Run.ensuring popFrame do
    let a ← body
    return (a, (← Run.state).frames.head?.getD frame)

/-- Works on an assignment. The body ends with what was handed to the model, beside its result. -/
def working {α : Type} (occasion : Occasion) (work : Assignment) (body : Run Engine (α × Value)) :
    Run Engine α := do
  let (a, _) ← nest (fun ended => .assignment occasion work (ended.map (·.2))) body
  return a

def applyBinding (self : Evaluator) (setting : Setting) (rule : String) (target : Value)
    (binding : Binding) (env : Environment) (deferrable : Bool) (replay : List CalledResult) :
    Run Engine Unit := do
  let work : Assignment :=
    { target, feature := binding.feature, value := binding.value, scope := env.snapshot }
  let occasion : Occasion := if deferrable then .first else .again
  let frame ← working occasion work do
    let (v, frame) ← inFrame { replay } (self env binding.value)
    Run.modify fun s => { s with bindingsEvaluated := s.bindingsEvaluated + 1 }
    return (frame, ← assign setting target binding.feature v)
  if frame.sawIncomplete && deferrable then
    Run.modify fun s => { s with deferred := s.deferred ++
      [{ rule, target, binding, scope := env.snapshot, calls := frame.calls.reverse }] }

def applyBindings (self : Evaluator) (setting : Setting) (rule : String) (target : Value)
    (env : Environment) : List Binding → Run Engine Unit
  | [] => return
  | binding :: rest => do
    applyBinding self setting rule target binding env true []
    applyBindings self setting rule target env rest

/-- The bindings of all outputs, in the order of their declaration. -/
def fillOutputs (self : Evaluator) (setting : Setting) (rule : String) (outputs : Outputs)
    (env : Environment) : List OutPattern → Run Engine Unit
  | [] => return
  | out :: rest => do
    applyBindings self setting rule ((outputs.get? out.name).getD .undefined) env out.bindings
    fillOutputs self setting rule outputs env rest

/-- What is done for one application of a rule. -/
def applying {α : Type} (rule : String) (patterns : List OutPattern) (body : List Statement)
    (outputs : Outputs) (work : Run Engine α) : Run Engine α :=
  nest (fun _ => .application rule patterns body outputs) work

/-- Fills in the outputs of an application with the given scope. -/
def fillApplication (self : Evaluator) (setting : Setting) (rule : String)
    (patterns : List OutPattern) (outputs : Outputs) (scope : Named Value) : Run Engine Unit := do
  Run.modify (noteRule rule)
  fillOutputs self setting rule outputs (setting.rootEnvironment (scope.update outputs)) patterns

/-- An argument has to conform to the type of its parameter; undefined always does. -/
def checkArgument (setting : Setting) (rule : String) (parameter : Parameter) (v : Value) :
    Run Engine Unit := do
  match parameter.type, v with
  | none, _ | some _, .undefined => return
  | some type, v =>
    let found ← ancestry setting v
    if found.has (className type) then return
    else
      mismatch type v ("argument '" ++ parameter.name ++ "' of rule '" ++ rule ++ "'")

def checkArguments (setting : Setting) (rule : String) :
    List Parameter → List Value → Run Engine Unit
  | parameter :: parameters, v :: args => do
    checkArgument setting rule parameter v
    checkArguments setting rule parameters args
  | _, _ => return

def refuseWhileMatching (rule : String) : Run Engine Unit := do
  if (← Run.state).phase = .matching then
    Run.fail (.unsupported rule
      "rules cannot be invoked while matching; guards must not create objects")

/-- One level deeper, unless that many rules are being applied already. -/
def enterRule (setting : Setting) (rule : String) : Run Engine Unit := do
  let limit := setting.settings.depthLimit
  if limit ≤ (← Run.state).depth then
    Run.fail (.unsupported rule ("rule invocations nested deeper than " ++ toString limit))
  else Run.modify enter

/-- Records an application of a rule in the trace. -/
def registerLink (rule : String) (source : Value) (outputs : Outputs) (kind : LinkKind) :
    Run Engine Unit := do
  let s ← Run.state
  let (_, trace) ← Run.ofResult (s.trace.register s.store rule source outputs kind)
  Run.modify fun s => { s with trace }

def createLazy (t : Transformation) (rule : LazyRule) (source : Value) : Run Engine Outputs := do
  Run.modify (noteRule rule.name)
  let outputs ← makeTargets t rule.outputs
  registerLink rule.name source outputs .lazy
  Run.modify fun s => { s with lazyApplied := s.lazyApplied + 1 }
  return outputs

def fillLazy (self : Evaluator) (setting : Setting) (rule : LazyRule) (source : Value)
    (outputs : Outputs) : Run Engine Unit :=
  applying rule.name rule.outputs [] outputs <|
    fillApplication self setting rule.name rule.outputs outputs [(rule.parameter.name, source)]

/-- What a lazy rule answers with, of the objects made for its outputs. -/
def answer (rule : LazyRule) (outputs : Outputs) : Value :=
  (outputs.get? rule.mainOutput.name).getD .undefined

/-- The first target of a lazy rule for an argument. Nothing is made of undefined. -/
def invokeLazy (self : Evaluator) (setting : Setting) (t : Transformation) (rule : LazyRule)
    (argument : Value) : Run Engine Value := do
  refuseWhileMatching rule.name
  match argument with
  | .undefined => return .undefined
  | argument =>
    checkArgument setting rule.name rule.parameter argument
    enterRule setting rule.name
    let (result, complete) ← nest
      (fun ended => .lazy rule.name argument (ended.any (·.2)) (ended.map (·.1))) do
        let outputs ← Run.ensuring leave
          (LazyCache.request cachePlace (createLazy t rule argument)
            (fillLazy self setting rule argument) rule.name argument)
        return (answer rule outputs, (← Run.state).cache.isComplete rule.name argument)
    if !complete then
      Run.modify (changeFrame fun frame => { frame with sawIncomplete := true })
    return result

def executeStatement (self : Evaluator) (setting : Setting) (env : Environment) :
    Statement → Run Engine Value
  | .evaluate e => self env e
  | .assign target feature e =>
    let work : Assignment :=
      { target := (env.get? target).getD .undefined, feature, value := e, scope := env.snapshot }
    working .statement work do
      let v ← self env e
      let object ← Run.ofResult (env.lookup target .unknown)
      if ((← Run.state).ownerOf? object).isNone then
        Run.fail (.unsupported (target ++ "." ++ feature ++ " <-")
          "only objects created by this transformation can be assigned")
      Run.modify fun s => { s with bindingsEvaluated := s.bindingsEvaluated + 1 }
      return (v, ← assign setting object feature v)

/-- The statements in turn; the value is that of the last. -/
def executeBody (self : Evaluator) (setting : Setting) (env : Environment) (last : Value) :
    List Statement → Run Engine Value
  | [] => return last
  | statement :: rest => do
    let v ← executeStatement self setting env statement
    executeBody self setting env v rest

/-- The outputs of a called rule, filled in, then its body. -/
def executeCalled (self : Evaluator) (setting : Setting) (t : Transformation) (rule : CalledRule)
    (args : List Value) : Run Engine Value := do
  Run.modify (noteRule rule.name)
  let outputs ← makeTargets t rule.outputs
  let scope := Named.ofPairs ((rule.parameters.map (·.name)).zip args)
  let last ← applying rule.name rule.outputs rule.body outputs do
    fillApplication self setting rule.name rule.outputs outputs scope
    executeBody self setting (setting.rootEnvironment (scope.update outputs)) .undefined rule.body
  return match rule.outputs with
    | [] => last
    | out :: _ => (outputs.get? out.name).getD .undefined

/-- Looks for the result of an earlier evaluation of the binding, and uses it up. -/
def recorded? (rule : String) (args : List Value) : Run Engine (Option Value) := do
  match ((← Run.state).frames.head?).bind (·.take? rule args) with
  | none => return none
  | some (call, frame) =>
    Run.modify (changeFrame fun _ => frame)
    return some call.result

/-- A called rule is run unless the binding being evaluated again has its result already. What its
body meets counts for the binding; what its body calls does not. -/
def invokeCalled (self : Evaluator) (setting : Setting) (t : Transformation) (rule : CalledRule)
    (args : List Value) : Run Engine Value := do
  refuseWhileMatching rule.name
  if args.length ≠ rule.parameters.length then
    Run.fail (.arity rule.name rule.parameters.length args.length)
  checkArguments setting rule.name rule.parameters args
  match ← recorded? rule.name args with
  | some result =>
    Run.modify (note (.replayed rule.name args result))
    return result
  | none =>
    enterRule setting rule.name
    let (result, frame) ← nest (fun ended => .called rule.name args (ended.map (·.1)))
      (Run.ensuring leave (inFrame {} (executeCalled self setting t rule args)))
    Run.modify fun s => { s with calledApplied := s.calledApplied + 1 }
    Run.modify (changeFrame fun outer =>
      { outer with
        sawIncomplete := outer.sawIncomplete || frame.sawIncomplete
        calls := ⟨rule.name, args, result⟩ :: outer.calls })
    return result

/-- The objects of the given source models whose type is the class, each once. -/
def instancesIn (setting : Setting) (cls : String) :
    List (String × Provider) → Run Engine (List Value)
  | [] => return []
  | (name, provider) :: rest => do
    let objects ← collaborate ("objects of " ++ name) (provider.objects (← Run.state).store)
    let found ← objects.filterM fun h => return (← ancestry setting (.object h)).has cls
    return found.map .object ++ (← instancesIn setting cls rest)

/-- The source models a qualifier stands for: by alias or by metamodel, without one all of them. -/
def sourcesNamed (t : Transformation) (qualifier : Option String) : List (String × Provider) :=
  let named := t.module.sources.filter fun source =>
    qualifier.all fun q => q == source.1 || q == source.2
  named.filterMap fun source => (t.sources.get? source.1).map fun provider => (source.1, provider)

def allInstances (setting : Setting) (t : Transformation) (type : String) : Run Engine Value := do
  let (qualifier, cls) := splitTypeName type
  return .collectionOf .set (← instancesIn setting cls (sourcesNamed t qualifier))

def allInstancesFrom (setting : Setting) (t : Transformation) (type model : String) :
    Run Engine Value := do
  match t.sources.get? model with
  | none =>
    Run.fail (.unsupported "allInstancesFrom" ("unknown source model '" ++ model ++ "'"))
  | some provider =>
    return .collectionOf .set (← instancesIn setting (className type) [(model, provider)])

end Metamorph.Engine
