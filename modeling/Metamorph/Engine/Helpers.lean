import Metamorph.Engine.Navigation

/-! Helpers at work. A helper sees its receiver, its arguments and the module, and nothing of where
it was called. -/
namespace Metamorph.Engine

/-- The variables of a helper's body. A parameter called `self` hides the receiver. -/
def helperBindings (helper : Helper) (receiver : Value) (args : List Value) : Named Value :=
  Named.update [("self", receiver)] ((helper.parameters.map (·.name)).zip args)

def invokeHelper (self : Evaluator) (setting : Setting) (helper : Helper) (receiver : Value)
    (args : List Value) : Run Engine Value := do
  if args.length ≠ helper.parameters.length then
    Run.fail (.arity helper.name helper.parameters.length args.length)
  else
    Run.modify fun s =>
      noteHelper helper.name { s with helperInvocations := s.helperInvocations + 1 }
    let env := (setting.rootEnvironment []).push ("helper " ++ helper.name)
      (helperBindings helper receiver args)
    self env helper.body

def callNative (setting : Setting) (name : String) (args : List Value) : Run Engine Value := do
  Run.modify fun s => noteHelper name { s with helperInvocations := s.helperInvocations + 1 }
  collaborate name (nativeAnswer setting (← Run.state).store name args)

/-- The value of an attribute of the module, evaluated at its first use. -/
def moduleAttribute (self : Evaluator) (setting : Setting) (name : String) : Run Engine Value := do
  let s ← Run.state
  match s.attributes.get? name with
  | some v =>
    Run.modify (recollect name v)
    return v
  | none =>
    match (setting.helpers.module.get? name).filter (·.isAttribute) with
    | none => Run.fail (.of (.unresolvedHelper name (some "thisModule")))
    | some helper =>
      let v ← invokeHelper self setting helper setting.handle []
      Run.modify (keepAttribute name v s.readings.length)
      return v

end Metamorph.Engine
