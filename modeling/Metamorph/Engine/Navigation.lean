import Metamorph.Engine.State

/-! What the engine asks of its navigator. A failure of the host on the way is reported as one of
the collaborator that was asked. -/
namespace Metamorph

/-- An evaluator of expressions, as the rest of the engine calls it. -/
abbrev Evaluator := Environment → Expr → Run Engine Value

namespace Engine

def mismatch {α : Type} (expected : String) (v : Value) (context : String) : Run Engine α := do
  Run.fail (.typeMismatch expected ((← Run.state).typeName v) context)

def collaborate {α : Type} (target : String) (answer : Result α) : Run Engine α :=
  Run.mapFault (Fault.ofCollaborator target) (Run.ofResult answer)

/-- The type names a value conforms to, with their distances. -/
def ancestry (setting : Setting) (v : Value) : Run Engine (Named Nat) := do
  let s ← Run.state
  match v.builtinAncestry?, setting.navigator, v with
  | some found, _, _ => return found
  | none, .full, v => return s.store.ancestry v
  | none, .bare, .object h =>
    match s.store.entities[h]? with
    | some (.instance cls _) => return cls.ancestry
    | _ => return [("Record", 0)]
  | none, .bare, _ => return [("Record", 0)]

def hasFeature (setting : Setting) (v : Value) (feature : String) : Run Engine Bool := do
  match setting.navigator with
  | .bare => return false
  | .full => collaborate feature ((← Run.state).store.hasFeature v feature)

/-- The value of a feature, counted as one navigation. -/
def navigate (v : Value) (feature : String) : Run Engine Value := do
  Run.modify fun s => { s with navigations := s.navigations + 1 }
  collaborate feature ((← Run.state).store.navigate v feature)

/-- What a native operation answers; a list comes back as a Sequence. -/
def nativeAnswer (setting : Setting) (store : Store) (name : String) (args : List Value) :
    Result Value :=
  match setting.navigator with
  | .bare => .ok (.string (name ++ "/" ++ toString args.length))
  | .full =>
    match setting.helpers.natives.get? name with
    | some native => (native.run store.cite args).map asSequence
    | none => .error (.of (.unresolvedHelper name none))

end Engine

end Metamorph
