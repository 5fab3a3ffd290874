import Metamorph.Engine.LazyCache

/-! Lazy rules told by a script: the outputs each makes, the rules it asks for in turn while it is
being filled in, and where it fails. What happens is recorded. -/
namespace Metamorph

/-- A rule asked for with no argument is asked for with the source of the asking rule. -/
structure ScriptedRule where
  name : String
  outputs : List String
  requests : List (String × Option Value) := []
  createFault : Option String := none
  fillFault : Option String := none

inductive ScriptEvent where
  | create (rule : String) (source : Value)
  | fill (rule : String) (source : Value) (complete : Bool)
  | got (rule : String) (outputs : Outputs)

structure ScriptState where
  store : Store
  cache : LazyCache := {}
  events : List ScriptEvent := []
  made : Nat := 0

namespace ScriptState

def cachePlace : LazyCache.Place ScriptState where
  get s := s.cache
  change f s := { s with cache := f s.cache }

def note (event : ScriptEvent) (s : ScriptState) : ScriptState :=
  { s with events := s.events ++ [event] }

def make (s : ScriptState) : Value × ScriptState :=
  let object : HostObject :=
    { name := "T" ++ toString s.made, lineage := ["object"], attributes := [] }
  let (h, store) := s.store.add (.host object)
  (.object h, { s with store, made := s.made + 1 })

end ScriptState

namespace ScriptedRule

def failIf (message : Option String) : Run ScriptState Unit :=
  match message with
  | some message => Run.fail (.broken message)
  | none => return

/-- An object for each output; of outputs with one name the last object counts. -/
def makeOutputs : List String → Run ScriptState (List (String × Value))
  | [] => return []
  | name :: rest => do
    let (v, s) := (← Run.state).make
    Run.modify fun _ => s
    return (name, v) :: (← makeOutputs rest)

def create (rule : ScriptedRule) (source : Value) : Run ScriptState Outputs := do
  Run.modify (ScriptState.note (.create rule.name source))
  failIf rule.createFault
  return Named.ofPairs (← makeOutputs rule.outputs)

def requestAll (ask : String → Value → Run ScriptState Outputs) (source : Value) :
    List (String × Option Value) → Run ScriptState Unit
  | [] => return
  | (name, argument) :: rest => do
    let outputs ← ask name (argument.getD source)
    Run.modify (ScriptState.note (.got name outputs))
    requestAll ask source rest

def fill (ask : String → Value → Run ScriptState Outputs) (rule : ScriptedRule) (source : Value) :
    Run ScriptState Unit := do
  Run.modify fun s => s.note (.fill rule.name source (s.cache.isComplete rule.name source))
  requestAll ask source rule.requests
  failIf rule.fillFault

/-- A request for a rule of the script, nested no deeper than the bound. -/
def requestWithin (rules : List ScriptedRule) : Nat → String → Value → Run ScriptState Outputs
  | 0 => fun _ _ => Run.cutOff
  | bound + 1 => fun name source =>
    match rules.find? (·.name == name) with
    | none => Run.fail (.broken ("no rule " ++ name))
    | some rule =>
      LazyCache.request ScriptState.cachePlace (rule.create source)
        (fun _ => rule.fill (requestWithin rules bound) source) name source

/-- A request nests at most once for every rule and every argument that the script mentions. -/
def request (rules : List ScriptedRule) (name : String) (source : Value) :
    Run ScriptState Outputs :=
  let arguments := (rules.flatMap (·.requests)).length + 1
  requestWithin rules (rules.length * arguments + 1) name source

end ScriptedRule

end Metamorph
