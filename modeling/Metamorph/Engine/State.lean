import Metamorph.Engine.History
import Metamorph.Engine.LazyCache
import Metamorph.Engine.Phase
import Metamorph.Environment
import Metamorph.Log
import Metamorph.Model.Navigator
import Metamorph.Model.Provider
import Metamorph.Program.HelperTable
import Metamorph.Program.Module
import Metamorph.Settings
import Metamorph.Statistics

/-! What a run works with: the setting, which stays, and the state, which changes. -/
namespace Metamorph

/-- How values are navigated. `bare` knows no features in advance, answers every native operation
with its name and number of arguments, and takes whatever is no model object for a record. -/
inductive Navigator where
  | full
  | bare

/-- The transformation that is running, with the models it was given. -/
structure Transformation where
  module : Module
  sources : Named Provider
  targets : Named Provider

/-- All the models of a transformation, sources first. -/
def Transformation.models (t : Transformation) : Named Provider := t.sources ++ t.targets

structure Setting where
  helpers : HelperTable := {}
  navigator : Navigator := .full
  settings : Settings := {}
  transformation : Option Transformation := none

/-- What `thisModule` stands for. -/
def Setting.handle (setting : Setting) : Value :=
  .thisModule (setting.transformation.map (·.module.name))

/-- An environment that binds `thisModule` and the given names. -/
def Setting.rootEnvironment (setting : Setting) (bindings : Named Value) : Environment :=
  .ofRoot (Named.update [("thisModule", setting.handle)] bindings)

/-- A matched rule and the source object it is applied to. -/
structure Application where
  rule : MatchedRule
  source : Value
  model : String
  position : Nat

structure Schedule where
  applications : List Application := []
  examined : Nat := 0

def Schedule.forRule (s : Schedule) (rule : String) : List Application :=
  s.applications.filter (·.rule.name == rule)

def Schedule.text (s : Schedule) : String :=
  "Schedule(" ++ toString s.applications.length ++ " entries)"

/-- A called rule that was run for a binding. -/
structure CalledResult where
  rule : String
  arguments : List Value
  result : Value

/-- The evaluation of one binding: whether it met a lazy application that was not complete, the
called rules it ran, the last one first, and the results of an earlier evaluation it may use again.
-/
structure BindingFrame where
  sawIncomplete : Bool := false
  calls : List CalledResult := []
  replay : List CalledResult := []

/-- The result kept for a call, and the frame without it. -/
def BindingFrame.take? (frame : BindingFrame) (rule : String) (arguments : List Value) :
    Option (CalledResult × BindingFrame) :=
  let fits := fun (call : CalledResult) =>
    call.rule == rule && (Value.sequence call.arguments).same (.sequence arguments)
  (frame.replay.find? fits).map fun call =>
    (call, { frame with replay := frame.replay.eraseP fits })

/-- A binding to be evaluated again, with the variables and the calls of its first evaluation. -/
structure DeferredBinding where
  rule : String
  target : Value
  binding : Binding
  scope : Named Value
  calls : List CalledResult

structure Engine where
  store : Store := {}
  phase : Phase := .ready
  /-- The phases so far, the current one last. -/
  visited : List Phase := [.ready]
  trace : Trace := {}
  cache : LazyCache := {}
  schedule : Option Schedule := none
  /-- The outputs of the scheduled applications, in their order. -/
  created : List Outputs := []
  /-- The provider each object made by this engine came from. -/
  owners : List (Handle × Provider) := []
  /-- Bindings that wait for their second evaluation. -/
  deferred : List DeferredBinding := []
  /-- Bindings being evaluated, innermost first. -/
  frames : List BindingFrame := []
  /-- Lazy and called rules being applied. -/
  depth : Nat := 0
  /-- Values of the attributes of the module that were read. -/
  attributes : Named Value := []
  /-- The identities given out so far. -/
  made : Identity := 0
  objectsCreated : Nat := 0
  bindingsEvaluated : Nat := 0
  matchedApplied : Nat := 0
  lazyApplied : Nat := 0
  calledApplied : Nat := 0
  deferredResolved : Nat := 0
  helperInvocations : Nat := 0
  navigations : Nat := 0
  timedPhases : List String := []
  timedRules : List String := []
  timedHelpers : List String := []
  log : List LogRecord := []
  history : List Event := []
  /-- The attributes that were read, in the order in which that ended. -/
  readings : List Reading := []

namespace Engine

def typeName (s : Engine) (v : Value) : String := s.store.typeName v

def ownerOf? (s : Engine) : Value → Option Provider
  | .object h => s.owners.lookup h
  | _ => none

/-- A name in a list of names, once. -/
def noted (names : List String) (name : String) : List String :=
  if names.contains name then names else names ++ [name]

def noteRule (name : String) (s : Engine) : Engine :=
  { s with timedRules := noted s.timedRules name }

def noteHelper (name : String) (s : Engine) : Engine :=
  { s with timedHelpers := noted s.timedHelpers name }

def notePhase (phase : Phase) (s : Engine) : Engine :=
  { s with timedPhases := noted s.timedPhases phase.text }

def enterPhase (phase : Phase) (s : Engine) : Engine :=
  { s with phase, visited := s.visited ++ [phase] }

def report (level : LogLevel) (message : String) (s : Engine) : Engine :=
  { s with log := s.log ++ [⟨level, message⟩] }

def enter (s : Engine) : Engine := { s with depth := s.depth + 1 }

def leave (s : Engine) : Engine := { s with depth := s.depth - 1 }

def pushFrame (frame : BindingFrame) (s : Engine) : Engine := { s with frames := frame :: s.frames }

def popFrame (s : Engine) : Engine := { s with frames := s.frames.tail }

/-- Changes the frame of the innermost binding, if one is being evaluated. -/
def changeFrame (change : BindingFrame → BindingFrame) (s : Engine) : Engine :=
  { s with frames := s.frames.modifyHead change }

/-- An attribute was read that is at hand. -/
def recollect (name : String) (v : Value) (s : Engine) : Engine :=
  { s with readings := s.readings ++ [⟨name, v, none⟩] }

/-- An attribute is kept that was evaluated. So many were read before that. -/
def keepAttribute (name : String) (v : Value) (before : Nat) (s : Engine) : Engine :=
  { s with
    attributes := s.attributes.set name v
    readings := s.readings ++ [⟨name, v, some ((s.readings.drop before).map (·.name))⟩] }

def note (event : Event) (s : Engine) : Engine := { s with history := s.history ++ [event] }

/-- What happens in a run becomes the inner part of a single event, which may tell what the run ended
with. -/
def nest {α : Type} (event : Option α → List Event → Event) (body : Run Engine α) :
    Run Engine α := fun s =>
  match body { s with history := [] } with
  | .value a t => .value a { t with history := s.history ++ [event (some a) t.history] }
  | .failure fault t => .failure fault { t with history := s.history ++ [event none t.history] }
  | .exhausted => .exhausted

def cachePlace : LazyCache.Place Engine where
  get s := s.cache
  change f s := { s with cache := f s.cache }

def counters (s : Engine) : Counters where
  objectsCreated := s.objectsCreated
  rulesApplied := s.matchedApplied + s.lazyApplied + s.calledApplied
  bindingsEvaluated := s.bindingsEvaluated
  matchedRulesApplied := s.matchedApplied
  lazyRulesApplied := s.lazyApplied
  calledRulesApplied := s.calledApplied
  lazyCacheHits := s.cache.hits
  traceLinks := s.trace.size
  deferredBindingsResolved := s.deferredResolved
  helperInvocations := s.helperInvocations
  navigations := s.navigations
  elementsProcessed := (s.schedule.map (·.examined)).getD 0

end Engine

end Metamorph
