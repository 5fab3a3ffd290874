import Metamorph.Engine.Matching

/-! Whole runs. A transformation is run once: it matches, makes all target objects of matched rules,
fills them in, and evaluates again the bindings that met something incomplete. A failure leaves the
engine failed, with what was made so far. After a complete run called rules may be executed. -/
namespace Metamorph.Engine

/-- Models have to be supplied for the declared aliases and no others. -/
def checkAliases (direction : String) (declared supplied : List String) : Result Unit :=
  let missing := declared.filter fun name => !supplied.contains name
  let unexpected := supplied.filter fun name => !declared.contains name
  if missing.isEmpty && unexpected.isEmpty then .ok ()
  else .error (.of (.modelAlias direction missing unexpected))

def prepare (t : Transformation) (settings : Settings) (navigator : Navigator) : Result Setting := do
  checkAliases "source" t.module.sources.names t.sources.names
  checkAliases "target" t.module.targets.names t.targets.names
  let helpers ← HelperTable.build t.module.helpers settings.natives
  return { helpers, navigator, settings, transformation := some t }

/-- Warnings about the settings, as they are reported when an engine is set up. -/
def settingsWarnings (settings : Settings) : List LogRecord :=
  settings.warnings.map fun warning => ⟨.warning, "EngineConfig: " ++ warning⟩

def illegalTransition (current : Phase) (requested : String) : Fault :=
  .of (.illegalTransition current.title requested)

/-- Moves on to the next phase, which has to be this one. -/
def advance (phase : Phase) : Run Engine Unit := do
  let s ← Run.state
  if s.phase.next? = some phase then Run.modify (enterPhase phase)
  else Run.fail (illegalTransition s.phase phase.title)

def runPhase (setting : Setting) (phase : Phase) (work : Run Engine Unit) : Run Engine Unit := do
  advance phase
  work
  if setting.settings.recordPhases then Run.modify (notePhase phase)

def matchSources (self : Evaluator) (setting : Setting) (t : Transformation) : Run Engine Unit := do
  let schedule ← buildSchedule self setting t.module t.sources
  Run.modify fun s => { s with schedule := some schedule }

def createAll (t : Transformation) : List Application → Run Engine Unit
  | [] => return
  | a :: rest => do
    Run.modify (noteRule a.rule.name)
    let outputs ← makeTargets t a.rule.outputs
    registerLink a.rule.name a.source outputs .matched
    Run.modify fun s =>
      { s with created := s.created ++ [outputs], matchedApplied := s.matchedApplied + 1 }
    createAll t rest

def fillAll (self : Evaluator) (setting : Setting) :
    List (Application × Outputs) → Run Engine Unit
  | [] => return
  | (a, outputs) :: rest => do
    applying a.rule.name a.rule.outputs [] outputs <|
      fillApplication self setting a.rule.name a.rule.outputs outputs
        [(a.rule.source.name, a.source)]
    fillAll self setting rest

def scheduled (s : Engine) : List Application := (s.schedule.map (·.applications)).getD []

/-- The second evaluation of a binding. Called rules are not run again where their results are kept.
-/
def resolveDeferred (self : Evaluator) (setting : Setting) (d : DeferredBinding) :
    Run Engine Unit := do
  applyBinding self setting d.rule d.target d.binding (setting.rootEnvironment d.scope) false
    d.calls
  Run.modify fun s => { s with deferredResolved := s.deferredResolved + 1 }

/-- Deferred bindings from a position on. The list may grow while it is walked; a walk longer than
the bound is cut off. -/
def resolveFrom (self : Evaluator) (setting : Setting) : Nat → Nat → Run Engine Unit
  | 0, _ => Run.cutOff
  | bound + 1, position => do
    match (← Run.state).deferred[position]? with
    | none => return
    | some d =>
      resolveDeferred self setting d
      resolveFrom self setting bound (position + 1)

def phases (self : Evaluator) (bound : Nat) (setting : Setting) (t : Transformation) :
    Run Engine Unit := do
  runPhase setting .matching (matchSources self setting t)
  runPhase setting .creation (do createAll t (scheduled (← Run.state)))
  runPhase setting .initialization (do
    let s ← Run.state
    fillAll self setting ((scheduled s).zip s.created))
  runPhase setting .resolution (resolveFrom self setting bound 0)

/-- The state after a failure, which is reported with the phase it happened in. -/
def failed (t : Transformation) (fault : Fault) (s : Engine) : Engine :=
  (enterPhase .failed s).report .error
    (t.module.name ++ ": transformation failed during " ++ s.phase.text ++ ": " ++ fault.text)

def runWith (self : Evaluator) (bound : Nat) (setting : Setting) (t : Transformation) :
    Run Engine Unit := do
  let s ← Run.state
  if s.phase ≠ .ready then Run.fail (illegalTransition s.phase Phase.matching.title)
  else
    Run.rescue (phases self bound setting t) fun fault => do
      Run.modify (failed t fault)
      Run.fail fault
    advance .complete

/-- Runs the transformation of a setting. -/
def run (setting : Setting) (t : Transformation) : Run Engine Unit :=
  runWith (evaluate setting) nestingBound setting t

def callRuleWith (self : Evaluator) (setting : Setting) (t : Transformation) (name : String)
    (args : List Value) : Run Engine Value := do
  let s ← Run.state
  if s.phase ≠ .complete then Run.fail (illegalTransition s.phase "execute_called_rule")
  else
    match t.module.calledRule? name with
    | none => Run.fail (.unsupported name "no called rule with that name")
    | some rule => invokeCalled self setting t rule args

/-- Executes a called rule after the transformation is complete. -/
def callRule (setting : Setting) (t : Transformation) (name : String) (args : List Value) :
    Run Engine Value :=
  callRuleWith (evaluate setting) setting t name args

end Metamorph.Engine
