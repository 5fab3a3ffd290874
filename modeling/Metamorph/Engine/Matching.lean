import Metamorph.Engine.Evaluation

/-! Matching: every source object is paired with the nearest matched rule that accepts it. A rule is
a candidate for an object whose type conforms to its input type; of the candidates whose guard holds
the nearest wins, and two at one distance are an error. -/
namespace Metamorph.Engine

/-- Whether the qualifier of the input type lets the rule read the model: by alias or by metamodel.
-/
def acceptsModel (m : Module) (rule : MatchedRule) (model : String) : Bool :=
  match (splitTypeName rule.source.type).1 with
  | none => true
  | some qualifier => qualifier == model || (m.sources.get? model).any (qualifier == ·)

/-- The candidates with their distances, nearest first, those of one distance as declared. -/
def candidates (m : Module) (found : Named Nat) (model : String) : List (Nat × MatchedRule) :=
  let fitting := m.matched.filterMap fun rule =>
    if acceptsModel m rule model then
      (found.get? (className rule.source.type)).map fun distance => (distance, rule)
    else none
  fitting.mergeSort fun a b => decide (a.1 ≤ b.1)

def guardHolds (self : Evaluator) (setting : Setting) (rule : MatchedRule) (source : Value) :
    Run Engine Bool := do
  match rule.source.guard with
  | none => return true
  | some guard =>
    return (← self (setting.rootEnvironment [(rule.source.name, source)]) guard).holds

/-- The accepting rules at the least distance. Candidates farther off are not tried. -/
def winners (self : Evaluator) (setting : Setting) (source : Value) :
    Option Nat → List (Nat × MatchedRule) → Run Engine (List MatchedRule)
  | _, [] => return []
  | best, (distance, rule) :: rest => do
    if best.any (· < distance) then return []
    else if ← guardHolds self setting rule source then
      return rule :: (← winners self setting source (some distance) rest)
    else winners self setting source best rest

def ambiguousMatch (source : String) (rules : List MatchedRule) : Fault :=
  let error := Diagnostic.of (.ambiguousMatch source (rules.map (·.name)))
  .diagnosed <| rules.foldl (fun error rule => error.addNote
    { message := "rule '" ++ rule.name ++ "' matches " ++ rule.source.type
      span := some (.ofLocation rule.loc) }) error

/-- The rule for a source object, if one accepts it. -/
def selectRule (self : Evaluator) (setting : Setting) (m : Module) (source : Value)
    (model : String) : Run Engine (Option MatchedRule) := do
  let found ← ancestry setting source
  match ← winners self setting source none (candidates m found model) with
  | [] => return none
  | [rule] => return some rule
  | rules =>
    let text ← Run.ofResult ((← Run.state).store.cite source)
    Run.fail (ambiguousMatch text rules)

def Schedule.add (s : Schedule) (rule : Option MatchedRule) (source : Value) (model : String) :
    Schedule where
  examined := s.examined + 1
  applications := match rule with
    | some rule => s.applications ++ [⟨rule, source, model, s.applications.length⟩]
    | none => s.applications

def matchObjects (self : Evaluator) (setting : Setting) (m : Module) (model : String)
    (schedule : Schedule) : List Handle → Run Engine Schedule
  | [] => return schedule
  | h :: rest => do
    let rule ← selectRule self setting m (.object h) model
    matchObjects self setting m model (Schedule.add schedule rule (.object h) model) rest

/-- The schedule over the given source models, in the order of the declaration, objects as their
model lists them. A declared model has to be given. -/
def matchModels (self : Evaluator) (setting : Setting) (m : Module) (providers : Named Provider)
    (schedule : Schedule) : List String → Run Engine Schedule
  | [] => return schedule
  | name :: rest => do
    match providers.get? name with
    | none => Run.fail (.host ⟨"KeyError", Text.quoted name⟩)
    | some provider =>
      let objects ← collaborate ("objects of " ++ name) (provider.objects (← Run.state).store)
      let schedule ← matchObjects self setting m name schedule objects
      matchModels self setting m providers schedule rest

def buildSchedule (self : Evaluator) (setting : Setting) (m : Module) (providers : Named Provider) :
    Run Engine Schedule :=
  matchModels self setting m providers {} m.sources.names

end Metamorph.Engine
