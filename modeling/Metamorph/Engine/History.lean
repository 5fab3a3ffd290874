import Metamorph.Program.Rule
import Metamorph.Trace

/-! What a run has done, as a forest: every activity with those it led to, in the order in which
they ended. The engine writes it down and never reads it. -/
namespace Metamorph

/-- An expression is evaluated for a feature of an object by a binding, for the first time or again,
or by a statement. -/
inductive Occasion where
  | first
  | again
  | statement
  deriving DecidableEq

/-- An expression, the variables it sees, and the feature of an object that gets its value. -/
structure Assignment where
  target : Value
  feature : String
  value : Expr
  scope : Named Value

/-- `stored` is what was handed to the model and `result` what a call answered; neither is there
when the activity failed. An application is that of the patterns of a rule, made into `outputs`, and
of the body of a called rule. -/
inductive Event where
  | assignment (occasion : Occasion) (work : Assignment) (stored : Option Value)
      (inner : List Event)
  | application (rule : String) (patterns : List OutPattern) (body : List Statement)
      (outputs : Outputs) (inner : List Event)
  | lazy (rule : String) (argument : Value) (complete : Bool) (result : Option Value)
      (inner : List Event)
  | called (rule : String) (arguments : List Value) (result : Option Value) (inner : List Event)
  | replayed (rule : String) (arguments : List Value) (result : Value)
  /-- The feature was to be assigned, but no target model owns the value it is a feature of. -/
  | unowned (target : Value) (feature : String)

mutual

/-- Whether a lazy application that was not complete was met on behalf of whoever caused the event.
What a lazy application and the bindings of a called rule meet is their own affair. -/
def Event.met : Event → Bool
  | .assignment .statement _ _ inner => metAmong inner
  | .assignment _ _ _ _ => false
  | .application _ _ _ _ inner => metAmong inner
  | .lazy _ _ complete _ _ => !complete
  | .called _ _ _ inner => metAmong inner
  | .replayed _ _ _ => false
  | .unowned _ _ => false

def metAmong : List Event → Bool
  | [] => false
  | event :: rest => event.met || metAmong rest

end

/-- An assignment that was worked on, and whether its expression met a lazy application that was not
complete. -/
structure Evaluation where
  occasion : Occasion
  work : Assignment
  stored : Option Value
  met : Bool

def Event.evaluation? : Event → Option Evaluation
  | .assignment occasion work stored inner => some ⟨occasion, work, stored, metAmong inner⟩
  | _ => none

mutual

/-- The event after all that happened within it. -/
def Event.activities : Event → List Event
  | event@(.assignment _ _ _ inner) => activitiesAmong inner ++ [event]
  | event@(.application _ _ _ _ inner) => activitiesAmong inner ++ [event]
  | event@(.lazy _ _ _ _ inner) => activitiesAmong inner ++ [event]
  | event@(.called _ _ _ inner) => activitiesAmong inner ++ [event]
  | event@(.replayed _ _ _) => [event]
  | event@(.unowned _ _) => [event]

def activitiesAmong : List Event → List Event
  | [] => []
  | event :: rest => event.activities ++ activitiesAmong rest

end

/-- Every evaluation among the events and within them, in the order in which they ended. -/
def evaluations (events : List Event) : List Evaluation :=
  (activitiesAmong events).filterMap Event.evaluation?

/-- An attribute of the module was read. If its body was evaluated for that, `meanwhile` names what
attributes were read while it was. -/
structure Reading where
  name : String
  value : Value
  meanwhile : Option (List String) := none

end Metamorph
