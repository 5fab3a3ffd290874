import Metamorph.Expr
import Metamorph.Fault
import Metamorph.Named

/-! The parts of a transformation: matched rules, applied to every source object that fits, lazy
rules, applied on demand and once for each argument, called rules, run at every call, and helpers.
-/
namespace Metamorph

structure Parameter where
  name : String
  type : Option String := none

/-- `feature <- value` -/
structure Binding where
  feature : String
  value : Expr

structure InPattern where
  name : String
  type : String
  guard : Option Expr := none

/-- A target object to be made: its variable, its type and the bindings of its features. -/
structure OutPattern where
  name : String
  type : String
  bindings : List Binding := []
  loc : Location := {}

inductive Statement where
  | assign (target feature : String) (value : Expr)
  | evaluate (value : Expr)

/-- The first entry whose key was met before. -/
def firstRepeat? {α β : Type} [DecidableEq β] (key : α → β) : List β → List α → Option α
  | _, [] => none
  | seen, x :: xs => if key x ∈ seen then some x else firstRepeat? key (key x :: seen) xs

theorem firstRepeat?_eq_none {α β : Type} [DecidableEq β] (key : α → β) (seen : List β)
    (xs : List α) (none : firstRepeat? key seen xs = none) :
    (xs.map key).Nodup ∧ ∀ x ∈ xs, key x ∉ seen := by
  induction xs generalizing seen with
  | nil => simp
  | cons x xs ih =>
    simp only [firstRepeat?] at none
    split at none
    · contradiction
    · rename_i fresh
      obtain ⟨distinct, apart⟩ := ih _ none
      simp only [List.map_cons, List.nodup_cons, List.mem_map, not_exists, not_and]
      refine ⟨⟨fun y member equal => apart y member (by simp [equal]), distinct⟩, ?_⟩
      intro y member
      rcases List.mem_cons.1 member with rfl | member
      · exact fresh
      · exact fun old => apart y member (List.mem_cons_of_mem _ old)

/-- Whether the output variables of a rule are distinct. -/
def distinctOutputs (rule : String) (outputs : List OutPattern) :
    Result (PLift (outputs.map (·.name)).Nodup) :=
  match repeated : firstRepeat? (·.name) [] outputs with
  | some out =>
    .error (.diagnosed (.of (.duplicateDefinition (rule ++ "." ++ out.name)
      "output pattern variable") (.ofLocation out.loc)))
  | none => .ok ⟨(firstRepeat?_eq_none _ _ _ repeated).1⟩

structure MatchedRule where
  name : String
  source : InPattern
  outputs : List OutPattern
  loc : Location
  productive : outputs ≠ []
  distinct : (outputs.map (·.name)).Nodup
  apart : source.name ∉ outputs.map (·.name)

structure LazyRule where
  name : String
  parameter : Parameter
  outputs : List OutPattern
  loc : Location
  productive : outputs ≠ []
  distinct : (outputs.map (·.name)).Nodup

structure CalledRule where
  name : String
  parameters : List Parameter
  outputs : List OutPattern
  body : List Statement
  loc : Location
  distinct : (outputs.map (·.name)).Nodup

/-- A helper without parameters is an attribute: it is read as well as called. -/
structure Helper where
  name : String
  body : Expr
  parameters : List Parameter := []
  context : Option String := none
  returns : Option String := none
  loc : Location := {}

def Helper.isAttribute (h : Helper) : Bool := h.parameters.isEmpty

def Helper.isContextual (h : Helper) : Bool := h.context.isSome

def illFormed (message : String) (loc : Location) : Fault :=
  .diagnosed (.of (.illFormed message) (.ofLocation loc))

namespace MatchedRule

def build (name : String) (source : InPattern) (outputs : List OutPattern) (loc : Location) :
    Result MatchedRule :=
  if productive : outputs = [] then
    .error (illFormed ("Matched rule '" ++ name ++ "' declares no output pattern") loc)
  else do
    let ⟨distinct⟩ ← distinctOutputs name outputs
    if apart : source.name ∈ outputs.map (·.name) then
      .error (.diagnosed (.of (.duplicateDefinition (name ++ "." ++ source.name)
        "pattern variable") (.ofLocation loc)))
    else .ok { name, source, outputs, loc, productive, distinct, apart }

end MatchedRule

namespace LazyRule

def build (name : String) (parameters : List Parameter) (outputs : List OutPattern)
    (loc : Location) : Result LazyRule :=
  match parameters with
  | [parameter] =>
    if productive : outputs = [] then
      .error (illFormed ("Lazy rule '" ++ name ++ "' declares no output pattern") loc)
    else do
      let ⟨distinct⟩ ← distinctOutputs name outputs
      .ok { name, parameter, outputs, loc, productive, distinct }
  | parameters =>
    .error (illFormed ("Lazy rule '" ++ name ++ "' must declare exactly one parameter, got " ++
      toString parameters.length) loc)

/-- The output whose object a call answers with. -/
def mainOutput (r : LazyRule) : OutPattern := r.outputs.head r.productive

end LazyRule

def CalledRule.build (name : String) (parameters : List Parameter) (outputs : List OutPattern)
    (body : List Statement) (loc : Location) : Result CalledRule := do
  let ⟨distinct⟩ ← distinctOutputs name outputs
  .ok { name, parameters, outputs, body, loc, distinct }

inductive Rule where
  | matched (r : MatchedRule)
  | lazy (r : LazyRule)
  | called (r : CalledRule)

def Rule.name : Rule → String
  | matched r => r.name
  | lazy r => r.name
  | called r => r.name

def Rule.loc : Rule → Location
  | matched r => r.loc
  | lazy r => r.loc
  | called r => r.loc

end Metamorph
