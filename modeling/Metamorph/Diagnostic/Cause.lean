import Metamorph.Diagnostic.Code
import Metamorph.Named
import Metamorph.Text.Quoted

/-! What can go wrong while a transformation is built or run, and how each case is worded. Values
and objects come here as the text they are shown by. -/
namespace Metamorph
open Text

/-- A failure of something outside the engine: its kind and what it says. -/
structure HostFailure where
  kind : String
  text : String

inductive Cause where
  | unclassified (message : String)
  | illFormed (message : String)
  | duplicateDefinition (name kind : String)
  | failedRun (message : String)
  | unresolvedVariable (name : String) (suggestions : List String)
  | unresolvedHelper (name : String) (receiver : Option String)
  | typeMismatch (expected actual context : String)
  | unsupported (operation reason : String)
  | divisionByZero (operator : String)
  | arity (name : String) (expected actual : Int)
  | noUniqueElement (count : Int)
  | collaborator (target : String) (failure : HostFailure)
  | unknownFeature (type feature : String)
  | duplicateTrace (rule source : String)
  | ambiguousTrace (output : String) (rules : List String)
  | missingReference (output source : String) (rule : Option String)
  | ambiguousMatch (source : String) (rules : List String)
  | modelAlias (direction : String) (missing unexpected : List String)
  | illegalTransition (current requested : String)
  | broken (message : String)

namespace Cause

/-- A part of a message that is left out when there is nothing to say. -/
def orSilent (silent : Bool) (part : String) : String := if silent then "" else part

def quotedNames (names : List String) : String := ", ".intercalate (names.map quoted)

def message : Cause → String
  | unclassified message => message
  | illFormed message => message
  | duplicateDefinition name kind => "Duplicate " ++ kind ++ " '" ++ name ++ "'"
  | failedRun message => message
  | unresolvedVariable name _ => "Unresolved variable '" ++ name ++ "'"
  | unresolvedHelper name receiver =>
    "Unresolved helper or operation '" ++ name ++ "'" ++
      match receiver with
      | some type => " on '" ++ type ++ "'"
      | none => ""
  | typeMismatch expected actual context =>
    "Type mismatch" ++ orSilent context.isEmpty (" in " ++ context) ++
      ": expected '" ++ expected ++ "', got '" ++ actual ++ "'"
  | unsupported operation reason =>
    "Unsupported operation '" ++ operation ++ "'" ++ orSilent reason.isEmpty (": " ++ reason)
  | divisionByZero operator => "Division by zero in '" ++ operator ++ "'"
  | arity name expected actual =>
    "'" ++ name ++ "' expects " ++ toString expected ++ " argument(s), got " ++ toString actual
  | noUniqueElement count =>
    "'any' requires exactly one satisfying element, found " ++
      (if count = 0 then "no element" else toString count ++ " elements")
  | collaborator target failure =>
    "Collaborator failed on '" ++ target ++ "': " ++ failure.kind ++ ": " ++ failure.text
  | unknownFeature type feature => "Type '" ++ type ++ "' has no feature '" ++ feature ++ "'"
  | duplicateTrace rule source => "Rule '" ++ rule ++ "' already applied to " ++ source
  | ambiguousTrace output rules =>
    "Ambiguous resolution of '" ++ output ++ "': produced by rules " ++ quotedNames rules
  | missingReference output source rule =>
    let rulePart := match rule with
      | some name => orSilent name.isEmpty (" by rule '" ++ name ++ "'")
      | none => ""
    "No target '" ++ output ++ "' was created" ++ rulePart ++ " for " ++ source
  | ambiguousMatch source rules =>
    "Ambiguous match for " ++ source ++ ": rules " ++ quotedNames rules ++ " are equally specific"
  | modelAlias direction missing unexpected =>
    let part := fun title names =>
      if List.isEmpty names then [] else [title ++ ", ".intercalate (sortedNames names)]
    "Invalid " ++ direction ++ " models: " ++
      "; ".intercalate (part "missing " missing ++ part "undeclared " unexpected)
  | illegalTransition current requested =>
    "Illegal pipeline transition " ++ current ++ " -> " ++ requested
  | broken message => "Internal error: " ++ message

def code : Cause → Code
  | unclassified _ => .internalError
  | illFormed _ => .invalidRule
  | duplicateDefinition _ _ => .duplicateDefinition
  | failedRun _ => .unsupportedOperation
  | unresolvedVariable _ _ => .unresolvedVariable
  | unresolvedHelper _ _ => .unresolvedHelper
  | typeMismatch _ _ _ => .typeMismatch
  | unsupported _ _ => .unsupportedOperation
  | divisionByZero _ => .divisionByZero
  | arity _ _ _ => .arityMismatch
  | noUniqueElement _ => .noUniqueElement
  | collaborator _ _ => .navigationFailure
  | unknownFeature _ _ => .unknownFeature
  | duplicateTrace _ _ => .duplicateTrace
  | ambiguousTrace _ _ => .ambiguousTrace
  | missingReference _ _ _ => .missingReference
  | ambiguousMatch _ _ => .ambiguousMatch
  | modelAlias _ _ _ => .modelAlias
  | illegalTransition _ _ => .illegalState
  | broken _ => .internalError

def hint : Cause → String
  | unresolvedVariable _ [name] => "Did you mean '" ++ name ++ "'?"
  | ambiguousTrace _ _ => "Pass the rule name to disambiguate"
  | _ => ""

def remark : Cause → Option String
  | unresolvedVariable _ (first :: second :: rest) =>
    some ("Variables in scope: " ++ ", ".intercalate ((first :: second :: rest).take 5))
  | _ => none

end Cause

end Metamorph
