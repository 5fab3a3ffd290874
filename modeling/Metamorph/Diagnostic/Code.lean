import Metamorph.Number.Decimal
import Metamorph.Text.Quoted

/-! Severities and codes of errors. A code is a family and a number; what it is about, where it
arises and how severe it is goes with it. -/
namespace Metamorph

inductive Severity where
  | info
  | warning
  | error
  | fatal
  deriving DecidableEq

def Severity.all : List Severity := [.fatal, .error, .warning, .info]

def Severity.text : Severity → String
  | .info => "info"
  | .warning => "warning"
  | .error => "error"
  | .fatal => "fatal"

def Severity.rank : Severity → Nat
  | .info => 0
  | .warning => 1
  | .error => 2
  | .fatal => 3

def Severity.lt (a b : Severity) : Bool := a.rank < b.rank

/-- Errors abort what was asked for; warnings and notes do not. -/
def Severity.isError : Severity → Bool
  | .fatal | .error => true
  | .warning | .info => false

/-- The lesser severity first. -/
def Severity.sorted (severities : List Severity) : List Severity :=
  severities.mergeSort fun a b => !b.lt a

/-- The part of the engine in which an error arises. -/
inductive Stage where
  | program
  | matching
  | evaluation
  | trace
  | pipeline
  | engine
  deriving DecidableEq

def Stage.text : Stage → String
  | .program => "program"
  | .matching => "matching"
  | .evaluation => "evaluation"
  | .trace => "trace"
  | .pipeline => "pipeline"
  | .engine => "internal"

inductive Category where
  | duplicateDefinition
  | invalidRule
  | unresolvedVariable
  | unresolvedHelper
  | typeMismatch
  | unsupportedOperation
  | divisionByZero
  | arityMismatch
  | noUniqueElement
  | navigationFailure
  | unknownFeature
  | duplicateTrace
  | ambiguousTrace
  | missingReference
  | ambiguousMatch
  | modelAlias
  | illegalState
  | internalError
  deriving DecidableEq

def Category.text : Category → String
  | .duplicateDefinition => "DUPLICATE_DEFINITION"
  | .invalidRule => "INVALID_RULE"
  | .unresolvedVariable => "UNRESOLVED_VARIABLE"
  | .unresolvedHelper => "UNRESOLVED_HELPER"
  | .typeMismatch => "TYPE_MISMATCH"
  | .unsupportedOperation => "UNSUPPORTED_OPERATION"
  | .divisionByZero => "DIVISION_BY_ZERO"
  | .arityMismatch => "ARITY_MISMATCH"
  | .noUniqueElement => "NO_UNIQUE_ELEMENT"
  | .navigationFailure => "NAVIGATION_FAILURE"
  | .unknownFeature => "UNKNOWN_FEATURE"
  | .duplicateTrace => "DUPLICATE_TRACE"
  | .ambiguousTrace => "AMBIGUOUS_TRACE"
  | .missingReference => "MISSING_REFERENCE"
  | .ambiguousMatch => "AMBIGUOUS_MATCH"
  | .modelAlias => "MODEL_ALIAS"
  | .illegalState => "ILLEGAL_STATE"
  | .internalError => "INTERNAL_ERROR"

structure Code where
  family : String
  number : Int
  category : Category
  stage : Stage
  severity : Severity := .error

namespace Code

/-- The family, a dash and the number in at least four characters, its sign included. -/
def text (code : Code) : String :=
  let digits :=
    if code.number < 0 then '-' :: Number.padded 3 code.number.natAbs
    else Number.padded 4 code.number.natAbs
  code.family ++ "-" ++ String.ofList digits

/-- The code with its category, as it is cited. -/
def cited (code : Code) : String :=
  "ErrorCode(" ++ Text.quoted code.text ++ ", " ++ code.category.text ++ ")"

/-- Codes are told apart by family and number alone. -/
def same (a b : Code) : Bool := a.family == b.family && a.number == b.number

def engine (number : Int) (category : Category) (stage : Stage) : Code :=
  { family := "ATL", number, category, stage }

def duplicateDefinition := engine 3001 .duplicateDefinition .program
def invalidRule := engine 3002 .invalidRule .program
def unresolvedVariable := engine 5001 .unresolvedVariable .evaluation
def unresolvedHelper := engine 5002 .unresolvedHelper .evaluation
def typeMismatch := engine 5003 .typeMismatch .evaluation
def unsupportedOperation := engine 5004 .unsupportedOperation .evaluation
def divisionByZero := engine 5005 .divisionByZero .evaluation
def arityMismatch := engine 5006 .arityMismatch .evaluation
def noUniqueElement := engine 5007 .noUniqueElement .evaluation
def navigationFailure := engine 5008 .navigationFailure .evaluation
def unknownFeature := engine 5009 .unknownFeature .evaluation
def duplicateTrace := engine 5101 .duplicateTrace .trace
def ambiguousTrace := engine 5102 .ambiguousTrace .trace
def missingReference := engine 5103 .missingReference .trace
def ambiguousMatch := engine 5201 .ambiguousMatch .matching
def modelAlias := engine 5202 .modelAlias .pipeline
def illegalState := engine 5203 .illegalState .pipeline
def internalError : Code := { engine 9001 .internalError .engine with severity := .fatal }

/-- The codes in use, each under the name of its category. -/
def all : List Code :=
  [duplicateDefinition, invalidRule, unresolvedVariable, unresolvedHelper, typeMismatch,
    unsupportedOperation, divisionByZero, arityMismatch, noUniqueElement, navigationFailure,
    unknownFeature, duplicateTrace, ambiguousTrace, missingReference, ambiguousMatch, modelAlias,
    illegalState, internalError]

def named? (name : String) : Option Code := all.find? (·.category.text == name)

end Code

end Metamorph
