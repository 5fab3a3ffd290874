import Metamorph.Diagnostic.Cause

/-! The kinds of errors by name. Kinds are grouped: an error of a kind is also one of the kinds it
refines, and every error of the engine is an `AtlError`. -/
namespace Metamorph.Cause

def kind : Cause → String
  | unclassified _ => "AtlError"
  | illFormed _ => "ProgramError"
  | duplicateDefinition _ _ => "DuplicateDefinitionError"
  | failedRun _ => "ExecutionError"
  | unresolvedVariable _ _ => "UnresolvedVariableError"
  | unresolvedHelper _ _ => "UnresolvedHelperError"
  | typeMismatch _ _ _ => "TypeMismatchError"
  | unsupported _ _ => "UnsupportedOperationError"
  | divisionByZero _ => "DivisionByZeroError"
  | arity _ _ _ => "ArityMismatchError"
  | noUniqueElement _ => "NoUniqueElementError"
  | collaborator _ _ => "NavigationError"
  | unknownFeature _ _ => "UnknownFeatureError"
  | duplicateTrace _ _ => "DuplicateTraceError"
  | ambiguousTrace _ _ => "AmbiguousTraceError"
  | missingReference _ _ _ => "MissingReferenceError"
  | ambiguousMatch _ _ => "AmbiguousMatchError"
  | modelAlias _ _ _ => "ModelAliasError"
  | illegalTransition _ _ => "PipelineStateError"
  | broken _ => "InternalError"

/-- The kind of a cause and those it refines, the most general last. -/
def kinds (c : Cause) : List String :=
  match c with
  | unclassified _ => [c.kind]
  | illFormed _ | failedRun _ | illegalTransition _ _ | broken _ => [c.kind, "AtlError"]
  | duplicateDefinition _ _ => [c.kind, "ProgramError", "AtlError"]
  | _ => [c.kind, "ExecutionError", "AtlError"]

end Metamorph.Cause
