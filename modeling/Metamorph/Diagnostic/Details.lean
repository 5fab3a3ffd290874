import Metamorph.Fault
import Metamorph.Value

/-! Causes as tables of named values: the table a cause is made from, and what a cause tells of
itself to whoever asks for one of its details by name. -/
namespace Metamorph

/-- Failures of the system that have a kind of their own, by error number. -/
def numberedFailures : List (Int × String) :=
  [(1, "PermissionError"), (2, "FileNotFoundError"), (3, "ProcessLookupError"),
    (4, "InterruptedError"), (10, "ChildProcessError"), (11, "BlockingIOError"),
    (13, "PermissionError"), (17, "FileExistsError"), (20, "NotADirectoryError"),
    (21, "IsADirectoryError"), (32, "BrokenPipeError"), (103, "ConnectionAbortedError"),
    (104, "ConnectionResetError"), (108, "BrokenPipeError"), (110, "TimeoutError"),
    (111, "ConnectionRefusedError"), (114, "BlockingIOError"), (115, "BlockingIOError")]

/-- The general kind of a failure of the system, under which it also goes by older names. -/
def systemFailure : String := "OSError"

def olderNames : List String := ["IOError", "EnvironmentError"]

def isSystemFailure (kind : String) : Bool :=
  kind = systemFailure || kind = "ConnectionError" || numberedFailures.any (·.2 == kind)

namespace HostFailure
variable (cite : Value → Result String)

/-- A text as it is, any other value as it is cited. -/
def spoken : Value → Result String
  | .string s => .ok s
  | v => cite v

/-- An error number with its meaning, and the one or two files it is about. -/
def systemText (number message : Value) (files : List Value) : Result String := do
  let start := "[Errno " ++ (← spoken cite number) ++ "] " ++ (← spoken cite message)
  match files with
  | [] | .undefined :: _ => return start
  | [file, _, .undefined] | [file] | [file, _] => return start ++ ": " ++ (← cite file)
  | file :: _ :: other :: _ => return start ++ ": " ++ (← cite file) ++ " -> " ++ (← cite other)

/-- Failures of this kind tell how much was written before, if their third argument is a number. -/
def blocked : String := "BlockingIOError"

/-- The files that a failure of the system is about. A count in their place has to be an Integer of
64 bits. -/
def filesOf (kind : String) (files : List Value) : Result (List Value) :=
  if kind = blocked then
    match files with
    | .boolean _ :: _ => .ok []
    | .integer n :: _ =>
      if -Int.pow 2 63 ≤ n && n < Int.pow 2 63 then .ok []
      else .error (.host ⟨"ValueError", "the count is too large"⟩)
    | .real _ :: _ => .error (.host ⟨"TypeError", "the count is no Integer"⟩)
    | files => .ok files
  else .ok files

/-- What a failure says: nothing without arguments, a single argument as it is, though a missing key
is cited, and several in parentheses, unless they tell of a failure of the system. -/
def textOf (kind : String) (args : List Value) : Result String := do
  match args with
  | [] => return ""
  | [v] => if kind = "KeyError" then cite v else spoken cite v
  | number :: message :: files =>
    if isSystemFailure kind && files.length ≤ 3 then
      systemText cite number message (← filesOf kind files)
    else return "(" ++ ", ".intercalate (← args.mapM cite) ++ ")"

/-- An error number; `true` and `false` count as `1` and `0`. -/
def errorNumber? : Value → Option Int
  | .integer n => some n
  | .boolean b => some (if b then 1 else 0)
  | _ => none

/-- The kind of a failure with the given arguments. -/
def kindOf (kind : String) (args : List Value) : String :=
  let kind := if olderNames.contains kind then systemFailure else kind
  match args with
  | number :: _ :: rest =>
    if kind = systemFailure && rest.length ≤ 3 then
      ((errorNumber? number).bind (numberedFailures.lookup ·)).getD kind
    else kind
  | _ => kind

def ofArguments (kind : String) (args : List Value) : Result HostFailure := do
  let kind := kindOf kind args
  return { kind, text := ← textOf cite kind args }

end HostFailure

namespace Details

def textOr (fallback : String) (table : Named Value) (name : String) : String :=
  match table.get? name with
  | some (.string s) => s
  | _ => fallback

def text (table : Named Value) (name : String) : String := textOr "" table name

def text? (table : Named Value) (name : String) : Option String :=
  match table.get? name with
  | some (.string s) => some s
  | _ => none

def number (table : Named Value) (name : String) : Int :=
  match table.get? name with
  | some (.integer n) => n
  | _ => 0

def items (table : Named Value) (name : String) : List Value :=
  match table.get? name with
  | some (.list _ items) => items
  | _ => []

def texts (table : Named Value) (name : String) : List String :=
  (items table name).filterMap fun v => match v with
    | .string s => some s
    | _ => none

end Details

namespace Cause
open Details

/-- The failure a table tells of: its kind and the arguments it was raised with. -/
def failureOf? (cite : Value → Result String) (table : Named Value) :
    Result (Option HostFailure) :=
  match items table "cause" with
  | .string kind :: args => (HostFailure.ofArguments cite kind args).map some
  | _ => .ok none

/-- Details that a diagnostic of every kind may have. -/
def sharedDetails : List String := ["span", "severity", "cause", "notes", "hint"]

/-- The kinds, each with the details it cannot do without and with those it may have besides. -/
def expectedDetails : Named (List String × List String) :=
  [("AtlError", ["message"], ["code"]), ("ProgramError", ["message"], ["code"]),
    ("DuplicateDefinitionError", ["name"], ["kind"]), ("ExecutionError", ["message"], ["code"]),
    ("UnresolvedVariableError", ["name"], ["suggestions"]),
    ("UnresolvedHelperError", ["name"], ["receiver_type"]),
    ("TypeMismatchError", ["expected", "actual"], ["context"]),
    ("UnsupportedOperationError", ["operation"], ["reason"]),
    ("DivisionByZeroError", [], ["operator"]),
    ("ArityMismatchError", ["name", "expected", "actual"], []),
    ("NoUniqueElementError", ["count"], []), ("NavigationError", ["target", "cause"], []),
    ("UnknownFeatureError", ["type_name", "feature"], []),
    ("DuplicateTraceError", ["rule_name", "source"], []),
    ("AmbiguousTraceError", ["variable", "rule_names"], []),
    ("MissingReferenceError", ["variable", "source"], ["rule_name"]),
    ("AmbiguousMatchError", ["source", "rule_names"], []),
    ("ModelAliasError", ["direction"], ["missing", "unexpected"]),
    ("PipelineStateError", ["current", "requested"], []), ("InternalError", ["message"], [])]

/-- Nothing that a kind cannot do without is missing from a table, and nothing else is in it. -/
def fits (expected : List String × List String) (table : Named Value) : Bool :=
  let (needed, optional) := expected
  needed.all (table.has ·) &&
    table.all fun entry => (needed ++ optional ++ sharedDetails).contains entry.1

/-- The cause of a kind with the details of a table. Values are cited as messages show them. -/
def ofDetails? (cite : Value → Result String) (kind : String) (t : Named Value) :
    Result (Option Cause) := do
  if (expectedDetails.get? kind).any (!fits · t) then
    throw (.host ⟨"TypeError", "the details of " ++ kind ++ " do not fit its kind"⟩)
  let source ← cite ((t.get? "source").getD .undefined)
  let failure := (← failureOf? cite t).getD ⟨"", ""⟩
  return match kind with
    | "AtlError" => some (unclassified (text t "message"))
    | "ProgramError" => some (illFormed (text t "message"))
    | "DuplicateDefinitionError" =>
      some (duplicateDefinition (text t "name") (textOr "rule" t "kind"))
    | "ExecutionError" => some (failedRun (text t "message"))
    | "UnresolvedVariableError" => some (unresolvedVariable (text t "name") (texts t "suggestions"))
    | "UnresolvedHelperError" =>
      some (unresolvedHelper (text t "name") ((text? t "receiver_type").filter (!·.isEmpty)))
    | "TypeMismatchError" =>
      some (typeMismatch (text t "expected") (text t "actual") (text t "context"))
    | "UnsupportedOperationError" => some (unsupported (text t "operation") (text t "reason"))
    | "DivisionByZeroError" => some (divisionByZero (textOr "/" t "operator"))
    | "ArityMismatchError" => some (arity (text t "name") (number t "expected") (number t "actual"))
    | "NoUniqueElementError" => some (noUniqueElement (number t "count"))
    | "NavigationError" => some (collaborator (text t "target") failure)
    | "UnknownFeatureError" => some (unknownFeature (text t "type_name") (text t "feature"))
    | "DuplicateTraceError" => some (duplicateTrace (text t "rule_name") source)
    | "AmbiguousTraceError" => some (ambiguousTrace (text t "variable") (texts t "rule_names"))
    | "MissingReferenceError" =>
      some (missingReference (text t "variable") source (text? t "rule_name"))
    | "AmbiguousMatchError" => some (ambiguousMatch source (texts t "rule_names"))
    | "ModelAliasError" =>
      some (modelAlias (text t "direction") (texts t "missing") (texts t "unexpected"))
    | "PipelineStateError" => some (illegalTransition (text t "current") (text t "requested"))
    | "InternalError" => some (broken (text t "message"))
    | _ => none

def textList (texts : List String) : Value := .listed (texts.map .string)

def details : Cause → Named Value
  | duplicateDefinition name _ | unresolvedVariable name _ => [("name", .string name)]
  | unresolvedHelper name receiver =>
    [("name", .string name), ("receiver_type", .string (receiver.getD ""))]
  | typeMismatch expected actual _ =>
    [("expected_type", .string expected), ("actual_type", .string actual)]
  | unsupported operation _ => [("operation", .string operation)]
  | divisionByZero operator => [("operator", .string operator)]
  | arity _ expected actual =>
    [("expected_arity", .integer expected), ("actual_arity", .integer actual)]
  | noUniqueElement count => [("count", .integer count)]
  | collaborator target _ => [("target", .string target)]
  | unknownFeature type feature => [("type_name", .string type), ("feature", .string feature)]
  | duplicateTrace rule _ => [("rule_name", .string rule)]
  | ambiguousTrace output rules => [("variable", .string output), ("rule_names", textList rules)]
  | missingReference output _ rule =>
    [("variable", .string output),
      ("rule_name", match rule with
        | some name => .string name
        | none => .undefined)]
  | ambiguousMatch _ rules => [("rule_names", textList rules)]
  | modelAlias _ missing unexpected =>
    [("missing", textList missing), ("unexpected", textList unexpected)]
  | illegalTransition current requested =>
    [("current", .string current), ("requested", .string requested)]
  | unclassified _ | illFormed _ | failedRun _ | broken _ => []

end Cause

end Metamorph
