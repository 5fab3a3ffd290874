import Metamorph.Expr
import Metamorph.Number.Decimal

/-! The text of an expression in the notation of the query language. -/
namespace Metamorph

/-- A text constant between single quotes, with a backslash before each quote inside. -/
def quotedLiteral (s : String) : String :=
  String.ofList ('\'' :: s.toList.flatMap (fun c => if c = '\'' then ['\\', '\''] else [c]) ++ ['\''])

def Literal.pretty : Literal → String
  | .undefined => "OclUndefined"
  | .boolean b => if b then "true" else "false"
  | .integer n => toString n
  | .real x => Number.realText x
  | .string s => quotedLiteral s

/-- The tag of a let or a tuple part, left out when it is empty. -/
def typeTagText : Option String → String
  | none => ""
  | some tag => if tag.isEmpty then "" else " : " ++ tag

/-- The text between braces. -/
def braced (name inner : String) : String := name ++ "\x7b" ++ inner ++ "\x7d"

mutual

def Expr.pretty : Expr → String
  | .literal value _ => value.pretty
  | .variable name _ => name
  | .navigation source feature _ => source.pretty ++ "." ++ feature
  | .binary op lhs rhs _ => "(" ++ lhs.pretty ++ " " ++ op.text ++ " " ++ rhs.pretty ++ ")"
  | .unary .not operand _ => "not " ++ operand.pretty
  | .unary .neg operand _ => "-" ++ operand.pretty
  | .conditional condition thenBranch elseBranch _ =>
    "if " ++ condition.pretty ++ " then " ++ thenBranch.pretty ++ " else " ++
      elseBranch.pretty ++ " endif"
  | .letIn name init body tag _ =>
    "let " ++ name ++ typeTagText tag ++ " = " ++ init.pretty ++ " in " ++ body.pretty
  | .lambda parameter body _ => parameter ++ " | " ++ body.pretty
  | .iterate source parameter accumulator init body _ _ =>
    source.pretty ++ "->iterate(" ++ parameter ++ "; " ++ accumulator ++ " = " ++ init.pretty ++
      " | " ++ body.pretty ++ ")"
  | .collection kind elements _ => braced kind.text (", ".intercalate (prettyAll elements))
  | .arrow source op iterator body _ =>
    source.pretty ++ "->" ++ op.text ++ "(" ++ prettyBody iterator body ++ ")"
  | .method receiver name args _ =>
    receiver.pretty ++ "." ++ name ++ "(" ++ ", ".intercalate (prettyAll args) ++ ")"
  | .call name args _ => name ++ "(" ++ ", ".intercalate (prettyAll args) ++ ")"
  | .tuple fields _ => braced "Tuple" (", ".intercalate (prettyFields fields))
  | .typeName name _ => name
  | .foreign kind _ => "<unknown-expr " ++ kind ++ ">"

def prettyAll : List Expr → List String
  | [] => []
  | e :: rest => e.pretty :: prettyAll rest

/-- An iterator without a name is not written. -/
def prettyBody (iterator : Option String) : Option Expr → String
  | none => ""
  | some body =>
    match iterator with
    | none => body.pretty
    | some name => if name.isEmpty then body.pretty else name ++ " | " ++ body.pretty

def prettyFields : List (TupleField Expr) → List String
  | [] => []
  | ⟨name, value, tag⟩ :: rest =>
    (name ++ typeTagText tag ++ " = " ++ value.pretty) :: prettyFields rest

end

end Metamorph
