/-! Operators between and before operands, with their spellings. -/
namespace Metamorph

inductive BinaryOperator where
  | add | sub | mul | div | intDiv | mod
  | eq | ne | lt | le | gt | ge
  | and | or | xor | implies
  | includes | excludes | union | intersection
  deriving DecidableEq, Repr

namespace BinaryOperator

def all : List BinaryOperator :=
  [add, sub, mul, div, intDiv, mod, eq, ne, lt, le, gt, ge, and, or, xor, implies,
    includes, excludes, union, intersection]

def text : BinaryOperator → String
  | add => "+"
  | sub => "-"
  | mul => "*"
  | div => "/"
  | intDiv => "div"
  | mod => "mod"
  | eq => "="
  | ne => "<>"
  | lt => "<"
  | le => "<="
  | gt => ">"
  | ge => ">="
  | and => "and"
  | or => "or"
  | xor => "xor"
  | implies => "implies"
  | includes => "includes"
  | excludes => "excludes"
  | union => "union"
  | intersection => "intersection"

def named? (spelling : String) : Option BinaryOperator := all.find? (·.text == spelling)

def isComparison : BinaryOperator → Bool
  | lt | le | gt | ge => true
  | _ => false

def isLogical : BinaryOperator → Bool
  | and | or | xor | implies => true
  | _ => false

end BinaryOperator

inductive UnaryOperator where
  | not
  | neg
  deriving DecidableEq

def UnaryOperator.text : UnaryOperator → String
  | .not => "not"
  | .neg => "-"

def UnaryOperator.named? (spelling : String) : Option UnaryOperator :=
  [UnaryOperator.not, .neg].find? (·.text == spelling)

end Metamorph
