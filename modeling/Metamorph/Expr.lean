import Metamorph.Collection.Kind
import Metamorph.Expr.Operator
import Metamorph.Source

/-! Expressions of the query language: guards, bindings and the bodies of helpers. Every node
carries its location. -/
namespace Metamorph

/-- A constant of the language; `undefined` stands for the absence of a value. -/
inductive Literal where
  | undefined
  | boolean (b : Bool)
  | integer (n : Int)
  | real (x : Float)
  | string (s : String)

/-- One part of a tuple expression. -/
structure TupleField (ε : Type) where
  name : String
  value : ε
  typeTag : Option String := none

/-- A type tag is for the reader only and never checked. `foreign` is a node of a kind that the
language does not have. -/
inductive Expr where
  | literal (value : Literal) (loc : Location)
  | variable (name : String) (loc : Location)
  | navigation (source : Expr) (feature : String) (loc : Location)
  | binary (op : BinaryOperator) (lhs rhs : Expr) (loc : Location)
  | unary (op : UnaryOperator) (operand : Expr) (loc : Location)
  | conditional (condition thenBranch elseBranch : Expr) (loc : Location)
  | letIn (name : String) (init body : Expr) (typeTag : Option String) (loc : Location)
  | lambda (parameter : String) (body : Expr) (loc : Location)
  | iterate (source : Expr) (parameter accumulator : String) (init body : Expr)
      (typeTag : Option String) (loc : Location)
  | collection (kind : CollectionKind) (elements : List Expr) (loc : Location)
  | arrow (source : Expr) (op : CollectionOperation) (iterator : Option String)
      (body : Option Expr) (loc : Location)
  | method (receiver : Expr) (name : String) (args : List Expr) (loc : Location)
  | call (name : String) (args : List Expr) (loc : Location)
  | tuple (fields : List (TupleField Expr)) (loc : Location)
  | typeName (name : String) (loc : Location)
  | foreign (kind : String) (loc : Location)

def Expr.loc : Expr → Location
  | .literal _ loc | .variable _ loc | .navigation _ _ loc | .binary _ _ _ loc | .unary _ _ loc
  | .conditional _ _ _ loc | .letIn _ _ _ _ loc | .lambda _ _ loc | .iterate _ _ _ _ _ _ loc
  | .collection _ _ loc | .arrow _ _ _ _ loc | .method _ _ _ loc | .call _ _ loc | .tuple _ loc
  | .typeName _ loc | .foreign _ loc => loc

def Expr.span (e : Expr) : Span := .ofLocation e.loc

end Metamorph
