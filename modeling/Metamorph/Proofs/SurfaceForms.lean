import Metamorph.Proofs.Pinpointing

/-! The ways to write an operation on a collection. An arrow, a call of a method and an operator between two
operands lead to the same operation, with the same parts evaluated in the same order. -/
namespace Metamorph

/-- What a fault says, wherever it was raised. -/
def Fault.message : Fault → String
  | diagnosed d => d.message
  | fault => fault.text

namespace Fault.Elsewhere
variable {fault other : Fault}

theorem kind_eq (elsewhere : fault.Elsewhere other) : other.kind = fault.kind := by
  obtain ⟨span, rfl⟩ := elsewhere
  cases fault <;> rfl

theorem message_eq (elsewhere : fault.Elsewhere other) : other.message = fault.message := by
  obtain ⟨span, rfl⟩ := elsewhere
  cases fault <;> rfl

end Fault.Elsewhere

/-- The runs end with one value, with faults of one kind that say the same, or cut off, and leave one state. -/
inductive Outcome.Agrees {σ α : Type} : Outcome σ α → Outcome σ α → Prop
  | value (a : α) (t : σ) : Agrees (.value a t) (.value a t)
  | failure {fault other : Fault} (t : σ) (kind : other.kind = fault.kind)
      (message : other.message = fault.message) : Agrees (.failure fault t) (.failure other t)
  | exhausted : Agrees .exhausted .exhausted

theorem CollectionOperation.named?_text (op : CollectionOperation) : named? op.text = some op := by
  cases op with
  | iterator op => cases op <;> rfl
  | query op =>
    cases op with
    | convert kind => cases kind <;> rfl
    | _ => rfl
  | combination op => cases op <;> rfl

/-- What stands between the parentheses of an operation on a collection. The variable of a body may be left
out. -/
inductive Operand where
  | body (parameter : Option String) (e : Expr) (loc : Location)
  | argument (e : Expr)
  | nothing

namespace Operand

/-- Iterators have a body and queries nothing; an argument may be missing. -/
def Fits : Operand → CollectionOperation → Prop
  | body _ _ _, .iterator _ => True
  | argument _, .combination _ => True
  | nothing, .combination _ | nothing, .query _ => True
  | _, _ => False

def parameter : Operand → Option String
  | body x _ _ => x
  | _ => none

def body? : Operand → Option Expr
  | body _ e _ | argument e => some e
  | nothing => none

/-- A body goes to a method as a lambda. -/
def args : Operand → List Expr
  | body x e loc => [.lambda (x.getD "") e loc]
  | argument e => [e]
  | nothing => []

end Operand

namespace Engine
open Run
variable {setting : Setting} {self : Evaluator} {env : Environment} {e e' : Expr} {s : Engine}
  {bound : Nat}

theorem iteratorName_getD (setting : Setting) (x : Option String) :
    iteratorName setting (some (x.getD "")) = iteratorName setting x := by
  cases x <;> rfl

/-- Both forms are refused, or evaluate the same. -/
theorem collectionMethod_eq {operand : Operand} {op : CollectionOperation} (fits : operand.Fits op)
    (kind : CollectionKind) (items : List Value) :
    collectionMethod self setting env op kind items operand.args =
      collectionOperation self setting env op kind items operand.parameter operand.body? := by
  cases op with
  | iterator op =>
    cases operand with
    | body x e loc =>
      simp only [collectionMethod, Operand.args, collectionOperation, Operand.parameter, Operand.body?,
        iteratorName_getD]
    | argument | nothing => exact fits.elim
  | query op =>
    cases operand with
    | body | argument => exact fits.elim
    | nothing => rfl
  | combination op =>
    cases operand with
    | body => exact fits.elim
    | argument | nothing => rfl

/-- The combination of the collection on the left that an operator stands for. -/
def combined? : BinaryOperator → Option Combination
  | .sub => some .difference
  | op => Operation.combination? op

theorem binary_of_combined {operator : BinaryOperator} {op : Combination}
    (stands : combined? operator = some op) (typeOf : Value → String) (kind : CollectionKind)
    (items : List Value) (r : Value) :
    Operation.binary typeOf operator (.collection kind items) r =
      Collection.combine typeOf op kind items r := by
  cases operator with
  | sub | includes | excludes | union | intersection =>
    cases stands
    rfl
  | _ => cases stands

theorem not_logical_of_combined {operator : BinaryOperator} {op : Combination}
    (stands : combined? operator = some op) : operator.isLogical = false := by
  cases operator with
  | sub | includes | excludes | union | intersection => rfl
  | _ => cases stands

/-- Expressions whose steps are the same agree, wherever each of them stands. -/
theorem agrees_of_step
    (same : step setting (evaluateWithin setting bound) env e s =
      step setting (evaluateWithin setting bound) env e' s) :
    (evaluateWithin setting (bound + 1) env e s).Agrees (evaluateWithin setting (bound + 1) env e' s) := by
  simp only [evaluateWithin, mapFault, same]
  cases step setting (evaluateWithin setting bound) env e' s with
  | value v t => exact .value v t
  | failure fault t =>
    have elsewhere := (Fault.Elsewhere.refl fault).locates e.span e'.span
    exact .failure t elsewhere.kind_eq elsewhere.message_eq
  | exhausted => exact .exhausted

section
variable {source : Expr}
  (collection : ∀ v t, self env source s = .value v t → ∃ kind items, v = .collection kind items)
include collection

theorem step_method {operand : Operand} {op : CollectionOperation} (fits : operand.Fits op)
    (loc loc' : Location) :
    step setting self env (.arrow source op operand.parameter operand.body? loc) s =
      step setting self env (.method source op.text operand.args loc') s := by
  simp only [step]
  apply bind_congr_next
  intro v t ended
  obtain ⟨kind, items, rfl⟩ := collection v t ended
  simp only [Value.asCollection, method, CollectionOperation.named?_text, collectionMethod_eq fits]

theorem step_binary {operator : BinaryOperator} {op : Combination}
    (stands : combined? operator = some op) (rhs : Expr) (loc loc' : Location) :
    step setting self env (.binary operator source rhs loc) s =
      step setting self env (.arrow source (.combination op) none (some rhs) loc') s := by
  simp only [step, binary, not_logical_of_combined stands]
  apply bind_congr_next
  intro v t ended
  obtain ⟨kind, items, rfl⟩ := collection v t ended
  simp only [Value.asCollection, collectionOperation, binary_of_combined stands]

end

end Engine

end Metamorph
