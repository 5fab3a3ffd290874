import Metamorph.Diagnostic
import Metamorph.Diagnostic.Kind

/-! Everything that can end an evaluation: errors the engine reports, numbers that leave the range
of their type, a node that is no expression, and failures of the host that nothing has wrapped yet.
-/
namespace Metamorph

/-- Where arithmetic has no answer. -/
inductive NumberFault where
  | integerTooLarge
  | infiniteInteger
  | undefinedInteger
  | outsideDomain
  | beyondRange
  | complexBeyondRange
  | zeroToNegativePower
  | textTooLong

def NumberFault.text : NumberFault → String
  | .integerTooLarge => "int too large to convert to float"
  | .infiniteInteger => "cannot convert float infinity to integer"
  | .undefinedInteger => "cannot convert float NaN to integer"
  | .outsideDomain => "math domain error"
  | .beyondRange => "(34, 'Numerical result out of range')"
  | .complexBeyondRange => "complex exponentiation"
  | .zeroToNegativePower => "0.0 cannot be raised to a negative power"
  | .textTooLong =>
    "Exceeds the limit (4300 digits) for integer string conversion; " ++
      "use sys.set_int_max_str_digits() to increase the limit"

def NumberFault.kind : NumberFault → String
  | .integerTooLarge | .infiniteInteger | .beyondRange | .complexBeyondRange => "OverflowError"
  | .undefinedInteger | .outsideDomain | .textTooLong => "ValueError"
  | .zeroToNegativePower => "ZeroDivisionError"

inductive Fault where
  | diagnosed (d : Diagnostic)
  | number (f : NumberFault)
  | foreignNode (kind : String)
  | host (failure : HostFailure)

abbrev Result := Except Fault

namespace Fault

def of (cause : Cause) : Fault := diagnosed (.of cause)

def typeMismatch (expected actual context : String) : Fault :=
  of (.typeMismatch expected actual context)

def unsupported (operation reason : String) : Fault := of (.unsupported operation reason)

def arity (name : String) (expected actual : Nat) : Fault := of (.arity name expected actual)

def broken (message : String) : Fault := of (.broken message)

/-- Only errors of the engine have a place. -/
def locate (span : Span) : Fault → Fault
  | diagnosed d => diagnosed (d.locate span)
  | other => other

/-- A failure of the host is reported as one of the collaborator that was asked for `target`. -/
def ofCollaborator (target : String) : Fault → Fault
  | host failure => of (.collaborator target failure)
  | other => other

/-- The name of the kind of a fault. -/
def kind : Fault → String
  | diagnosed d => d.cause.kind
  | number f => f.kind
  | foreignNode _ => "TypeError"
  | host failure => failure.kind

def text : Fault → String
  | diagnosed d => d.text
  | number f => f.text
  | foreignNode kind => "Unknown expression node type: " ++ kind
  | host failure => failure.text

end Fault

/-- The name an operator or operation has in a message. -/
def inQuotes (name : String) : String := "'" ++ name ++ "'"

end Metamorph
