import Metamorph.Diagnostic.Cause
import Metamorph.Source

/-! Errors as they are reported: a cause with its code, place, severity, notes and hint, and the
form in which compilers print one. -/
namespace Metamorph

structure Note where
  message : String
  span : Option Span := none
  label : String := "note"

def Note.text (note : Note) : String :=
  let labelled := (if note.label.isEmpty then "" else note.label ++ ": ") ++ note.message
  match note.span with
  | some span => span.text ++ ": " ++ labelled
  | none => labelled

structure Diagnostic where
  cause : Cause
  code : Code
  severity : Severity
  span : Span
  notes : List Note
  hint : String

namespace Diagnostic

/-- What the raiser says goes first; a remark of the cause is added and its hint wins. -/
def build (cause : Cause) (span : Span) (severity : Option Severity) (code : Option Code)
    (notes : List Note) (hint : String) : Diagnostic :=
  let code := code.getD cause.code
  { cause, code, span
    severity := severity.getD code.severity
    notes := notes ++ (cause.remark.map fun message => { message : Note }).toList
    hint := if cause.hint.isEmpty then hint else cause.hint }

def of (cause : Cause) (span : Span := .unknown) : Diagnostic := build cause span none none [] ""

def message (d : Diagnostic) : String := d.cause.message

def addNote (d : Diagnostic) (note : Note) : Diagnostic := { d with notes := d.notes ++ [note] }

def withHint (d : Diagnostic) (hint : String) : Diagnostic := { d with hint }

/-- A place is taken on only by an error that has no line yet, and only if the place has one. -/
def locate (d : Diagnostic) (span : Span) : Diagnostic :=
  if d.span.line = 0 ∧ 0 < span.line then { d with span } else d

/-- One line for the error, one for every note, one for the hint. -/
def text (d : Diagnostic) : String :=
  let head :=
    d.span.text ++ ": " ++ d.severity.text ++ ": " ++ d.message ++ " [" ++ d.code.text ++ "]"
  let hint := if d.hint.isEmpty then [] else ["hint: " ++ d.hint]
  "\n".intercalate (head :: d.notes.map Note.text ++ hint)

end Diagnostic

end Metamorph
