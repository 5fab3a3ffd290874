import Metamorph.Diagnostic
import Metamorph.Value

/-! Errors as records of named values, for programs that read them. -/
namespace Metamorph

def Span.record (span : Span) : Named Value :=
  [("file", .string span.file), ("line", .integer span.line), ("column", .integer span.column)]

def Note.record (note : Note) : Named Value :=
  [("message", .string note.message), ("label", .string note.label)]

def Diagnostic.record (d : Diagnostic) : Named Value :=
  [("code", .string d.code.text), ("message", .string d.message),
    ("severity", .string d.severity.text), ("location", .tuple d.span.record),
    ("phase", .string d.code.stage.text), ("category", .string d.code.category.text),
    ("notes", .listed (d.notes.map fun note => .tuple note.record)), ("hint", .string d.hint)]

end Metamorph
