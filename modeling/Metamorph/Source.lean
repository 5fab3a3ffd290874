/-! Places in the text of a transformation: the location a node carries, and the span an error
points to. -/
namespace Metamorph

def unknownFile : String := "<unknown>"

structure Location where
  file : String := unknownFile
  line : Int := 0
  column : Int := 0

def Location.text (loc : Location) : String :=
  loc.file ++ ":" ++ toString loc.line ++ ":" ++ toString loc.column

structure Span where
  file : String
  line : Int
  column : Int
  endLine : Int
  endColumn : Int

/-- An end that is not given is the start. -/
def Span.between (file : String) (line column endLine endColumn : Int) : Span :=
  { file, line, column
    endLine := if endLine = 0 then line else endLine
    endColumn := if endColumn = 0 then column else endColumn }

def Span.unknown : Span := .between "" 0 0 0 0

def Span.ofLocation (loc : Location) : Span :=
  .between (if loc.file = unknownFile then "" else loc.file) loc.line loc.column 0 0

/-- The parts that are known, separated by colons. A column counts only after a line. -/
def Span.text (span : Span) : String :=
  if span.file.isEmpty && span.line = 0 then "<unknown location>"
  else
    let file := if span.file.isEmpty then [] else [span.file]
    let line := if 0 < span.line then [toString span.line] else []
    let column := if 0 < span.line ∧ 0 < span.column then [toString span.column] else []
    ":".intercalate (file ++ line ++ column)

end Metamorph
