import Metamorph.Model.Store

/-! The trace: which rule was applied to which source, and what came of it. A rule is applied to a
source once at most; sources are told apart by equality of values, objects by identity. The links are
kept twice, in the order in which they were registered and by their sources. -/
namespace Metamorph

inductive LinkKind where
  | matched
  | lazy
  | other (name : String)
  deriving DecidableEq

def LinkKind.text : LinkKind → String
  | .matched => "matched"
  | .lazy => "lazy"
  | .other name => name

def LinkKind.named (name : String) : LinkKind :=
  if name = "matched" then .matched else if name = "lazy" then .lazy else .other name

/-- Target objects by output variable, in the order of the declaration. -/
abbrev Outputs := Named Value

/-- `sourceType` is what the type of the source is named by. -/
structure TraceLink where
  rule : String
  source : Value
  sourceType : Value
  outputs : Outputs
  kind : LinkKind

def TraceLink.isFor (link : TraceLink) (source : Value) : Bool := link.source.same source

def TraceLink.defaultTarget? (link : TraceLink) : Option Value := link.outputs.head?.map (·.2)

/-- Links by the keys of their sources, those of one source in the order in which they came. -/
abbrev LinkTable := List (Key × List TraceLink)

namespace LinkTable

def under (key : Key) : LinkTable → List TraceLink
  | [] => []
  | (other, links) :: rest => if other = key then links else under key rest

def file (key : Key) (link : TraceLink) : LinkTable → LinkTable
  | [] => [(key, [link])]
  | (other, links) :: rest =>
    if other = key then (other, links ++ [link]) :: rest else (other, links) :: file key link rest

theorem under_nil (key : Key) :
    under key [] = [].filter fun link : TraceLink => link.source.key == key := rfl

theorem under_file (key : Key) (link : TraceLink) (table : LinkTable) (other : Key) :
    under other (table.file key link) = table.under other ++ [link].filter fun _ => key == other := by
  induction table with
  | nil => by_cases same : key = other <;> simp [file, under, same]
  | cons entry rest ih =>
    obtain ⟨place, links⟩ := entry
    rw [file, under]
    by_cases own : place = key
    · subst own
      by_cases same : place = other <;> simp [under, same]
    · rw [if_neg own, under, ih]
      by_cases same : place = other
      · have apart : key ≠ other := fun equal => own (same.trans equal.symm)
        simp [same, apart]
      · rw [if_neg same, if_neg same]

end LinkTable

/-- Links in the order in which they were registered, and each of them under the key of its source. -/
structure Trace where
  links : List TraceLink := []
  bySource : LinkTable := []
  indexed : ∀ key, bySource.under key = links.filter (·.source.key == key) := by exact LinkTable.under_nil

namespace Trace

/-- One link more, in both places. -/
def push (trace : Trace) (link : TraceLink) : Trace where
  links := trace.links ++ [link]
  bySource := trace.bySource.file link.source.key link
  indexed key := by
    rw [LinkTable.under_file, trace.indexed, List.filter_append]
    rfl

def lookup? (trace : Trace) (rule : String) (source : Value) : Option TraceLink :=
  trace.links.find? fun link => link.rule == rule && link.isFor source

def linksFor (trace : Trace) (source : Value) : List TraceLink :=
  (trace.bySource.under source.key).filter (·.isFor source)

theorem linksFor_eq (trace : Trace) (source : Value) :
    trace.linksFor source = trace.links.filter (·.isFor source) := by
  rw [linksFor, trace.indexed, List.filter_filter]
  refine List.filter_congr fun link _ => ?_
  rw [TraceLink.isFor, Value.same_eq_key, Bool.and_self]

theorem mem_linksFor {trace : Trace} {source : Value} {link : TraceLink} :
    link ∈ trace.linksFor source ↔ link ∈ trace.links ∧ link.isFor source = true := by
  rw [linksFor_eq, List.mem_filter]

def register (trace : Trace) (store : Store) (rule : String) (source : Value) (outputs : Outputs)
    (kind : LinkKind) : Result (TraceLink × Trace) :=
  match trace.lookup? rule source with
  | some _ => do .error (.of (.duplicateTrace rule (← store.cite source)))
  | none =>
    let link := { rule, source, sourceType := store.typeTag source, outputs, kind }
    .ok (link, trace.push link)

/-- The links that made a target for the variable, of one rule or of all. -/
def candidates (trace : Trace) (source : Value) (output : String) (rule : Option String) :
    List TraceLink :=
  (trace.linksFor source).filter fun link =>
    link.outputs.has output && rule.all (link.rule == ·)

/-- The target made from a source for an output variable, if exactly one link made one. -/
def resolve (trace : Trace) (store : Store) (source : Value) (output : String)
    (rule : Option String) : Result Value :=
  match trace.candidates source output rule with
  | [] => do .error (.of (.missingReference output (← store.cite source) rule))
  | [link] => .ok ((link.outputs.get? output).getD .undefined)
  | links => .error (.of (.ambiguousTrace output (links.map (·.rule))))

/-- The link of the first matched rule that was applied to the source. -/
def matchedLink? (trace : Trace) (source : Value) : Option TraceLink :=
  (trace.linksFor source).find? (·.kind == .matched)

/-- What a value is replaced by where a target is wanted: the first target of the matched rule that
was applied to it, or itself if there is no such rule or that target is undefined. A link without
targets cannot be asked. -/
def replacement (trace : Trace) (v : Value) : Result Value :=
  match (trace.matchedLink? v).map TraceLink.defaultTarget? with
  | none | some (some .undefined) => .ok v
  | some (some target) => .ok target
  | some none => .error (.host ⟨"RuntimeError", "coroutine raised StopIteration"⟩)

def size (trace : Trace) : Nat := trace.links.length

def text (trace : Trace) : String := "TraceModel(" ++ toString trace.size ++ " links)"

end Trace

end Metamorph
