import Metamorph.Named
import Metamorph.Number.Decimal
import Metamorph.Sorting

/-! What a run counts and how it is summed up. -/
namespace Metamorph

structure Counters where
  objectsCreated : Int := 0
  rulesApplied : Int := 0
  bindingsEvaluated : Int := 0
  matchedRulesApplied : Int := 0
  lazyRulesApplied : Int := 0
  calledRulesApplied : Int := 0
  lazyCacheHits : Int := 0
  traceLinks : Int := 0
  deferredBindingsResolved : Int := 0
  helperInvocations : Int := 0
  navigations : Int := 0
  elementsProcessed : Int := 0

namespace Counters

def entries (c : Counters) : Named Int :=
  [("objects_created", c.objectsCreated), ("rules_applied", c.rulesApplied),
    ("bindings_evaluated", c.bindingsEvaluated), ("matched_rules_applied", c.matchedRulesApplied),
    ("lazy_rules_applied", c.lazyRulesApplied), ("called_rules_applied", c.calledRulesApplied),
    ("lazy_cache_hits", c.lazyCacheHits), ("trace_links", c.traceLinks),
    ("deferred_bindings_resolved", c.deferredBindingsResolved),
    ("helper_invocations", c.helperInvocations), ("navigations", c.navigations),
    ("elements_processed", c.elementsProcessed)]

def ofCounts (count : String → Int) : Counters :=
  { objectsCreated := count "objects_created", rulesApplied := count "rules_applied"
    bindingsEvaluated := count "bindings_evaluated"
    matchedRulesApplied := count "matched_rules_applied"
    lazyRulesApplied := count "lazy_rules_applied"
    calledRulesApplied := count "called_rules_applied", lazyCacheHits := count "lazy_cache_hits"
    traceLinks := count "trace_links"
    deferredBindingsResolved := count "deferred_bindings_resolved"
    helperInvocations := count "helper_invocations", navigations := count "navigations"
    elementsProcessed := count "elements_processed" }

end Counters

/-- Times are in seconds; those of rules and helpers include what they called. -/
structure Statistics where
  counters : Counters
  phaseTimes : Named Float := []
  ruleTimes : Named Float := []
  helperTimes : Named Float := []
  elapsed : Float := 0

/-- Seconds as milliseconds with three places. -/
def milliseconds (seconds : Float) : String := Number.fixedText 3 (seconds * 1000) ++ "ms"

namespace Statistics

def summaryLines (s : Statistics) : List String :=
  let c := s.counters
  ["Transformation summary:",
    "  Duration: " ++ milliseconds s.elapsed,
    "  Rules applied: " ++ toString c.rulesApplied ++ " (matched " ++
      toString c.matchedRulesApplied ++ ", lazy " ++ toString c.lazyRulesApplied ++ ", called " ++
      toString c.calledRulesApplied ++ ")",
    "  Elements processed: " ++ toString c.elementsProcessed,
    "  Elements created: " ++ toString c.objectsCreated,
    "  Bindings evaluated: " ++ toString c.bindingsEvaluated,
    "  Trace links: " ++ toString c.traceLinks,
    "  Deferred bindings: " ++ toString c.deferredBindingsResolved,
    "  Lazy cache hits: " ++ toString c.lazyCacheHits,
    "  Helper invocations: " ++ toString c.helperInvocations,
    "  Navigations: " ++ toString c.navigations]

def summary (s : Statistics) : String := "\n".intercalate s.summaryLines

def timeLine (entry : String × Float) : String :=
  "  " ++ entry.1 ++ ": " ++ milliseconds entry.2

/-- The first `top` entries; a negative number leaves that many out at the end. -/
def takeTop {α : Type} (top : Int) (entries : List α) : List α :=
  if 0 ≤ top then entries.take top.toNat else entries.take (entries.length - (-top).toNat)

/-- The slowest first; those of one time stay in their order. -/
def ranked (times : Named Float) : Named Float :=
  let exact := fun (entry : String × Float) => Number.exact entry.2
  (Sorting.sort (fun a b => (exact a).lt (exact b)) (fun a => (exact a).eq (exact a))
    times.reverse).reverse

/-- A section of the slowest entries, left out when there is nothing to show. -/
def slowest (title : String) (times : Named Float) (top : Int) : List String :=
  if times.isEmpty then []
  else ["", title ++ ":"] ++ (takeTop top (ranked times)).map timeLine

def detailedSummary (s : Statistics) (top : Int) : String :=
  "\n".intercalate
    ([s.summary, "", "Phase times:"] ++ s.phaseTimes.map timeLine ++
      slowest "Rule times" s.ruleTimes top ++ slowest "Helper times" s.helperTimes top)

end Statistics

end Metamorph
