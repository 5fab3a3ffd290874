import Metamorph.Engine.Run
import Metamorph.Trace

/-! The memory of lazy rules. The first request for a rule and an argument makes the target objects,
remembers them, and only then fills them in; a request for the same pair that comes meanwhile is
answered with the objects as they are, and so is every later one. -/
namespace Metamorph

structure LazyEntry where
  rule : String
  source : Value
  outputs : Outputs
  complete : Bool

def LazyEntry.isFor (entry : LazyEntry) (rule : String) (source : Value) : Bool :=
  entry.rule == rule && entry.source.same source

def LazyEntry.text (entry : LazyEntry) : String :=
  "LazyApplication(" ++ Text.quoted entry.rule ++ ", " ++
    (if entry.complete then "complete" else "initializing") ++ ")"

structure LazyCache where
  entries : List LazyEntry := []
  hits : Nat := 0
  misses : Nat := 0

namespace LazyCache

def lookup? (cache : LazyCache) (rule : String) (source : Value) : Option LazyEntry :=
  cache.entries.find? (·.isFor rule source)

def isComplete (cache : LazyCache) (rule : String) (source : Value) : Bool :=
  (cache.lookup? rule source).any (·.complete)

def hit (cache : LazyCache) : LazyCache := { cache with hits := cache.hits + 1 }

def miss (cache : LazyCache) : LazyCache := { cache with misses := cache.misses + 1 }

/-- A pair whose objects exist but are not filled in yet. -/
def start (cache : LazyCache) (rule : String) (source : Value) (outputs : Outputs) : LazyCache :=
  { cache with entries := cache.entries ++ [⟨rule, source, outputs, false⟩] }

def finish (cache : LazyCache) (rule : String) (source : Value) : LazyCache :=
  { cache with entries := cache.entries.map fun entry =>
      if entry.isFor rule source then { entry with complete := true } else entry }

def text (cache : LazyCache) : String :=
  "LazyRuleCache(" ++ toString cache.entries.length ++ " entries, hits=" ++
    toString cache.hits ++ ")"

structure Place (σ : Type) where
  get : σ → LazyCache
  change : (LazyCache → LazyCache) → σ → σ

/-- The outputs for a pair. If filling them in fails the pair stays as it is, not complete. -/
def request {σ : Type} (place : Place σ) (create : Run σ Outputs) (fill : Outputs → Run σ Unit)
    (rule : String) (source : Value) : Run σ Outputs := do
  match (place.get (← Run.state)).lookup? rule source with
  | some entry =>
    Run.modify (place.change hit)
    return entry.outputs
  | none =>
    Run.modify (place.change miss)
    let outputs ← create
    Run.modify (place.change fun cache => cache.start rule source outputs)
    fill outputs
    Run.modify (place.change fun cache => cache.finish rule source)
    return outputs

end LazyCache

end Metamorph
