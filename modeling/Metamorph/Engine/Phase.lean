/-! The phases of a run, strictly in order. Any failure ends in the last of them, and nothing leads
out of it. -/
namespace Metamorph

inductive Phase where
  | ready
  | matching
  | creation
  | initialization
  | resolution
  | complete
  | failed
  deriving DecidableEq

namespace Phase

def title : Phase → String
  | ready => "READY"
  | matching => "MATCHING"
  | creation => "CREATION"
  | initialization => "INITIALIZATION"
  | resolution => "RESOLUTION"
  | complete => "COMPLETE"
  | failed => "FAILED"

def text : Phase → String
  | ready => "ready"
  | matching => "matching"
  | creation => "creation"
  | initialization => "initialization"
  | resolution => "resolution"
  | complete => "complete"
  | failed => "failed"

def next? : Phase → Option Phase
  | ready => some matching
  | matching => some creation
  | creation => some initialization
  | initialization => some resolution
  | resolution => some complete
  | complete | failed => none

end Phase

end Metamorph
