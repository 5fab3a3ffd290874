import Metamorph.Fault

/-! Runs on a state. A run ends with a value or with a fault and in either case leaves a state; one
that was cut off, because it nested deeper than it was allowed to, leaves nothing. -/
namespace Metamorph

inductive Outcome (σ α : Type) where
  | value (result : α) (state : σ)
  | failure (fault : Fault) (state : σ)
  | exhausted

def Run (σ α : Type) : Type := σ → Outcome σ α

namespace Run
variable {σ α β : Type}

def bind (run : Run σ α) (next : α → Run σ β) : Run σ β := fun s =>
  match run s with
  | .value a s => next a s
  | .failure fault s => .failure fault s
  | .exhausted => .exhausted

instance : Monad (Run σ) where
  pure a := fun s => .value a s
  bind := Run.bind

def fail (fault : Fault) : Run σ α := fun s => .failure fault s

def cutOff : Run σ α := fun _ => .exhausted

def state : Run σ σ := fun s => .value s s

def modify (change : σ → σ) : Run σ Unit := fun s => .value () (change s)

def ofResult (result : Result α) : Run σ α := fun s =>
  match result with
  | .ok a => .value a s
  | .error fault => .failure fault s

/-- A fault is passed on in another form. -/
def mapFault (change : Fault → Fault) (run : Run σ α) : Run σ α := fun s =>
  match run s with
  | .failure fault s => .failure (change fault) s
  | other => other

/-- The change is made however the run ends. -/
def ensuring (change : σ → σ) (run : Run σ α) : Run σ α := fun s =>
  match run s with
  | .value a s => .value a (change s)
  | .failure fault s => .failure fault (change s)
  | .exhausted => .exhausted

def rescue (run : Run σ α) (handler : Fault → Run σ α) : Run σ α := fun s =>
  match run s with
  | .failure fault s => handler fault s
  | other => other

instance : MonadExceptOf Fault (Run σ) where
  throw := fail
  tryCatch := rescue

end Run

end Metamorph
