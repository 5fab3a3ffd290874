import Metamorph.Fault
import Metamorph.Text.CloseMatch
import Metamorph.Value

/-! The scopes in which names have values: a root frame that stays, and frames pushed on top of it.
A name means what the innermost frame that binds it says. -/
namespace Metamorph

/-- The serial number tells frames with equal contents apart. -/
structure Frame where
  serial : Nat
  name : String
  bindings : Named Value

def Frame.text (frame : Frame) : String :=
  "Frame(" ++ Text.quoted frame.name ++ ", " ++
    Text.quotedList (sortedNames frame.bindings.names) ++ ")"

/-- `inner` holds the pushed frames, innermost first; `left` those that were popped. -/
structure Environment where
  root : Frame
  inner : List Frame := []
  left : List Frame := []

namespace Environment

def ofRoot (bindings : Named Value) : Environment := { root := ⟨0, "root", bindings⟩ }

/-- Innermost first. -/
def frames (env : Environment) : List Frame := env.inner ++ [env.root]

def depth (env : Environment) : Nat := env.inner.length + 1

def current (env : Environment) : Frame := env.inner.head?.getD env.root

def get? (env : Environment) (name : String) : Option Value :=
  env.frames.findSome? (·.bindings.get? name)

def isBound (env : Environment) (name : String) : Bool :=
  env.frames.any (·.bindings.has name)

/-- Every bound name once, names of inner frames first. -/
def visibleNames (env : Environment) : List String :=
  (env.frames.flatMap (·.bindings.names)).foldl
    (fun seen name => if seen.contains name then seen else seen ++ [name]) []

/-- The visible bindings as one table. -/
def snapshot (env : Environment) : Named Value :=
  env.frames.foldr (fun frame table => table.update frame.bindings) []

/-- A name that nothing binds is reported with the bound names it resembles. -/
def lookup (env : Environment) (name : String) (span : Span) : Result Value :=
  match env.get? name with
  | some v => .ok v
  | none =>
    .error (.diagnosed (.of (.unresolvedVariable name (Text.closeMatches name env.visibleNames 3))
      span))

/-- The serial number of the next frame. -/
def nextSerial (env : Environment) : Nat := env.inner.length + env.left.length + 1

def push (env : Environment) (name : String) (bindings : Named Value) : Environment :=
  { env with inner := ⟨env.nextSerial, name, bindings⟩ :: env.inner }

def frame? (env : Environment) (serial : Nat) : Option Frame :=
  (env.frames ++ env.left).find? (·.serial == serial)

/-- Only the innermost frame can be popped, and never the root. -/
def pop (env : Environment) (serial : Nat) : Result Environment :=
  match env.inner with
  | [] => .error (.broken "cannot pop the root frame")
  | top :: rest =>
    if top.serial = serial then .ok { env with inner := rest, left := top :: env.left }
    else
      let text := ((env.frame? serial).map Frame.text).getD ""
      .error (.broken ("frame " ++ text ++ " popped out of order (top is " ++ top.text ++ ")"))

/-- Binds a name in the innermost frame. -/
def bind (env : Environment) (name : String) (v : Value) : Environment :=
  match env.inner with
  | [] => { env with root := { env.root with bindings := env.root.bindings.set name v } }
  | top :: rest =>
    { env with inner := { top with bindings := top.bindings.set name v } :: rest }

def text (env : Environment) : String := "Environment(depth=" ++ toString env.depth ++ ")"

end Environment

end Metamorph
