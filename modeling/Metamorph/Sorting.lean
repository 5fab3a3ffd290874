import Metamorph.Sorting.Merge

/-! Sorting by a relation `before`. Among items that all have their place in the order the outcome
is the stable sort. If some have none, because they stand before nothing and after nothing, it still
is determined: the list is cut into runs, and neighbouring ones are merged as if the list had been
halved again and again. -/
namespace Metamorph.Sorting
variable {α : Type}

/-- A run that waits to be merged, the level at which it parts from the next one, and its length. -/
structure Waiting (α : Type) where
  items : List α
  size : Nat
  level : Nat := 0

/-- The level at which the middles of two neighbouring runs part when `n` items are halved, their
halves are halved, and so on. Both middles are given twice over. -/
def partingLevel (n : Nat) : Nat → Nat → Nat → Nat
  | 0, _, _ => 0
  | fuel + 1, a, b =>
    if n ≤ a then 1 + partingLevel n fuel (2 * (a - n)) (2 * (b - n))
    else if n ≤ b then 1
    else 1 + partingLevel n fuel (2 * a) (2 * b)

/-- Runs that wait, the last one first, and the patience of the merges so far. -/
structure Stack (α : Type) where
  runs : List (Waiting α)
  patience : Nat := worthwhile

def joinRuns (before : α → α → Bool) (patience : Nat) (left right : Waiting α) : Waiting α × Nat :=
  let (items, patience) := mergeRuns before patience left.items right.items
  (⟨items, left.size + right.size, left.level⟩, patience)

/-- Merges the last runs as long as those in front of them part at a deeper level than the given
one. -/
def settle (before : α → α → Bool) (level patience : Nat) (top : Waiting α) :
    List (Waiting α) → Stack α
  | next :: below =>
    if level < next.level then
      let (top, patience) := joinRuns before patience next top
      settle before level patience top below
    else ⟨{ top with level } :: next :: below, patience⟩
  | [] => ⟨[{ top with level }], patience⟩

def push (before : α → α → Bool) (n start : Nat) (run : List α) (stack : Stack α) : Stack α :=
  let size := run.length
  match stack.runs with
  | [] => { stack with runs := [⟨run, size, 0⟩] }
  | top :: below =>
    let level := partingLevel n (n + 1) (2 * start - top.size) (2 * start + size)
    let stack := settle before level stack.patience top below
    { stack with runs := ⟨run, size, 0⟩ :: stack.runs }

/-- The runs of what is left, from the position `start` on, on the stack. -/
def pushRuns (before : α → α → Bool) (n least : Nat) :
    Nat → Nat → List α → Stack α → Stack α
  | 0, _, _, stack => stack
  | _ + 1, _, [], stack => stack
  | fuel + 1, start, items, stack =>
    let (run, others) := nextRun before least items
    pushRuns before n least fuel (start + run.length) others (push before n start run stack)

/-- Merges from the end, the last run but one first with the shorter one of its neighbours. -/
def collapse (before : α → α → Bool) (patience : Nat) : List (Waiting α) → List α
  | [] => []
  | [run] => run.items
  | top :: second :: third :: below =>
    if third.size < top.size then
      let (joined, patience) := joinRuns before patience third second
      collapse before patience (top :: joined :: below)
    else
      let (joined, patience) := joinRuns before patience second top
      collapse before patience (joined :: third :: below)
  | [top, second] => (joinRuns before patience second top).1.items
termination_by runs => runs.length

def mergeAll (before : α → α → Bool) (items : List α) : List α :=
  let n := items.length
  let stack := pushRuns before n (leastRun n 0) n 0 items ⟨[], worthwhile⟩
  collapse before stack.patience stack.runs

/-- The items in their order, where `placed` tells whether an item has a place in it. -/
def sort (before : α → α → Bool) (placed : α → Bool) (items : List α) : List α :=
  if items.all placed then items.mergeSort fun a b => !before b a else mergeAll before items

end Metamorph.Sorting
