/-! Runs of items that are in order already, as they are found at the head of a list. One that is
too short is filled up with the items behind it, each put in its place by bisection. -/
namespace Metamorph.Sorting
variable {α : Type}

/-- The items up to the first that does not follow the one in front of it, and those from there on.
-/
def splitRun (follows : α → α → Bool) (x : α) : List α → List α × List α
  | [] => ([x], [])
  | y :: rest =>
    if follows y x then
      let (run, others) := splitRun follows y rest
      (x :: run, others)
    else ([x], y :: rest)

/-- The run at the head, turned round if it descends, and the rest. -/
def firstRun (before : α → α → Bool) : List α → List α × List α
  | x :: y :: rest =>
    if before y x then
      let (run, others) := splitRun before x (y :: rest)
      (run.reverse, others)
    else splitRun (fun b a => !before b a) x (y :: rest)
  | items => (items, [])

/-- How many items satisfy `p`, found by bisection between two bounds, if those that do come first.
Of two middle items it asks the second, and the first one when it counts backward. -/
def bisect (p : α → Bool) (backward : Bool) (items : List α) (low high : Nat) : Nat :=
  if low < high then
    let middle := low + (high - low - if backward then 1 else 0) / 2
    if items[middle]?.any p then bisect p backward items (middle + 1) high
    else bisect p backward items low middle
  else low
termination_by high - low

def insert (before : α → α → Bool) (items : List α) (x : α) : List α :=
  items.insertIdx (bisect (fun y => !before x y) false items 0 items.length) x

/-- The least length of a run, the last one excepted, if `n` items are to be cut into runs whose
number is a power of two or just less: `n` is halved until it is below 64, and one is added if a
half was not whole. -/
def leastRun (n rounded : Nat) : Nat :=
  if n < 64 then n + rounded else leastRun (n / 2) (max rounded (n % 2))

/-- The next run, filled up to the least length, and the rest. -/
def nextRun (before : α → α → Bool) (least : Nat) (items : List α) : List α × List α :=
  let (run, others) := firstRun before items
  let missing := least - run.length
  ((others.take missing).foldl (insert before) run, others.drop missing)

end Metamorph.Sorting
