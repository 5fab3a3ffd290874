import Metamorph.Sorting.Run

/-! Two neighbouring runs merged into one: item by item at first, and in strides once one of the two
wins again and again. Equal items of the left run come first. -/
namespace Metamorph.Sorting
variable {α : Type}

/-- What is left of two neighbouring runs, and the items already in place, the last one first. -/
structure Merging (α : Type) where
  merged : List α
  left : List α
  right : List α

namespace Merging

def takeLeft (s : Merging α) (k : Nat) : Merging α :=
  { s with merged := (s.left.take k).reverse ++ s.merged, left := s.left.drop k }

def takeRight (s : Merging α) (k : Nat) : Merging α :=
  { s with merged := (s.right.take k).reverse ++ s.merged, right := s.right.drop k }

/-- Nothing is left to compare: the last item of the left run stands behind those of the right one.
-/
def isOver (s : Merging α) : Bool :=
  match s.left, s.right with
  | _ :: _ :: _, _ :: _ => false
  | _, _ => true

def outcome (s : Merging α) : List α :=
  match s.left with
  | [x] => s.merged.reverse ++ s.right ++ [x]
  | left => s.merged.reverse ++ left ++ s.right

end Merging

/-- Bounds for how many items at the head satisfy `p`, if the one at the position `last` does: the
next ones asked are each twice as far off. -/
def strides (p : α → Bool) (items : List α) (last : Nat) : Nat × Nat :=
  let next := 2 * last + 1
  match _ : items[next]? with
  | some x =>
    if p x then strides p items next else (last + 1, next)
  | none => (last + 1, (items.take next).length)
termination_by items.length - last
decreasing_by
  have : next < items.length := (List.getElem?_eq_some_iff.1 ‹_›).1
  omega

/-- How many items at the head satisfy `p`, found by strides that double and then by bisection. -/
def gallop (p : α → Bool) (backward : Bool) (items : List α) : Nat :=
  if items.head?.any p then
    let (low, high) := strides p items 0
    bisect p backward items low high
  else 0

/-- Takes what stands in front of the head of the right run from the left one, then that head. -/
def strideLeft (before : α → α → Bool) (backward : Bool) (s : Merging α) : Merging α × Nat :=
  match s.right with
  | [] => (s, 0)
  | y :: _ =>
    let k := gallop (fun x => !before y x) backward s.left
    let s := s.takeLeft k
    (if s.isOver then s else s.takeRight 1, k)

/-- Takes what stands in front of the head of the left run from the right one, then that head. -/
def strideRight (before : α → α → Bool) (backward : Bool) (s : Merging α) : Merging α × Nat :=
  match s.left with
  | [] => (s, 0)
  | x :: _ =>
    let k := gallop (fun y => before y x) backward s.right
    let s := s.takeRight k
    (if s.isOver then s else s.takeLeft 1, k)

/-- How a merge goes on: item by item, of which so many came from one side in a row, or in strides.
-/
inductive Pace where
  | steps (fromRight : Bool) (streak : Nat)
  | strides

/-- How far strides have to go if they are to be kept up. -/
def worthwhile : Nat := 7

/-- Merges until nothing is left to compare. Strides begin when one side has won `patience` times in
a row; they make it smaller as long as they last and larger when they end. -/
def mergeOn (before : α → α → Bool) (backward : Bool) :
    Nat → Pace → Nat → Merging α → Merging α × Nat
  | 0, _, patience, s => (s, patience)
  | fuel + 1, .steps fromRight streak, patience, s =>
    match s.left, s.right with
    | x :: _, y :: _ =>
      let wins := before y x
      let s := if wins then s.takeRight 1 else s.takeLeft 1
      let streak := if wins = fromRight then streak + 1 else 1
      if s.isOver then (s, patience)
      else if patience ≤ streak then mergeOn before backward fuel .strides (patience + 1) s
      else mergeOn before backward fuel (.steps wins streak) patience s
    | _, _ => (s, patience)
  | fuel + 1, .strides, patience, s =>
    let patience := max 1 (patience - 1)
    let (first, second) :=
      if backward then (strideRight before backward, strideLeft before backward)
      else (strideLeft before backward, strideRight before backward)
    let (s, k) := first s
    if s.isOver then (s, patience)
    else
      let (s, l) := second s
      if s.isOver then (s, patience)
      else if worthwhile ≤ max k l then mergeOn before backward fuel .strides patience s
      else mergeOn before backward fuel (.steps false 0) (patience + 1) s

/-- Both runs merged from their heads on. The head of the right run is known to come first, and the
last item of the left run to come last. -/
def mergeFrom (before : α → α → Bool) (backward : Bool) (patience : Nat) (left right : List α) :
    List α × Nat :=
  let s : Merging α := Merging.takeRight ⟨[], left, right⟩ 1
  if s.isOver then (s.outcome, patience)
  else
    let (s, patience) :=
      mergeOn before backward (left.length + right.length) (.steps false 0) patience s
    (s.outcome, patience)

/-- Two neighbouring runs as one. Items that are in place at either end are left there; what remains
is merged from the front if the left one is not the longer, else from the end. -/
def mergeRuns (before : α → α → Bool) (patience : Nat) (left right : List α) : List α × Nat :=
  match right.head? with
  | none => (left, patience)
  | some y =>
    let k := gallop (fun x => !before y x) false left
    let (front, left) := left.splitAt k
    match left.getLast? with
    | none => (front ++ right, patience)
    | some x =>
      let ending := right.reverse
      let l := gallop (fun z => !before z x) true ending
      let back := (ending.take l).reverse
      let right := (ending.drop l).reverse
      if right.isEmpty then (front ++ left ++ back, patience)
      else if left.length ≤ right.length then
        let (middle, patience) := mergeFrom before false patience left right
        (front ++ middle ++ back, patience)
      else
        let (middle, patience) :=
          mergeFrom (fun a b => before b a) true patience right.reverse left.reverse
        (front ++ middle.reverse ++ back, patience)

end Metamorph.Sorting
