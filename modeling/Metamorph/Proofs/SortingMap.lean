import Mathlib.Data.List.InsertIdx
import Metamorph.Sorting

/-! Sorting heeds what its relation says about the items, and nothing else of them: items that stand for
others are put in the order of those they stand for. -/
namespace Metamorph.Sorting
variable {α β : Type} (f : α → β)

/-- A relation of items that is one of what they stand for. -/
abbrev standing (before : β → β → Bool) (a b : α) : Bool := before (f a) (f b)

theorem splitRun_map (follows : β → β → Bool) (x : α) (items : List α) :
    splitRun follows (f x) (items.map f) =
      (splitRun (standing f follows) x items).map (·.map f) (·.map f) := by
  induction items generalizing x with
  | nil => rfl
  | cons y rest ih =>
    rw [List.map_cons, splitRun, splitRun, ih]
    split <;> rfl

theorem firstRun_map (before : β → β → Bool) (items : List α) :
    firstRun before (items.map f) =
      (firstRun (standing f before) items).map (·.map f) (·.map f) := by
  match items with
  | [] => rfl
  | [x] => rfl
  | x :: y :: rest =>
    have descending := splitRun_map f before x (y :: rest)
    have ascending := splitRun_map f (fun b a => !before b a) x (y :: rest)
    simp only [List.map_cons] at descending ascending
    simp only [List.map_cons, firstRun, descending, ascending]
    split
    · simp [Prod.map, List.map_reverse]
    · rfl

theorem bisect_map (p : β → Bool) (backward : Bool) (items : List α) (low high : Nat) :
    bisect p backward (items.map f) low high = bisect (p ∘ f) backward items low high := by
  induction low, high using bisect.induct (p ∘ f) backward items with
  | case1 low high inside middle holds ih =>
    rw [bisect, if_pos inside, bisect, if_pos inside]
    dsimp only
    rw [List.getElem?_map, Option.any_map]
    exact (if_pos holds).trans (ih.trans (if_pos holds).symm)
  | case2 low high inside middle fails ih =>
    rw [bisect, if_pos inside, bisect, if_pos inside]
    dsimp only
    rw [List.getElem?_map, Option.any_map]
    exact (if_neg fails).trans (ih.trans (if_neg fails).symm)
  | case3 low high outside => rw [bisect, if_neg outside, bisect, if_neg outside]

theorem insert_map (before : β → β → Bool) (items : List α) (x : α) :
    insert before (items.map f) (f x) = (insert (standing f before) items x).map f := by
  rw [insert, insert, bisect_map, List.length_map, List.map_insertIdx]
  rfl

theorem nextRun_map (before : β → β → Bool) (least : Nat) (items : List α) :
    nextRun before least (items.map f) =
      (nextRun (standing f before) least items).map (·.map f) (·.map f) := by
  have filled (run more : List α) : (more.map f).foldl (insert before) (run.map f) =
      (more.foldl (insert (standing f before)) run).map f := by
    induction more generalizing run with
    | nil => rfl
    | cons x rest ih => rw [List.map_cons, List.foldl_cons, List.foldl_cons, insert_map, ih]
  simp only [nextRun, firstRun_map]
  simp [Prod.map, ← List.map_take, ← List.map_drop, filled]

/-! Merges. -/

def Merging.map (s : Merging α) : Merging β := ⟨s.merged.map f, s.left.map f, s.right.map f⟩

section
variable (s : Merging α)

theorem takeLeft_map (k : Nat) : (s.map f).takeLeft k = (s.takeLeft k).map f := by
  simp [Merging.takeLeft, Merging.map, List.map_take, List.map_drop]

theorem takeRight_map (k : Nat) : (s.map f).takeRight k = (s.takeRight k).map f := by
  simp [Merging.takeRight, Merging.map, List.map_take, List.map_drop]

theorem isOver_map : (s.map f).isOver = s.isOver := by
  obtain ⟨merged, left, right⟩ := s
  match left, right with
  | [], _ | [_], _ | _ :: _ :: _, [] | _ :: _ :: _, _ :: _ => rfl

theorem outcome_map : (s.map f).outcome = s.outcome.map f := by
  obtain ⟨merged, left, right⟩ := s
  match left with
  | [] | [_] | _ :: _ :: _ => simp [Merging.outcome, Merging.map]

end

theorem strides_eq (p : α → Bool) (items : List α) (last : Nat) : strides p items last =
    match items[2 * last + 1]? with
    | some x => if p x then strides p items (2 * last + 1) else (last + 1, 2 * last + 1)
    | none => (last + 1, (items.take (2 * last + 1)).length) := by
  rw [strides]
  split <;> simp_all

theorem strides_map (p : β → Bool) (items : List α) (last : Nat) :
    strides p (items.map f) last = strides (p ∘ f) items last := by
  rw [strides_eq p (items.map f) last, strides_eq (p ∘ f) items last, List.getElem?_map]
  cases found : items[2 * last + 1]? with
  | none => simp [← List.map_take]
  | some x =>
    rw [Option.map_some]
    dsimp only
    rw [strides_map p items (2 * last + 1)]
    rfl
termination_by items.length - last
decreasing_by
  have : 2 * last + 1 < items.length := (List.getElem?_eq_some_iff.1 ‹_›).1
  omega

theorem gallop_map (p : β → Bool) (backward : Bool) (items : List α) :
    gallop p backward (items.map f) = gallop (p ∘ f) backward items := by
  rw [gallop, gallop, strides_map, List.head?_map, Option.any_map]
  simp only [bisect_map]
  rfl

section
variable (before : β → β → Bool) (backward : Bool)

theorem strideLeft_map (s : Merging α) : strideLeft before backward (s.map f) =
    (strideLeft (standing f before) backward s).map (·.map f) id := by
  obtain ⟨merged, left, right⟩ := s
  cases right with
  | nil => rfl
  | cons y rest =>
    change (let k := gallop (fun x => !before (f y) x) backward (left.map f)
      let t := (Merging.map f ⟨merged, left, y :: rest⟩).takeLeft k
      (if t.isOver then t else t.takeRight 1, k)) = _
    rw [gallop_map]
    dsimp only
    rw [takeLeft_map, isOver_map, takeRight_map, ← apply_ite (Merging.map f)]
    rfl

theorem strideRight_map (s : Merging α) : strideRight before backward (s.map f) =
    (strideRight (standing f before) backward s).map (·.map f) id := by
  obtain ⟨merged, left, right⟩ := s
  cases left with
  | nil => rfl
  | cons x rest =>
    change (let k := gallop (fun y => before y (f x)) backward (right.map f)
      let t := (Merging.map f ⟨merged, x :: rest, right⟩).takeRight k
      (if t.isOver then t else t.takeLeft 1, k)) = _
    rw [gallop_map]
    dsimp only
    rw [takeRight_map, isOver_map, takeLeft_map, ← apply_ite (Merging.map f)]
    rfl

omit f in
theorem mergeOn_steps {before : α → α → Bool} {fuel streak patience : Nat} {fromRight : Bool}
    {s : Merging α} {x y : α} {left right : List α} (atLeft : s.left = x :: left)
    (atRight : s.right = y :: right) :
    mergeOn before backward (fuel + 1) (.steps fromRight streak) patience s =
      let t := if before y x then s.takeRight 1 else s.takeLeft 1
      let streak := if before y x = fromRight then streak + 1 else 1
      if t.isOver then (t, patience)
      else if patience ≤ streak then mergeOn before backward fuel .strides (patience + 1) t
      else mergeOn before backward fuel (.steps (before y x) streak) patience t := by
  rw [mergeOn]
  simp only [atLeft, atRight]

theorem mergeOn_map (fuel : Nat) (pace : Pace) (patience : Nat) (s : Merging α) :
    mergeOn before backward fuel pace patience (s.map f) =
      (mergeOn (standing f before) backward fuel pace patience s).map (·.map f) id := by
  induction fuel generalizing pace patience s with
  | zero => rfl
  | succ fuel ih =>
    cases pace with
    | steps fromRight streak =>
      match left : s.left, right : s.right with
      | [], _ =>
        rw [mergeOn, mergeOn]
        simp [Merging.map, left]
      | _ :: _, [] =>
        rw [mergeOn, mergeOn]
        simp [Merging.map, left, right]
      | x :: _, y :: _ =>
        have atLeft : (s.map f).left = f x :: _ := congrArg (List.map f) left
        have atRight : (s.map f).right = f y :: _ := congrArg (List.map f) right
        rw [mergeOn_steps backward atLeft atRight, mergeOn_steps backward left right]
        dsimp only
        rw [takeRight_map, takeLeft_map, ← apply_ite (Merging.map f), isOver_map]
        simp only [ih]
        split_ifs <;> rfl
    | strides =>
      rw [mergeOn, mergeOn]
      cases backward with
      | true =>
        simp only [if_true, strideRight_map, strideLeft_map, Prod.map, isOver_map, ih, id]
        split_ifs <;> rfl
      | false =>
        simp only [Bool.false_eq_true, if_false, strideRight_map, strideLeft_map, Prod.map, isOver_map,
          ih, id]
        split_ifs <;> rfl

theorem mergeFrom_map (patience : Nat) (left right : List α) :
    mergeFrom before backward patience (left.map f) (right.map f) =
      (mergeFrom (standing f before) backward patience left right).map (·.map f) id := by
  have begun : Merging.takeRight ⟨[], left.map f, right.map f⟩ 1 =
      (Merging.takeRight ⟨[], left, right⟩ 1).map f := takeRight_map f ⟨[], left, right⟩ 1
  rw [mergeFrom, mergeFrom]
  dsimp only
  rw [begun, isOver_map, mergeOn_map, List.length_map, List.length_map]
  simp only [Prod.map, outcome_map, id]
  split_ifs <;> rfl

end

theorem mergeRuns_map (before : β → β → Bool) (patience : Nat) (left right : List α) :
    mergeRuns before patience (left.map f) (right.map f) =
      (mergeRuns (standing f before) patience left right).map (·.map f) id := by
  cases right with
  | nil => rfl
  | cons y rest =>
    have front : ((fun x => !before (f y) x) ∘ f) = fun x => !standing f before y x := rfl
    have back (x : α) : ((fun z => !before z (f x)) ∘ f) = fun z => !standing f before z x := rfl
    rw [mergeRuns, mergeRuns, List.map_cons]
    simp only [List.head?_cons]
    rw [← List.map_cons, gallop_map]
    simp only [List.splitAt_eq, ← List.map_take, ← List.map_drop, List.getLast?_map, front]
    cases last : (left.drop (gallop (fun x => !standing f before y x) false left)).getLast? with
    | none => simp [Prod.map]
    | some x =>
      simp only [Option.map_some, ← List.map_reverse, gallop_map, ← List.map_take, ← List.map_drop,
        mergeFrom_map, List.isEmpty_map, List.length_map, back]
      split_ifs <;> simp [Prod.map]

/-! The runs on the stack. -/

def Waiting.map (run : Waiting α) : Waiting β := ⟨run.items.map f, run.size, run.level⟩

def Stack.map (stack : Stack α) : Stack β := ⟨stack.runs.map (Waiting.map f), stack.patience⟩

section
variable (before : β → β → Bool)

theorem joinRuns_map (patience : Nat) (left right : Waiting α) :
    joinRuns before patience (left.map f) (right.map f) =
      (joinRuns (standing f before) patience left right).map (Waiting.map f) id := by
  rw [joinRuns, joinRuns]
  simp only [Waiting.map, mergeRuns_map]
  rfl

theorem settle_map (level patience : Nat) (top : Waiting α) (below : List (Waiting α)) :
    settle before level patience (top.map f) (below.map (Waiting.map f)) =
      (settle (standing f before) level patience top below).map f := by
  induction below generalizing patience top with
  | nil => rfl
  | cons next below ih =>
    rw [List.map_cons, settle, settle]
    simp only [joinRuns_map, Prod.map, id, ih]
    change (if level < next.level then _ else _) = _
    split_ifs <;> rfl

theorem push_map (n start : Nat) (run : List α) (stack : Stack α) :
    push before n start (run.map f) (stack.map f) =
      (push (standing f before) n start run stack).map f := by
  obtain ⟨runs, patience⟩ := stack
  cases runs with
  | nil => simp [push, Stack.map, Waiting.map]
  | cons top below =>
    rw [push, push]
    simp only [Stack.map, List.map_cons, List.length_map, Waiting.map]
    have settled := settle_map f before
      (partingLevel n (n + 1) (2 * start - top.size) (2 * start + run.length)) patience top below
    rw [Waiting.map] at settled
    rw [settled]
    rfl

theorem pushRuns_map (n least fuel start : Nat) (items : List α) (stack : Stack α) :
    pushRuns before n least fuel start (items.map f) (stack.map f) =
      (pushRuns (standing f before) n least fuel start items stack).map f := by
  induction fuel generalizing start items stack with
  | zero => rfl
  | succ fuel ih =>
    cases items with
    | nil => rfl
    | cons x rest =>
      rw [List.map_cons, pushRuns, pushRuns, ← List.map_cons, nextRun_map]
      simp only [Prod.map, List.length_map, push_map, ih]
      all_goals simp

theorem collapse_map (patience : Nat) (runs : List (Waiting α)) :
    collapse before patience (runs.map (Waiting.map f)) =
      (collapse (standing f before) patience runs).map f := by
  match runs with
  | [] => simp [collapse]
  | [run] => simp [collapse, Waiting.map]
  | [top, second] =>
    simp only [List.map_cons, List.map_nil, collapse, joinRuns_map]
    rfl
  | top :: second :: third :: below =>
    rw [List.map_cons, List.map_cons, List.map_cons, collapse, collapse]
    simp only [joinRuns_map, Prod.map, id]
    have shorter := collapse_map (joinRuns (standing f before) patience third second).2
      (top :: (joinRuns (standing f before) patience third second).1 :: below)
    have longer := collapse_map (joinRuns (standing f before) patience second top).2
      ((joinRuns (standing f before) patience second top).1 :: third :: below)
    rw [List.map_cons, List.map_cons] at shorter longer
    rw [shorter, longer, ← apply_ite (List.map f)]
    rfl
termination_by runs.length

theorem mergeAll_map (items : List α) :
    mergeAll before (items.map f) = (mergeAll (standing f before) items).map f := by
  rw [mergeAll, mergeAll, List.length_map]
  have pushed := pushRuns_map f before items.length (leastRun items.length 0) items.length 0 items
    ⟨[], worthwhile⟩
  rw [show (⟨[], worthwhile⟩ : Stack β) = Stack.map f ⟨[], worthwhile⟩ from rfl, pushed]
  exact collapse_map f before _ _

/-- Items that stand for others are sorted as those are. -/
theorem sort_map (placed : β → Bool) (items : List α) : sort before placed (items.map f) =
    (sort (standing f before) (placed ∘ f) items).map f := by
  rw [sort, sort, List.all_map]
  split
  · exact (List.map_mergeSort (f := f) fun _ _ _ _ => rfl).symm
  · exact mergeAll_map f before items

end

end Metamorph.Sorting
