import Mathlib.Data.List.InsertIdx
import Mathlib.Data.List.Perm.Basic
import Metamorph.Sorting

/-! Sorting loses nothing and makes nothing up: whatever the relation, the outcome has the items of the
list, in another order. -/
namespace Metamorph.Sorting
open List
variable {α : Type} (before : α → α → Bool)

/-! Runs. -/

theorem splitRun_append (follows : α → α → Bool) (x : α) (items : List α) :
    (splitRun follows x items).1 ++ (splitRun follows x items).2 = x :: items := by
  induction items generalizing x with
  | nil => rfl
  | cons y rest ih =>
    rw [splitRun]
    split
    · exact congrArg (x :: ·) (ih y)
    · rfl

theorem splitRun_ne_nil (follows : α → α → Bool) (x : α) (items : List α) :
    (splitRun follows x items).1 ≠ [] := by
  cases items with
  | nil => exact cons_ne_nil _ _
  | cons y rest =>
    rw [splitRun]
    split <;> exact cons_ne_nil _ _

theorem firstRun_perm (items : List α) :
    ((firstRun before items).1 ++ (firstRun before items).2).Perm items := by
  match items with
  | [] => exact .refl _
  | [x] => exact .refl _
  | x :: y :: rest =>
    rw [firstRun]
    split
    · have whole := splitRun_append before x (y :: rest)
      exact ((reverse_perm _).append_right _).trans (.of_eq whole)
    · exact .of_eq (splitRun_append _ x (y :: rest))

theorem firstRun_ne_nil {items : List α} (some : items ≠ []) : (firstRun before items).1 ≠ [] := by
  match items with
  | [] => exact absurd rfl some
  | [x] => exact cons_ne_nil _ _
  | x :: y :: rest =>
    rw [firstRun]
    split
    · exact reverse_ne_nil_iff.2 (splitRun_ne_nil before x (y :: rest))
    · exact splitRun_ne_nil _ x (y :: rest)

theorem bisect_le (p : α → Bool) (backward : Bool) (items : List α) {low high : Nat}
    (ordered : low ≤ high) : bisect p backward items low high ≤ high := by
  induction low, high using bisect.induct p backward items with
  | case1 low high inside middle holds ih =>
    rw [bisect, if_pos inside]
    refine le_of_eq_of_le (if_pos holds) (ih ?_)
    simp only [middle]
    omega
  | case2 low high inside middle fails ih =>
    rw [bisect, if_pos inside]
    have below : low ≤ middle ∧ middle ≤ high := by simp only [middle]; omega
    exact le_of_eq_of_le (if_neg fails) (Nat.le_trans (ih below.1) below.2)
  | case3 low high outside =>
    rw [bisect, if_neg outside]
    exact ordered

theorem insert_perm (items : List α) (x : α) : (insert before items x).Perm (x :: items) :=
  perm_insertIdx x items (bisect_le _ _ _ (Nat.zero_le _))

theorem foldl_insert_perm (run more : List α) :
    (more.foldl (insert before) run).Perm (run ++ more) := by
  induction more generalizing run with
  | nil => simp
  | cons x rest ih =>
    rw [foldl_cons]
    calc rest.foldl (insert before) (insert before run x)
      _ ~ insert before run x ++ rest := ih _
      _ ~ x :: run ++ rest := (insert_perm before run x).append_right rest
      _ ~ run ++ x :: rest := perm_middle.symm

theorem nextRun_perm (least : Nat) (items : List α) :
    ((nextRun before least items).1 ++ (nextRun before least items).2).Perm items := by
  simp only [nextRun]
  calc _ ~ ((firstRun before items).1 ++ (firstRun before items).2.take _) ++
          (firstRun before items).2.drop _ := (foldl_insert_perm before _ _).append_right _
    _ ~ (firstRun before items).1 ++ (firstRun before items).2 := by
        rw [append_assoc, take_append_drop]
    _ ~ items := firstRun_perm before items

/-- A run takes something from what is left. -/
theorem nextRun_length_lt (least : Nat) {items : List α} (some : items ≠ []) :
    (nextRun before least items).2.length < items.length := by
  have whole := (nextRun_perm before least items).length_eq
  have run : 0 < (nextRun before least items).1.length := by
    simp only [nextRun]
    rw [(foldl_insert_perm before _ _).length_eq, length_append]
    have first := length_pos_iff.2 (firstRun_ne_nil before some)
    omega
  rw [length_append] at whole
  omega

/-! Merges. -/

/-- The items in place and those that are left. -/
def Merging.all (s : Merging α) : List α := s.merged ++ (s.left ++ s.right)

theorem takeLeft_perm (s : Merging α) (k : Nat) : (s.takeLeft k).all.Perm s.all := by
  simp only [Merging.all, Merging.takeLeft]
  calc (s.left.take k).reverse ++ s.merged ++ (s.left.drop k ++ s.right)
    _ ~ s.merged ++ s.left.take k ++ (s.left.drop k ++ s.right) :=
        (perm_append_comm.trans ((reverse_perm _).append_left _)).append_right _
    _ = s.merged ++ (s.left ++ s.right) := by
        rw [append_assoc, ← append_assoc (s.left.take k), take_append_drop]

theorem takeRight_perm (s : Merging α) (k : Nat) : (s.takeRight k).all.Perm s.all := by
  simp only [Merging.all, Merging.takeRight]
  calc (s.right.take k).reverse ++ s.merged ++ (s.left ++ s.right.drop k)
    _ ~ s.merged ++ s.right.take k ++ (s.left ++ s.right.drop k) :=
        (perm_append_comm.trans ((reverse_perm _).append_left _)).append_right _
    _ ~ s.merged ++ (s.left ++ s.right) := by
        rw [append_assoc]
        refine Perm.append_left _ ?_
        calc s.right.take k ++ (s.left ++ s.right.drop k)
          _ ~ s.left ++ (s.right.take k ++ s.right.drop k) := by
              rw [← append_assoc, ← append_assoc]
              exact perm_append_comm.append_right _
          _ = s.left ++ s.right := by rw [take_append_drop]

theorem outcome_perm (s : Merging α) : s.outcome.Perm s.all := by
  obtain ⟨merged, left, right⟩ := s
  have front : merged.reverse.Perm merged := reverse_perm _
  match left with
  | [x] =>
    simp only [Merging.outcome, Merging.all]
    rw [append_assoc]
    exact front.append perm_append_comm
  | [] | _ :: _ :: _ =>
    simp only [Merging.outcome, Merging.all]
    rw [append_assoc]
    exact front.append_right _

theorem strideLeft_perm (backward : Bool) (s : Merging α) :
    (strideLeft before backward s).1.all.Perm s.all := by
  unfold strideLeft
  split
  · exact .refl _
  · dsimp only
    split
    · exact takeLeft_perm s _
    · exact (takeRight_perm _ 1).trans (takeLeft_perm s _)

theorem strideRight_perm (backward : Bool) (s : Merging α) :
    (strideRight before backward s).1.all.Perm s.all := by
  unfold strideRight
  split
  · exact .refl _
  · dsimp only
    split
    · exact takeRight_perm s _
    · exact (takeLeft_perm _ 1).trans (takeRight_perm s _)

theorem mergeOn_perm (backward : Bool) (fuel : Nat) (pace : Pace) (patience : Nat) (s : Merging α) :
    (mergeOn before backward fuel pace patience s).1.all.Perm s.all := by
  induction fuel generalizing pace patience s with
  | zero => exact .refl _
  | succ fuel ih =>
    cases pace with
    | steps fromRight streak =>
      rw [mergeOn]
      split
      · rename_i x _ y _ _ _
        have step : (if before y x = true then s.takeRight 1 else s.takeLeft 1).all.Perm s.all := by
          split
          · exact takeRight_perm s 1
          · exact takeLeft_perm s 1
        dsimp only
        generalize (if before y x = true then s.takeRight 1 else s.takeLeft 1) = next at step ⊢
        split_ifs
        · exact step
        all_goals exact (ih _ _ _).trans step
      · exact .refl _
    | strides =>
      -- Which side goes first depends on the direction.
      obtain ⟨first, second, sides, left, right⟩ : ∃ first second : Merging α → Merging α × Nat,
          (if backward = true then (strideRight before backward, strideLeft before backward)
            else (strideLeft before backward, strideRight before backward)) = (first, second) ∧
          (∀ s, (first s).1.all.Perm s.all) ∧ ∀ s, (second s).1.all.Perm s.all := by
        cases backward
        · exact ⟨_, _, rfl, strideLeft_perm before _, strideRight_perm before _⟩
        · exact ⟨_, _, rfl, strideRight_perm before _, strideLeft_perm before _⟩
      rw [mergeOn]
      simp only [sides]
      split_ifs
      · exact left s
      · exact (right _).trans (left s)
      all_goals exact (ih _ _ _).trans ((right _).trans (left s))

theorem mergeFrom_perm (backward : Bool) (patience : Nat) (left right : List α) :
    (mergeFrom before backward patience left right).1.Perm (left ++ right) := by
  have start : (Merging.takeRight ⟨[], left, right⟩ 1).all.Perm (left ++ right) := takeRight_perm _ 1
  unfold mergeFrom
  dsimp only
  split
  · exact (outcome_perm _).trans start
  · exact ((outcome_perm _).trans (mergeOn_perm before _ _ _ _ _)).trans start

theorem mergeRuns_perm (patience : Nat) (left right : List α) :
    (mergeRuns before patience left right).1.Perm (left ++ right) := by
  unfold mergeRuns
  split
  · rename_i none
    rw [head?_eq_none_iff.1 none, append_nil]
  · rename_i y head
    generalize gallop (fun x => !before y x) false left = k
    simp only [splitAt_eq]
    split
    · rename_i none
      have nothing := getLast?_eq_none_iff.1 none
      have front : left.take k = left := by simpa [nothing] using take_append_drop k left
      rw [front]
    · rename_i x last
      generalize gallop (fun z => !before z x) true right.reverse = l
      have ending : (right.reverse.drop l).reverse ++ (right.reverse.take l).reverse = right := by
        rw [← reverse_append, take_append_drop, reverse_reverse]
      -- What is merged stands between the two ends.
      have around {middle : List α}
          (merged : middle.Perm (left.drop k ++ (right.reverse.drop l).reverse)) :
          (left.take k ++ middle ++ (right.reverse.take l).reverse).Perm (left ++ right) := by
        calc left.take k ++ middle ++ (right.reverse.take l).reverse
          _ ~ left.take k ++ (left.drop k ++ (right.reverse.drop l).reverse) ++
              (right.reverse.take l).reverse := (merged.append_left _).append_right _
          _ = left ++ right := by
              rw [← append_assoc, take_append_drop, append_assoc, ending]
      split
      · rename_i empty
        rw [List.isEmpty_iff] at empty
        exact around (by rw [empty, append_nil])
      · split
        · exact around (mergeFrom_perm before _ _ _ _)
        · refine around ((reverse_perm _).trans ((mergeFrom_perm _ _ _ _ _).trans ?_))
          exact perm_append_comm.trans ((reverse_perm _).append (reverse_perm _))

/-! Runs that wait. -/

/-- The items of the runs, the last run first. -/
def waitingItems (runs : List (Waiting α)) : List α := runs.flatMap (·.items)

theorem joinRuns_perm (patience : Nat) (left right : Waiting α) :
    (joinRuns before patience left right).1.items.Perm (left.items ++ right.items) :=
  mergeRuns_perm before patience left.items right.items

theorem settle_perm (level patience : Nat) (top : Waiting α) (below : List (Waiting α)) :
    (waitingItems (settle before level patience top below).runs).Perm
      (waitingItems (top :: below)) := by
  induction below generalizing top patience with
  | nil => exact .refl _
  | cons next rest ih =>
    rw [settle]
    split
    · refine (ih _ _).trans ?_
      have joined := joinRuns_perm before patience next top
      simp only [waitingItems, flatMap_cons]
      rw [← append_assoc]
      exact (joined.trans perm_append_comm).append_right _
    · exact .refl _

theorem push_perm (n start : Nat) (run : List α) (stack : Stack α) :
    (waitingItems (push before n start run stack).runs).Perm (run ++ waitingItems stack.runs) := by
  unfold push
  cases runs : stack.runs with
  | nil => exact .refl _
  | cons top below =>
    simp only [waitingItems, flatMap_cons]
    exact (settle_perm before _ _ top below).append_left run

theorem pushRuns_perm (n least fuel start : Nat) (items : List α) (stack : Stack α)
    (enough : items.length ≤ fuel) :
    (waitingItems (pushRuns before n least fuel start items stack).runs).Perm
      (items ++ waitingItems stack.runs) := by
  induction fuel generalizing start items stack with
  | zero =>
    obtain rfl := eq_nil_of_length_eq_zero (Nat.le_zero.1 enough)
    exact .refl _
  | succ fuel ih =>
    cases items with
    | nil => exact .refl _
    | cons x rest =>
      rw [pushRuns.eq_3 _ _ _ _ _ _ _ (cons_ne_nil x rest)]
      have shorter := nextRun_length_lt before least (cons_ne_nil x rest)
      have whole := nextRun_perm before least (x :: rest)
      generalize nextRun before least (x :: rest) = next at shorter whole ⊢
      obtain ⟨run, others⟩ := next
      dsimp only at shorter whole ⊢
      calc waitingItems (pushRuns before n least fuel _ others _).runs
        _ ~ others ++ waitingItems (push before n start run stack).runs := ih _ _ _ (by omega)
        _ ~ others ++ (run ++ waitingItems stack.runs) := (push_perm before _ _ _ _).append_left _
        _ ~ run ++ others ++ waitingItems stack.runs := by
            rw [← append_assoc]
            exact perm_append_comm.append_right _
        _ ~ x :: rest ++ waitingItems stack.runs := whole.append_right _

theorem collapse_perm (patience : Nat) (runs : List (Waiting α)) :
    (collapse before patience runs).Perm (waitingItems runs) := by
  induction patience, runs using collapse.induct before with
  | case1 => exact .of_eq (by rw [collapse]; rfl)
  | case2 => exact .of_eq (by rw [collapse]; simp [waitingItems])
  | case3 patience top second third below shorter joined next same ih =>
    rw [collapse, if_pos shorter, same]
    refine ih.trans ?_
    have merged := joinRuns_perm before patience third second
    rw [same] at merged
    simp only [waitingItems, flatMap_cons]
    rw [← append_assoc second.items]
    exact ((merged.trans perm_append_comm).append_right _).append_left _
  | case4 patience top second third below longer joined next same ih =>
    rw [collapse, if_neg longer, same]
    refine ih.trans ?_
    have merged := joinRuns_perm before patience second top
    rw [same] at merged
    simp only [waitingItems, flatMap_cons]
    rw [← append_assoc top.items]
    exact (merged.trans perm_append_comm).append_right _
  | case5 patience top second =>
    rw [collapse]
    refine (joinRuns_perm before patience second top).trans ?_
    simpa [waitingItems] using perm_append_comm

theorem mergeAll_perm (items : List α) : (mergeAll before items).Perm items := by
  unfold mergeAll
  refine (collapse_perm before _ _).trans ((pushRuns_perm before _ _ _ _ _ _ (Nat.le_refl _)).trans ?_)
  simp [waitingItems]

/-- The items of a sorted list are those of the list. -/
theorem sort_perm (placed : α → Bool) (items : List α) : (sort before placed items).Perm items := by
  unfold sort
  split
  · exact mergeSort_perm _ _
  · exact mergeAll_perm before items

end Metamorph.Sorting
