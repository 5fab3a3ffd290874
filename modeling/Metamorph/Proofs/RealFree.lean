import Metamorph.Proofs.Norm

/-! The language without Reals. Operations on values that hold no Real come to such values, and where
they fail they do so with an error of the engine. It takes a Real to leave the range of numbers. -/
namespace Metamorph

/-- Errors of the engine, and the failure to write out an Integer that is too long. -/
def Fault.reported : Fault → Bool
  | .diagnosed _ | .number .textTooLong => true
  | _ => false

/-- What a collaborator may raise: errors of the host, or those of the engine. -/
def Fault.raisable : Fault → Bool
  | .host _ => true
  | fault => fault.reported

/-- The result is a value with the property, or else a fault of the kind. -/
inductive Safely {α : Type} (kind : Fault → Bool) (post : α → Prop) : Result α → Prop
  | ok {a : α} (holds : post a) : Safely kind post (.ok a)
  | error {fault : Fault} (is : kind fault = true) : Safely kind post (.error fault)

/-- The result of an operation of the engine. -/
abbrev Reports {α : Type} (post : α → Prop) : Result α → Prop := Safely Fault.reported post

/-- The result of asking a collaborator. -/
abbrev Answers {α : Type} (post : α → Prop) : Result α → Prop := Safely Fault.raisable post

namespace Safely
variable {α β : Type} {kind : Fault → Bool} {post : α → Prop} {next : β → Prop}

theorem bind {result : Result α} {f : α → Result β} (first : Safely kind post result)
    (rest : ∀ a, post a → Safely kind next (f a)) : Safely kind next (result >>= f) := by
  cases first with
  | ok holds => exact rest _ holds
  | error is => exact .error is

theorem map {result : Result α} {f : α → β} (first : Safely kind post result)
    (rest : ∀ a, post a → next (f a)) : Safely kind next (result.map f) := by
  cases first with
  | ok holds => exact .ok (rest _ holds)
  | error is => exact .error is

end Safely

mutual

/-- No Real is in the value, at any depth, and no power that turned out complex. -/
@[simp]
def Value.RealFree : Value → Prop
  | .real _ | .complex _ _ _ => False
  | .collection _ items | .list _ items => AllRealFree items
  | .tuple fields => FieldsRealFree fields
  | .undefined | .boolean _ | .integer _ | .string _ | .type _ | .object _ | .thisModule _ => True

def AllRealFree : List Value → Prop
  | [] => True
  | v :: rest => v.RealFree ∧ AllRealFree rest

def FieldsRealFree : List (String × Value) → Prop
  | [] => True
  | (_, v) :: rest => v.RealFree ∧ FieldsRealFree rest

end

variable {v w : Value} {items : List Value}

@[simp]
theorem allRealFree_iff : AllRealFree items ↔ ∀ v ∈ items, v.RealFree := by
  induction items with
  | nil => simp [AllRealFree]
  | cons v rest ih => rw [AllRealFree, ih, List.forall_mem_cons]

@[simp]
theorem fieldsRealFree_iff {fields : List (String × Value)} :
    FieldsRealFree fields ↔ ∀ field ∈ fields, field.2.RealFree := by
  induction fields with
  | nil => simp [FieldsRealFree]
  | cons field rest ih => rw [FieldsRealFree, ih, List.forall_mem_cons]

namespace Value

theorem RealFree.each {kind : CollectionKind} (free : (collection kind items).RealFree) :
    ∀ v ∈ items, v.RealFree :=
  allRealFree_iff.1 free

theorem collection_realFree {kind : CollectionKind} (each : ∀ v ∈ items, v.RealFree) :
    (collection kind items).RealFree :=
  allRealFree_iff.2 each

theorem collectionOf_realFree {kind : CollectionKind} (each : ∀ v ∈ items, v.RealFree) :
    (collectionOf kind items).RealFree := by
  refine collection_realFree fun v member => each v ?_
  split at member
  · exact (distinct_sublist items).subset member
  · exact member

theorem RealFree.integer (free : v.RealFree) (number : v.isNumber = true) : ∃ n, v = .integer n := by
  cases v with
  | integer n => exact ⟨n, rfl⟩
  | real => exact free.elim
  | _ => cases number

theorem asCollection_realFree (free : v.RealFree) : ∀ w ∈ v.asCollection.2, w.RealFree := by
  cases v with
  | collection kind items => exact free.each
  | undefined => exact List.forall_mem_nil _
  | _ => exact List.forall_mem_singleton.2 free

theorem RealFree.field {fields : List (String × Value)} {name : String}
    (free : (tuple fields).RealFree) (found : field? fields name = some v) : v.RealFree :=
  Named.Each.get? (fieldsRealFree_iff.1 free) found

end Value

open Value

namespace Operation
variable {typeOf : Value → String} {op : BinaryOperator}

theorem requireBoolean_reports {name : String} :
    Reports (fun _ => True) (requireBoolean typeOf name v) := by
  unfold requireBoolean
  split
  · exact .ok trivial
  · exact .error rfl

theorem requireInteger_reports {name : String} :
    Reports (fun _ => True) (requireInteger typeOf name v) := by
  unfold requireInteger
  split
  · exact .ok trivial
  · exact .error rfl

theorem requireText_reports {name : String} :
    Reports (fun _ => True) (requireText typeOf name v) := by
  unfold requireText
  split
  · exact .ok trivial
  · exact .error rfl

theorem requireNumber_reports {name : String} (own : v.RealFree) :
    Reports (·.RealFree) (requireNumber typeOf name v) := by
  unfold requireNumber
  split
  · exact .ok own
  · exact .error rfl

theorem onIntegers_reports {a b : Int} : Reports (·.RealFree) (onIntegers op a b) := by
  unfold onIntegers
  split
  case h_4 | h_5 | h_6 =>
    split
    · exact .error rfl
    · exact .ok trivial
  case h_7 => exact .error rfl
  all_goals exact .ok trivial

theorem arithmetic_reports (left : v.RealFree) (right : w.RealFree) :
    Reports (·.RealFree) (arithmetic typeOf op v w) := by
  unfold arithmetic
  split
  · exact .ok trivial
  · exact onIntegers_reports
  · rename_i mixed _
    split
    · -- Numbers are taken for doubles only if one of them is a Real.
      rename_i numbers
      obtain ⟨first, second⟩ := Bool.and_eq_true_iff.1 numbers
      obtain ⟨a, rfl⟩ := left.integer first
      obtain ⟨b, rfl⟩ := right.integer second
      exact (mixed a b rfl rfl).elim
    · exact .error rfl

theorem compare_reports : Reports (fun _ => True) (compare typeOf op v w) := by
  unfold compare
  split
  · exact .ok trivial
  · exact .error rfl

end Operation

namespace Collection
open Operation
variable {typeOf : Value → String} {kind : CollectionKind}

theorem indexText_reports {n : Int} : Reports (fun _ => True) (indexText n) := by
  unfold indexText
  split
  · exact .error rfl
  · exact .ok trivial

theorem at?_reports (each : ∀ v ∈ items, v.RealFree) : Reports (·.RealFree) (at? typeOf items w) := by
  unfold at?
  split
  · split
    · rename_i item found
      refine .ok (each item ?_)
      split at found
      · exact List.mem_of_getElem? found
      · cases found
    · exact indexText_reports.bind fun _ _ => .error rfl
  · exact .error rfl

theorem algebra_reports {op : Combination} {join : List Value → List Value → List Value}
    (each : ∀ v ∈ items, v.RealFree) (argument : w.RealFree)
    (part : ∀ others, join items others ⊆ items ++ others) :
    Reports (·.RealFree) (algebra typeOf op join kind items w) := by
  cases w with
  | collection other others =>
    refine .ok (collectionOf_realFree fun v member => ?_)
    rcases List.mem_append.1 (part others member) with own | added
    · exact each v own
    · exact argument.each v added
  | _ => exact .error rfl

theorem combine_reports {op : Combination} (each : ∀ v ∈ items, v.RealFree)
    (argument : w.RealFree) : Reports (·.RealFree) (combine typeOf op kind items w) := by
  have extended : ∀ v ∈ items ++ [w], v.RealFree :=
    List.forall_mem_append.2 ⟨each, List.forall_mem_singleton.2 argument⟩
  have fewer {p : Value → Bool} : ∀ v ∈ items.filter p, v.RealFree :=
    fun v member => each v (List.mem_of_mem_filter member)
  cases op with
  | union => exact algebra_reports each argument fun _ => List.Subset.refl _
  | intersection =>
    exact algebra_reports each argument fun _ =>
      List.Subset.trans (paired_sublist _ _).subset (List.subset_append_left _ _)
  | difference =>
    exact algebra_reports each argument fun _ =>
      List.Subset.trans List.filter_sublist.subset (List.subset_append_left _ _)
  | including | append => exact .ok (collectionOf_realFree extended)
  | excluding => exact .ok (collection_realFree fewer)
  | includes | excludes | count | indexOf => exact .ok trivial
  | prepend =>
    refine .ok (collection_realFree ?_)
    unfold prepend
    split
    · exact List.forall_mem_cons.2 ⟨argument, fewer⟩
    · exact List.forall_mem_cons.2 ⟨argument, each⟩
  | «at» => exact at?_reports each

theorem plus_reports (left : v.RealFree) (right : w.RealFree) (number : w.isNumber = true) :
    Reports (·.RealFree) (plus v w) := by
  obtain ⟨b, rfl⟩ := right.integer number
  cases v with
  | integer a => exact .ok trivial
  | real x => exact left.elim
  | _ => exact .error rfl

theorem sumFrom_reports {total : Value} (first : total.RealFree) (each : ∀ v ∈ items, v.RealFree) :
    Reports (·.RealFree) (sumFrom typeOf total items) := by
  induction items generalizing total with
  | nil => exact .ok first
  | cons item rest ih =>
    obtain ⟨own, others⟩ := List.forall_mem_cons.1 each
    rw [sumFrom]
    split
    · rename_i number
      exact (plus_reports first own number).bind fun _ next => ih next others
    · exact .error rfl

theorem leavesOfAll_realFree (each : ∀ v ∈ items, v.RealFree) : ∀ u ∈ leavesOfAll items, u.RealFree :=
  forall_mem_leavesOfAll fun v member => forall_mem_leaves (fun _ _ => RealFree.each) v (each v member)

theorem query_reports {op : Query} (each : ∀ v ∈ items, v.RealFree) :
    Reports (·.RealFree) (query typeOf op kind items) := by
  cases op with
  | size | isEmpty | notEmpty => exact .ok trivial
  | first =>
    cases items with
    | nil => exact .ok trivial
    | cons v rest => exact .ok (each v List.mem_cons_self)
  | last =>
    unfold query
    cases last : items.getLast? with
    | none => exact .ok trivial
    | some v => exact .ok (each v (List.mem_of_getLast? last))
  | sum => exact sumFrom_reports trivial each
  | flatten => exact .ok (collectionOf_realFree (leavesOfAll_realFree each))
  | reverse => exact .ok (collection_realFree fun v member => each v (List.mem_reverse.1 member))
  | convert target =>
    unfold query
    dsimp only
    unfold convert
    split
    · exact .ok (collection_realFree each)
    · exact .ok (collectionOf_realFree each)

end Collection

namespace Operation
variable {typeOf : Value → String}

theorem binary_reports {op : BinaryOperator} (left : v.RealFree) (right : w.RealFree) :
    Reports (·.RealFree) (binary typeOf op v w) := by
  unfold binary
  split
  · exact .ok trivial
  · exact .ok trivial
  · split
    · exact compare_reports.map fun _ _ => trivial
    · split
      · exact requireBoolean_reports.bind fun _ _ => requireBoolean_reports.bind fun _ _ => .ok trivial
      · split
        · exact Collection.combine_reports left.each right
        · exact .error rfl
        · split
          · exact Collection.combine_reports left.each right
          · exact arithmetic_reports left right
        · exact arithmetic_reports left right

theorem unary_reports {op : UnaryOperator} (own : v.RealFree) :
    Reports (·.RealFree) (unary typeOf op v) := by
  unfold unary
  split
  · exact requireBoolean_reports.map fun _ _ => trivial
  · exact .ok trivial
  · exact own.elim
  · exact .error rfl

theorem onNumber_reports {fresh : Identity} {op : OnNumber} {n : Int} {args : List Value}
    (each : ∀ v ∈ args, v.RealFree) (unrounded : op ≠ .round) (unraised : op ≠ .power) :
    Reports (·.RealFree) (onNumber typeOf fresh op (.integer n) args) := by
  have own : (Value.integer n).RealFree := trivial
  have integer {f : Int → Bool} : Reports Value.RealFree
      ((requireInteger typeOf op.text (.integer n)).bind fun n => .ok (.boolean (f n))) :=
    requireInteger_reports.bind fun _ _ => .ok trivial
  unfold onNumber
  split
  · exact .ok trivial
  · exact .ok trivial
  · exact (unrounded rfl).elim
  · refine (requireNumber_reports (each _ (List.mem_singleton_self _))).bind fun w free => .ok ?_
    split
    · exact free
    · exact own
  · refine (requireNumber_reports (each _ (List.mem_singleton_self _))).bind fun w free => .ok ?_
    split
    · exact free
    · exact own
  · exact arithmetic_reports own (each _ (List.mem_singleton_self _))
  · exact arithmetic_reports own (each _ (List.mem_singleton_self _))
  · exact (unraised rfl).elim
  · exact integer
  · exact integer
  · exact arithmetic_reports own own
  · exact .error rfl

theorem substring_reports {text : String} {low high : Int} :
    Reports (·.RealFree) (substring text low high) := by
  unfold substring
  split
  · exact .ok trivial
  · exact Collection.indexText_reports.bind fun _ _ =>
      Collection.indexText_reports.bind fun _ _ => .error rfl

theorem onText_reports {op : OnText} {text : String} {args : List Value} (unread : op ≠ .toReal) :
    Reports (·.RealFree) (onText typeOf op text args) := by
  unfold onText
  split
  case h_2 | h_9 | h_10 | h_11 => exact requireText_reports.bind fun _ _ => .ok trivial
  case h_8 =>
    exact requireInteger_reports.bind fun _ _ => requireInteger_reports.bind fun _ _ =>
      substring_reports
  case h_12 =>
    unfold readLiteral
    split
    · rename_i read
      obtain ⟨_, -, rfl⟩ := Option.map_eq_some_iff.1 read
      exact .ok trivial
    · exact .error rfl
  case h_13 => exact (unread rfl).elim
  case h_14 =>
    refine .ok (collection_realFree fun v member => ?_)
    obtain ⟨c, -, rfl⟩ := List.mem_map.1 member
    trivial
  case h_15 => exact .error rfl
  all_goals exact .ok trivial

end Operation

/-- The immediate parts of an expression. -/
def Expr.parts : Expr → List Expr
  | .literal _ _ | .variable _ _ | .typeName _ _ | .foreign _ _ => []
  | .navigation source _ _ => [source]
  | .binary _ lhs rhs _ => [lhs, rhs]
  | .unary _ operand _ => [operand]
  | .conditional condition thenBranch elseBranch _ => [condition, thenBranch, elseBranch]
  | .letIn _ init body _ _ => [init, body]
  | .lambda _ body _ => [body]
  | .iterate source _ _ init body _ _ => [source, init, body]
  | .collection _ elements _ => elements
  | .arrow source _ _ body _ => source :: body.toList
  | .method receiver _ args _ => receiver :: args
  | .call _ args _ => args
  | .tuple fields _ => fields.map (·.value)

/-- The operations that make a Real of something else. -/
def realMaking : List String := ["toReal", "power", "round"]

/-- A node of the language without Reals, whatever its parts. -/
def Expr.plain : Expr → Bool
  | .literal (.real _) _ | .foreign _ _ => false
  | .method _ name _ _ => !realMaking.contains name
  | _ => true

/-- An expression of the language without Reals. -/
inductive Expr.RealFree : Expr → Prop
  | node {e : Expr} (plain : e.plain = true) (parts : ∀ part ∈ e.parts, part.RealFree) : e.RealFree

namespace Expr.RealFree
variable {e : Expr}

theorem plain (free : e.RealFree) : e.plain = true := by
  cases free
  assumption

theorem parts (free : e.RealFree) : ∀ part ∈ e.parts, part.RealFree := by
  cases free
  assumption

end Expr.RealFree

end Metamorph
