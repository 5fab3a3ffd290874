import Metamorph.Collection.Iteration
import Metamorph.Operation.OnNumber
import Metamorph.Operation.Operator
import Metamorph.Proofs.Multiplicity
import Metamorph.Proofs.Naturality
import Metamorph.Proofs.Scope
import Metamorph.Proofs.SortingPermutation

/-! Values and faults that keep to a norm. A norm asks something of the items of collections without
repeats, at every depth, and allows certain faults, all ordinary ones among them. Operations on values
that keep to the norm come to values that do, or end with faults that it allows. -/
namespace Metamorph

/-- A rule was to be recorded for a source that it was recorded for already. -/
def Fault.isDuplicate : Fault → Bool
  | .diagnosed d => match d.cause with
    | .duplicateTrace _ _ => true
    | _ => false
  | _ => false

structure Norm where
  asked : List Value → Prop
  allowed : Fault → Prop
  sublist : ∀ {items others}, asked items → List.Sublist others items → asked others
  perm : ∀ {items others}, asked items → items.Perm others → asked others
  front : ∀ {v : Value} {items}, asked items → (∀ u ∈ items, u.key ≠ v.key) → asked (v :: items)
  distinct : ∀ items, asked (Value.distinct items)
  ordinary : ∀ {fault : Fault}, fault.isDuplicate = false → allowed fault
  located : ∀ {fault : Fault} span, allowed fault → allowed (fault.locate span)

mutual

/-- At every depth the items of collections without repeats are as the norm asks. -/
@[simp]
def Value.Meets (norm : Norm) : Value → Prop
  | .collection kind items => (kind.unique = true → norm.asked items) ∧ AllMeet norm items
  | .tuple fields => FieldsMeet norm fields
  | .list _ items => AllMeet norm items
  | .undefined | .boolean _ | .integer _ | .real _ | .complex _ _ _ | .string _ | .type _
  | .object _ | .thisModule _ => True

def AllMeet (norm : Norm) : List Value → Prop
  | [] => True
  | v :: rest => v.Meets norm ∧ AllMeet norm rest

def FieldsMeet (norm : Norm) : List (String × Value) → Prop
  | [] => True
  | (_, v) :: rest => v.Meets norm ∧ FieldsMeet norm rest

end

variable {norm : Norm} {v w : Value} {items others : List Value}

@[simp]
theorem allMeet_iff : AllMeet norm items ↔ ∀ v ∈ items, v.Meets norm := by
  induction items with
  | nil => simp [AllMeet]
  | cons v rest ih => rw [AllMeet, ih, List.forall_mem_cons]

@[simp]
theorem fieldsMeet_iff {fields : List (String × Value)} :
    FieldsMeet norm fields ↔ ∀ field ∈ fields, field.2.Meets norm := by
  induction fields with
  | nil => simp [FieldsMeet]
  | cons field rest ih => rw [FieldsMeet, ih, List.forall_mem_cons]

/-- A table of values that keep to the norm. -/
def Norm.Table (norm : Norm) (table : Named Value) : Prop := ∀ entry ∈ table, entry.2.Meets norm

namespace Norm.Table
variable {table more : Named Value} {name : String}

theorem get? (meets : norm.Table table) (found : table.get? name = some v) : v.Meets norm :=
  Named.Each.get? meets found

theorem getD (meets : norm.Table table) (default : v.Meets norm) :
    ((table.get? name).getD v).Meets norm :=
  Named.Each.getD meets default

theorem set (meets : norm.Table table) (own : v.Meets norm) : norm.Table (table.set name v) :=
  Named.Each.set meets own

theorem update (meets : norm.Table table) (rest : norm.Table more) :
    norm.Table (table.update more) :=
  Named.Each.update meets rest

theorem ofPairs (meets : norm.Table more) : norm.Table (Named.ofPairs more) :=
  Named.Each.ofPairs meets

theorem zip {names : List String} (meets : ∀ v ∈ items, v.Meets norm) :
    norm.Table (names.zip items) :=
  Named.Each.zip meets

end Norm.Table

/-- The result keeps to the norm: a value with the property, or a fault that is allowed. -/
inductive Norm.Sound {α : Type} (norm : Norm) (post : α → Prop) : Result α → Prop
  | ok {a : α} (holds : post a) : Norm.Sound norm post (.ok a)
  | refused {fault : Fault} (allowed : norm.allowed fault) : Norm.Sound norm post (.error fault)

/-- The result is a value that keeps to the norm, or a fault that does. -/
abbrev Norm.Yields (norm : Norm) : Result Value → Prop := norm.Sound (·.Meets norm)

/-- The fault, if there is one, is allowed. -/
abbrev Norm.Fails {α : Type} (norm : Norm) : Result α → Prop := norm.Sound fun _ => True

namespace Norm.Sound
variable {α β : Type} {post : α → Prop} {next : β → Prop}

theorem error {fault : Fault} (usual : fault.isDuplicate = false) :
    norm.Sound post (.error fault : Result α) :=
  .refused (norm.ordinary usual)

theorem bind {result : Result α} {f : α → Result β} (first : norm.Sound post result)
    (rest : ∀ a, post a → norm.Sound next (f a)) : norm.Sound next (result >>= f) := by
  cases first with
  | ok holds => exact rest _ holds
  | refused allowed => exact .refused allowed

theorem map {result : Result α} {f : α → β} (first : norm.Sound post result)
    (rest : ∀ a, post a → next (f a)) : norm.Sound next (result.map f) := by
  cases first with
  | ok holds => exact .ok (rest _ holds)
  | refused allowed => exact .refused allowed

end Norm.Sound

open Metamorph.Norm

theorem Norm.collaborator {fault : Fault} (target : String) (allowed : norm.allowed fault) :
    norm.allowed (fault.ofCollaborator target) := by
  cases fault with
  | host failure => exact norm.ordinary rfl
  | _ => exact allowed

theorem Environment.lookup_yields {env : Environment} {name : String} {span : Span}
    (meets : ∀ v, env.get? name = some v → v.Meets norm) :
    norm.Yields (env.lookup name span) := by
  unfold Environment.lookup
  split
  · exact .ok (meets _ ‹_›)
  · exact .error rfl

/-! Collections. -/
namespace Value

theorem collection_meets {kind : CollectionKind} (asked : kind.unique = true → norm.asked items)
    (meets : ∀ v ∈ items, v.Meets norm) : (collection kind items).Meets norm := by
  rw [Meets, allMeet_iff]
  exact ⟨asked, meets⟩

theorem Meets.asked {kind : CollectionKind} (meets : (collection kind items).Meets norm)
    (unique : kind.unique = true) : norm.asked items :=
  meets.1 unique

theorem Meets.each {kind : CollectionKind} (meets : (collection kind items).Meets norm) :
    ∀ v ∈ items, v.Meets norm :=
  allMeet_iff.1 meets.2

/-- A collection of some of the items. -/
theorem Meets.sublist {kind : CollectionKind} (meets : (collection kind items).Meets norm)
    (part : others.Sublist items) : (collection kind others).Meets norm :=
  collection_meets (fun unique => norm.sublist (meets.asked unique) part)
    fun v member => meets.each v (part.subset member)

theorem collectionOf_meets {kind : CollectionKind} (meets : ∀ v ∈ items, v.Meets norm) :
    (collectionOf kind items).Meets norm := by
  unfold collectionOf
  refine collection_meets (fun unique => ?_) fun v member => meets v ?_
  · rw [if_pos unique]
    exact norm.distinct items
  · split at member
    · exact (distinct_sublist items).subset member
    · exact member

theorem asCollection_meets (meets : v.Meets norm) :
    (collection v.asCollection.1 v.asCollection.2).Meets norm := by
  cases v with
  | collection kind items => exact meets
  | undefined => exact collection_meets nofun nofun
  | _ => exact collection_meets nofun fun w member => List.mem_singleton.1 member ▸ meets

theorem number_meets (number : v.isNumber = true) : v.Meets norm := by
  cases v with
  | integer | real => trivial
  | _ => cases number

end Value

open Value

namespace Operation
variable {typeOf : Value → String} {op : BinaryOperator}

theorem requireBoolean_fails {name : String} : norm.Fails (requireBoolean typeOf name v) := by
  unfold requireBoolean
  split
  · exact .ok trivial
  · exact .error rfl

theorem requireInteger_fails {name : String} : norm.Fails (requireInteger typeOf name v) := by
  unfold requireInteger
  split
  · exact .ok trivial
  · exact .error rfl

theorem requireText_fails {name : String} : norm.Fails (requireText typeOf name v) := by
  unfold requireText
  split
  · exact .ok trivial
  · exact .error rfl

theorem requireNumber_fails {name : String} :
    norm.Sound (·.isNumber = true) (requireNumber typeOf name v) := by
  unfold requireNumber
  split
  · exact .ok ‹_›
  · exact .error rfl

theorem asReal_fails : norm.Fails (asReal v) := by
  unfold asReal
  split
  · split
    · exact .ok trivial
    · exact .error rfl
  · exact .ok trivial
  · exact .error rfl

theorem remainder_fails {x y : Float} : norm.Fails (remainder x y) := by
  unfold remainder
  split
  · exact .ok trivial
  · exact .ok trivial
  · exact .error rfl
  · exact .error rfl
  · exact .ok trivial

theorem onIntegers_yields {a b : Int} : norm.Yields (onIntegers op a b) := by
  unfold onIntegers
  split
  case h_4 | h_5 | h_6 =>
    split
    · exact .error rfl
    · exact .ok trivial
  case h_7 => exact .error rfl
  all_goals exact .ok trivial

theorem onReals_yields {x y : Float} : norm.Yields (onReals op x y) := by
  unfold onReals
  split
  case h_4 =>
    split
    · exact .error rfl
    · exact .ok trivial
  case h_5 =>
    split
    · exact .error rfl
    · exact remainder_fails.map fun _ _ => trivial
  case h_6 => exact .error rfl
  all_goals exact .ok trivial

theorem arithmetic_yields : norm.Yields (arithmetic typeOf op v w) := by
  unfold arithmetic
  split
  · exact .ok trivial
  · exact onIntegers_yields
  · split
    · split
      · exact .error rfl
      · exact asReal_fails.bind fun _ _ => asReal_fails.bind fun _ _ => onReals_yields
    · exact .error rfl

theorem compare_fails : norm.Fails (compare typeOf op v w) := by
  unfold compare
  split
  · exact .ok trivial
  · exact .error rfl

end Operation

namespace Collection
open Operation
variable {typeOf : Value → String} {kind : CollectionKind}

theorem indexText_fails {n : Int} : norm.Fails (indexText n) := by
  unfold indexText
  split
  · exact .error rfl
  · exact .ok trivial

theorem at?_yields (meets : ∀ v ∈ items, v.Meets norm) : norm.Yields (at? typeOf items w) := by
  unfold at?
  split
  · rename_i i
    split
    · rename_i item found
      refine .ok (meets item ?_)
      split at found
      · exact List.mem_of_getElem? found
      · cases found
    · exact indexText_fails.bind fun _ _ => .error rfl
  · exact .error rfl

theorem algebra_yields {op : Combination} {join : List Value → List Value → List Value}
    (meets : ∀ v ∈ items, v.Meets norm) (argument : w.Meets norm)
    (part : ∀ others, join items others ⊆ items ++ others) :
    norm.Yields (algebra typeOf op join kind items w) := by
  cases w with
  | collection other others =>
    refine .ok (collectionOf_meets fun v member => ?_)
    rcases List.mem_append.1 (part others member) with own | added
    · exact meets v own
    · exact argument.each v added
  | _ => exact .error rfl

theorem excluding_meets (meets : (collection kind items).Meets norm) :
    (collection kind (excluding items v)).Meets norm :=
  meets.sublist List.filter_sublist

/-- The item in front is not among the others where repeats are not kept. -/
theorem prepend_meets (meets : (collection kind items).Meets norm) (own : v.Meets norm) :
    (collection kind (prepend kind items v)).Meets norm := by
  unfold prepend
  have rest := excluding_meets (v := v) meets
  split
  · refine collection_meets (fun unique => norm.front (rest.asked unique) fun u member => ?_)
      (List.forall_mem_cons.2 ⟨own, rest.each⟩)
    simpa [excluding] using (List.mem_filter.1 member).2
  · rename_i repeats
    exact collection_meets (fun unique => absurd unique repeats)
      (List.forall_mem_cons.2 ⟨own, meets.each⟩)

theorem combine_yields {op : Combination} (meets : (collection kind items).Meets norm)
    (argument : w.Meets norm) : norm.Yields (combine typeOf op kind items w) := by
  have extended : ∀ v ∈ items ++ [w], v.Meets norm := by
    intro v member
    rcases List.mem_append.1 member with own | added
    · exact meets.each v own
    · exact List.mem_singleton.1 added ▸ argument
  cases op with
  | union => exact algebra_yields meets.each argument fun _ => List.Subset.refl _
  | intersection =>
    exact algebra_yields meets.each argument fun _ =>
      List.Subset.trans (paired_sublist _ _).subset (List.subset_append_left _ _)
  | difference =>
    exact algebra_yields meets.each argument fun _ =>
      List.Subset.trans List.filter_sublist.subset (List.subset_append_left _ _)
  | including | append => exact .ok (collectionOf_meets extended)
  | excluding => exact .ok (excluding_meets meets)
  | includes | excludes | count | indexOf => exact .ok trivial
  | prepend => exact .ok (prepend_meets meets argument)
  | «at» => exact at?_yields meets.each

theorem plus_yields : norm.Yields (plus v w) := by
  unfold plus
  split
  · exact .ok trivial
  · exact asReal_fails.bind fun _ _ => asReal_fails.bind fun _ _ => .ok trivial

theorem sumFrom_yields {total : Value} (first : total.Meets norm) :
    norm.Yields (sumFrom typeOf total items) := by
  induction items generalizing total with
  | nil => exact .ok first
  | cons item rest ih =>
    rw [sumFrom]
    split
    · exact plus_yields.bind fun _ => ih
    · exact .error rfl

theorem forall_mem_leavesOfAll {p : Value → Prop} (each : ∀ v ∈ items, ∀ u ∈ leaves v, p u) :
    ∀ u ∈ leavesOfAll items, p u := by
  induction items with
  | nil => exact List.forall_mem_nil _
  | cons v rest ih =>
    obtain ⟨first, others⟩ := List.forall_mem_cons.1 each
    rw [leavesOfAll]
    exact List.forall_mem_append.2 ⟨first, ih others⟩

/-- What passes from a collection to its items holds of its leaves. -/
theorem forall_mem_leaves {p : Value → Prop}
    (passes : ∀ kind items, p (.collection kind items) → ∀ v ∈ items, p v) (v : Value) (own : p v) :
    ∀ u ∈ leaves v, p u := by
  induction v using nested_induction with
  | single v is =>
    rw [leaves_single is]
    exact List.forall_mem_singleton.2 own
  | nested kind items each =>
    have inner := forall_mem_leavesOfAll fun v member => each v member (passes kind items own v member)
    rw [leaves]
    split
    · exact fun u member => inner u ((distinct_sublist _).subset member)
    · exact inner

theorem leavesOfAll_meet (meets : ∀ v ∈ items, v.Meets norm) : ∀ u ∈ leavesOfAll items, u.Meets norm :=
  forall_mem_leavesOfAll fun v member => forall_mem_leaves (fun _ _ => Meets.each) v (meets v member)

theorem query_yields {op : Query} (meets : (collection kind items).Meets norm) :
    norm.Yields (query typeOf op kind items) := by
  cases op with
  | size | isEmpty | notEmpty => exact .ok trivial
  | first =>
    cases items with
    | nil => exact .ok trivial
    | cons v rest => exact .ok (meets.each v List.mem_cons_self)
  | last =>
    unfold query
    cases last : items.getLast? with
    | none => exact .ok trivial
    | some v => exact .ok (meets.each v (List.mem_of_getLast? last))
  | sum => exact sumFrom_yields trivial
  | flatten => exact .ok (collectionOf_meets (leavesOfAll_meet meets.each))
  | reverse =>
    refine .ok (collection_meets (fun unique => ?_) fun v member => meets.each v (List.mem_reverse.1 member))
    exact norm.perm (meets.asked unique) (List.reverse_perm items).symm
  | convert target =>
    unfold query
    dsimp only
    unfold convert
    split
    · exact .ok meets
    · exact .ok (collectionOf_meets meets.each)

end Collection

namespace Operation
variable {typeOf : Value → String}

theorem binary_yields {op : BinaryOperator} (left : v.Meets norm) (right : w.Meets norm) :
    norm.Yields (binary typeOf op v w) := by
  unfold binary
  split
  · exact .ok trivial
  · exact .ok trivial
  · split
    · exact compare_fails.map fun _ _ => trivial
    · split
      · exact requireBoolean_fails.bind fun _ _ => requireBoolean_fails.bind fun _ _ => .ok trivial
      · split
        · exact Collection.combine_yields left right
        · exact .error rfl
        · split
          · exact Collection.combine_yields left right
          · exact arithmetic_yields
        · exact arithmetic_yields

theorem unary_yields {op : UnaryOperator} : norm.Yields (unary typeOf op v) := by
  unfold unary
  split
  · exact requireBoolean_fails.map fun _ _ => trivial
  · exact .ok trivial
  · exact .ok trivial
  · exact .error rfl

theorem floorOfReal_fails {x : Float} : norm.Fails (floorOfReal x) := by
  unfold floorOfReal
  split
  · exact .ok trivial
  · exact .error rfl
  · exact .error rfl

theorem inRange_yields {x : Float} : norm.Yields (inRange x) := by
  unfold inRange
  split
  · exact .error rfl
  · exact .ok trivial

theorem realPower_yields {fresh : Identity} {x y : Float} : norm.Yields (realPower fresh x y) := by
  unfold realPower complexPower
  dsimp only
  split_ifs
  all_goals first
    | exact .ok trivial
    | exact .error rfl
    | exact inRange_yields

theorem power_yields {fresh : Identity} : norm.Yields (power fresh v w) := by
  unfold power
  split
  · split
    · exact .ok trivial
    · exact asReal_fails.bind fun _ _ => asReal_fails.bind fun _ _ => realPower_yields
  · exact asReal_fails.bind fun _ _ => asReal_fails.bind fun _ _ => realPower_yields

theorem onNumber_yields {fresh : Identity} {op : OnNumber} {args : List Value}
    (number : v.isNumber = true) : norm.Yields (onNumber typeOf fresh op v args) := by
  have own : v.Meets norm := number_meets number
  have integer {f : Int → Bool} : norm.Yields
      ((requireInteger typeOf op.text v).bind fun n => .ok (.boolean (f n))) :=
    requireInteger_fails.bind fun _ _ => .ok trivial
  unfold onNumber
  split
  · cases v <;> exact .ok own
  · cases v with
    | real x => exact floorOfReal_fails.map fun _ _ => trivial
    | _ => exact .ok own
  · exact asReal_fails.bind fun _ _ => floorOfReal_fails.bind fun _ _ => .ok trivial
  · refine requireNumber_fails.bind fun w number => .ok ?_
    split
    · exact number_meets number
    · exact own
  · refine requireNumber_fails.bind fun w number => .ok ?_
    split
    · exact number_meets number
    · exact own
  · exact arithmetic_yields
  · exact arithmetic_yields
  · exact requireNumber_fails.bind fun _ _ => power_yields
  · exact integer
  · exact integer
  · exact arithmetic_yields
  · exact .error rfl

theorem substring_yields {text : String} {low high : Int} :
    norm.Yields (substring text low high) := by
  unfold substring
  split
  · exact .ok trivial
  · exact Collection.indexText_fails.bind fun _ _ =>
      Collection.indexText_fails.bind fun _ _ => .error rfl

theorem readLiteral_yields {op : OnText} {expected text : String} {read : Option Value}
    (meets : ∀ v ∈ read, v.Meets norm) : norm.Yields (readLiteral op expected text read) := by
  unfold readLiteral
  split
  · exact .ok (meets _ rfl)
  · exact .error rfl

theorem onText_yields {op : OnText} {text : String} {args : List Value} :
    norm.Yields (onText typeOf op text args) := by
  unfold onText
  split
  case h_2 | h_9 | h_10 | h_11 => exact requireText_fails.bind fun _ _ => .ok trivial
  case h_8 =>
    exact requireInteger_fails.bind fun _ _ => requireInteger_fails.bind fun _ _ => substring_yields
  case h_12 | h_13 =>
    refine readLiteral_yields fun v read => ?_
    obtain ⟨_, -, rfl⟩ := Option.map_eq_some_iff.1 read
    trivial
  case h_14 =>
    refine .ok (collection_meets nofun fun v member => ?_)
    obtain ⟨c, -, rfl⟩ := List.mem_map.1 member
    trivial
  case h_15 => exact .error rfl
  all_goals exact .ok trivial

end Operation

end Metamorph
