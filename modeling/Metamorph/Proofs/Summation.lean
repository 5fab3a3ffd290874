import Mathlib.Algebra.BigOperators.Group.List.Basic
import Mathlib.Data.List.Induction
import Metamorph.Proofs.LexicalScope
import Metamorph.Proofs.Naturality
import Metamorph.Proofs.Success
import Metamorph.Proofs.SurfaceForms

/-! The sum of a collection, and a fold that adds up its items. The one adds as the host does and the other by
the operator of the language, with a frame for every item; both come to what the sum is, and where there is
none both fail at the same item. -/
namespace Metamorph

namespace Collection
open Operation Value
variable {typeOf : Value → String} {refusal : Value → Value → Fault} {items before : List Value}
  {total v x : Value}

/-- What items add up to. Integers do so exactly; the first Real makes a double of what there is by then, and
every Integer behind it counts as the double nearest to it. -/
inductive Sums : List Value → Value → Prop
  | integers (ns : List Int) : Sums (ns.map .integer) (.integer ns.sum)
  | doubles (ns : List Int) (y start : Float) (rest : List Value) (ys : List Float)
      (begins : asReal (.integer ns.sum) = .ok start)
      (others : List.Forall₂ (fun v y => asReal v = .ok y) rest ys) :
      Sums (ns.map .integer ++ .real y :: rest) (.real (ys.foldl (· + ·) (start + y)))

theorem Sums.isNumber (sums : Sums items v) : ∀ x ∈ items, x.isNumber = true := by
  cases sums with
  | integers ns =>
    rw [List.forall_mem_map]
    exact fun _ _ => rfl
  | doubles ns y start rest ys begins others =>
    have behind := others.imp fun _ _ double => And.intro (isNumber_of_asReal double) double
    simp only [List.forall_mem_append, List.forall_mem_map, List.forall_mem_cons]
    exact ⟨fun _ _ => rfl, rfl, ((List.forall₂_and_left _ _).1 behind).1⟩

/-- The first item that cannot be added to those before it. -/
structure StopsAt (items before : List Value) (total x : Value) : Prop where
  place : before ++ [x] <+: items
  sums : Sums before total
  none : ∀ v, ¬ Sums (before ++ [x]) v

/-- Either there is a sum or one item is the first that stands in the way. -/
theorem sums_or_stops (items : List Value) :
    (∃ v, Sums items v) ∨ ∃ before total x, StopsAt items before total x := by
  induction items using List.reverseRecOn with
  | nil => exact .inl ⟨_, .integers []⟩
  | append_singleton before x ih =>
    rcases ih with ⟨total, sums⟩ | ⟨earlier, total, y, stops⟩
    · by_cases further : ∃ v, Sums (before ++ [x]) v
      · exact .inl further
      · exact .inr ⟨before, total, x, List.prefix_rfl, sums, not_exists.1 further⟩
    · exact .inr ⟨earlier, total, y, stops.place.trans (List.prefix_append _ _), stops.sums, stops.none⟩

/-- An item is added to what there is so far; for what is no number there is a fault of one's own. -/
def added (refusal : Value → Value → Fault) (total x : Value) : Result Value :=
  if x.isNumber then plus total x else .error (refusal total x)

theorem asReal_of_isNumber (number : v.isNumber = true) :
    (∃ y, asReal v = .ok y) ∨ asReal v = .error (.number .integerTooLarge) := by
  cases v with
  | integer n =>
    cases double : Number.ofInt? n with
    | none => exact .inr (by simp only [asReal, double])
    | some y => exact .inl ⟨y, by simp only [asReal, double]⟩
  | real y => exact .inl ⟨y, rfl⟩
  | _ => cases number

/-- A number is added to a sum, or it is too large for a double. -/
theorem plus_of_sums (sums : Sums before total) (number : x.isNumber = true) :
    (∃ v, plus total x = .ok v ∧ Sums (before ++ [x]) v) ∨
      plus total x = .error (.number .integerTooLarge) := by
  cases sums with
  | integers ns =>
    cases x with
    | integer n =>
      have more := Sums.integers (ns ++ [n])
      rw [List.map_append, List.sum_append, List.sum_singleton] at more
      exact .inl ⟨_, rfl, more⟩
    | real y =>
      rcases asReal_of_isNumber (v := .integer ns.sum) rfl with ⟨start, begins⟩ | large
      · refine .inl ⟨_, ?_, .doubles ns y start [] [] begins .nil⟩
        simp only [plus, begins]
        rfl
      · refine .inr ?_
        simp only [plus, large]
        rfl
    | _ => cases number
  | doubles ns y start rest ys begins others =>
    rcases asReal_of_isNumber number with ⟨z, double⟩ | large
    · refine .inl ⟨.real (ys.foldl (· + ·) (start + y) + z), ?_, ?_⟩
      · simp only [plus, double]
        rfl
      · have more := Sums.doubles ns y start (rest ++ [x]) (ys ++ [z]) begins
          (List.rel_append others (.cons double .nil))
        rw [List.foldl_append] at more
        rw [List.append_assoc]
        exact more
    · refine .inr ?_
      simp only [plus, large]
      rfl

theorem foldlM_integers (refusal : Value → Value → Fault) (m : Int) (ns : List Int) :
    (ns.map Value.integer).foldlM (added refusal) (.integer m) = .ok (.integer (m + ns.sum)) := by
  induction ns generalizing m with
  | nil => rw [List.sum_nil, Int.add_zero]; rfl
  | cons n rest ih =>
    rw [List.map_cons, List.foldlM_cons, List.sum_cons, ← Int.add_assoc]
    exact ih (m + n)

theorem foldlM_doubles {rest : List Value} {ys : List Float} (refusal : Value → Value → Fault) (y : Float)
    (others : List.Forall₂ (fun v y => asReal v = .ok y) rest ys) :
    rest.foldlM (added refusal) (.real y) = .ok (.real (ys.foldl (· + ·) y)) := by
  induction others generalizing y with
  | nil => rfl
  | cons double _ ih =>
    rw [List.foldlM_cons, added, if_pos (isNumber_of_asReal double)]
    simp only [plus, double]
    exact ih _

theorem foldlM_of_sums (sums : Sums items v) : items.foldlM (added refusal) (.integer 0) = .ok v := by
  cases sums with
  | integers ns => rw [foldlM_integers, Int.zero_add]
  | doubles ns y start rest ys begins others =>
    rw [List.foldlM_append, foldlM_integers, Int.zero_add]
    refine Eq.trans ?_ (foldlM_doubles refusal (start + y) others)
    change (added refusal (.integer ns.sum) (.real y) >>= _) = _
    have summed : added refusal (.integer ns.sum) (.real y) = .ok (.real (start + y)) := by
      simp only [added, isNumber, if_true, plus, begins]
      rfl
    rw [summed]
    rfl

/-- Why adding goes no further. -/
def stopFault (refusal : Value → Value → Fault) (total x : Value) : Fault :=
  if x.isNumber then .number .integerTooLarge else refusal total x

theorem foldlM_of_stops (stops : StopsAt items before total x) :
    items.foldlM (added refusal) (.integer 0) = .error (stopFault refusal total x) := by
  obtain ⟨⟨after, rfl⟩, sums, none⟩ := stops
  have fails : added refusal total x = .error (stopFault refusal total x) := by
    unfold added stopFault
    split
    · rename_i number
      rcases plus_of_sums sums number with ⟨v, -, further⟩ | large
      · exact absurd further (none v)
      · exact large
    · rfl
  rw [List.append_assoc, List.foldlM_append, foldlM_of_sums sums]
  change (added refusal total x >>= _) = _
  rw [fails]
  rfl

theorem foldlM_eq_ok : items.foldlM (added refusal) (.integer 0) = .ok v ↔ Sums items v := by
  refine ⟨fun is => ?_, foldlM_of_sums⟩
  rcases sums_or_stops items with ⟨w, sums⟩ | ⟨before, total, x, stops⟩
  · rw [foldlM_of_sums sums] at is
    exact Except.ok.inj is ▸ sums
  · rw [foldlM_of_stops stops] at is
    cases is

/-! The two ways of adding. -/

def sumRefusal (typeOf : Value → String) (_ x : Value) : Fault :=
  .typeMismatch "Integer or Real" (typeOf x) "'sum'"

def plusRefusal (typeOf : Value → String) (total x : Value) : Fault :=
  .typeMismatch "Integer, Real or String" (operandTypes typeOf .add total x) "'+'"

theorem sumFrom_eq (typeOf : Value → String) (total : Value) (items : List Value) :
    sumFrom typeOf total items = items.foldlM (added (sumRefusal typeOf)) total := by
  induction items generalizing total with
  | nil => rfl
  | cons x rest ih =>
    rw [sumFrom, List.foldlM_cons, added]
    split
    · simp only [ih]
    · rfl

/-- To a number the operator adds as the host does. -/
theorem binary_add (number : total.isNumber = true) (x : Value) :
    binary typeOf .add total x = added (plusRefusal typeOf) total x := by
  cases total with
  | integer a => cases x <;> rfl
  | real y => cases x <;> rfl
  | _ => cases number

theorem foldlM_binary_add (number : total.isNumber = true) (items : List Value) :
    items.foldlM (binary typeOf .add) total = items.foldlM (added (plusRefusal typeOf)) total := by
  induction items generalizing total with
  | nil => rfl
  | cons x rest ih =>
    rw [List.foldlM_cons, List.foldlM_cons, binary_add number]
    cases is : added (plusRefusal typeOf) total x with
    | error fault => rfl
    | ok v =>
      unfold added at is
      split at is
      · exact ih (plus_ok is).2.2
      · cases is

end Collection

theorem Fault.kind_locate (span : Span) (fault : Fault) : (fault.locate span).kind = fault.kind :=
  ((Elsewhere.refl fault).locate span).kind_eq

theorem Run.mapFault_mapFault {σ α : Type} {change further : Fault → Fault} {run : Run σ α} {s : σ} :
    mapFault further (mapFault change run) s = mapFault (fun fault => further (change fault)) run s := by
  unfold mapFault
  cases run s <;> rfl

namespace Engine
open Run Collection Operation
variable {setting : Setting} {k : Nat} {env : Environment} {s t : Engine} {source : Expr}
  {kind : CollectionKind} {items : List Value} {x acc : String}

theorem evaluate_of_step {e : Expr} {run : Run Engine Value}
    (stepped : step setting (evaluateWithin setting k) env e s = run t) :
    evaluateWithin setting (k + 1) env e s = mapFault (Fault.locate e.span) run t := by
  change mapFault _ (step setting (evaluateWithin setting k) env e) s = _
  simp only [mapFault, stepped]

theorem evaluate_sum (iterator : Option String) (body : Option Expr) (loc : Location)
    (collected : evaluateWithin setting k env source s = .value (.collection kind items) t) :
    evaluateWithin setting (k + 1) env (.arrow source (.query .sum) iterator body loc) s =
      mapFault (Fault.locate (.ofLocation loc))
        (ofResult (items.foldlM (added (sumRefusal t.typeName)) (.integer 0))) t := by
  refine evaluate_of_step ((bind_of_value collected).trans ?_)
  rw [← sumFrom_eq]
  rfl

/-- What there is so far and the item, added where an iteration has them. -/
theorem evaluate_addition (apart : x ≠ acc) (v total : Value) (left right loc : Location) :
    evaluateWithin setting (k + 2) (env.push "iterate" (Named.ofPairs [(x, v), (acc, total)]))
        (.binary .add (.variable acc left) (.variable x right) loc) t =
      mapFault (Fault.locate (.ofLocation loc)) (ofResult (Operation.binary t.typeName .add total v)) t := by
  have frame : Named.ofPairs [(x, v), (acc, total)] = [(x, v), (acc, total)] := by
    change Named.set [(x, v)] acc total = _
    rw [Named.set, if_neg apart]
    rfl
  have item : (env.push "iterate" [(x, v), (acc, total)]).get? x = some v := by
    rw [Environment.get?_push, Named.get?_cons, if_pos rfl, Option.some_or]
  have sofar : (env.push "iterate" [(x, v), (acc, total)]).get? acc = some total := by
    rw [Environment.get?_push, Named.get?_cons, if_neg apart.symm, Named.get?_cons, if_pos rfl, Option.some_or]
  rw [frame]
  refine evaluate_of_step ((bind_of_value (evaluate_variable sofar)).trans ?_)
  exact bind_of_value (evaluate_variable item)

/-- An iteration that adds is the fold of the operator. -/
theorem iterate_addition (apart : x ≠ acc) (total : Value) (items : List Value) (left right loc : Location) :
    iterate (evaluateWithin setting (k + 2)) env x acc
        (.binary .add (.variable acc left) (.variable x right) loc) total items t =
      mapFault (Fault.locate (.ofLocation loc))
        (ofResult (items.foldlM (Operation.binary t.typeName .add) total)) t := by
  induction items generalizing total with
  | nil => rfl
  | cons v rest ih =>
    rw [iterate, List.foldlM_cons]
    refine (bind_congr (evaluate_addition apart v total left right loc)).trans ?_
    cases Operation.binary t.typeName .add total v with
    | error fault => rfl
    | ok w => exact ih w

theorem evaluate_fold (apart : x ≠ acc) (tag : Option String) (start left right loc place' : Location)
    (collected : evaluateWithin setting (k + 2) env source s = .value (.collection kind items) t) :
    evaluateWithin setting (k + 3) env
        (.iterate source x acc (.literal (.integer 0) start)
          (.binary .add (.variable acc left) (.variable x right) loc) tag place') s =
      mapFault (fun fault => (fault.locate (.ofLocation loc)).locate (.ofLocation place'))
        (ofResult (items.foldlM (added (plusRefusal t.typeName)) (.integer 0))) t := by
  rw [← mapFault_mapFault, ← foldlM_binary_add rfl]
  refine evaluate_of_step ((bind_of_value collected).trans ?_)
  exact iterate_addition apart (.integer 0) items left right loc

/-- The evaluation fails because something is not of the type that is asked for. -/
def Mismatches (outcome : Outcome Engine Value) : Prop :=
  ∃ fault u, outcome = .failure fault u ∧ fault.kind = "TypeMismatchError"

/-- An evaluation that adds up items: it comes to their sum, or it fails at the first item that stands in the
way, with its own fault for what is no number. -/
structure AddsUp (items : List Value) (t : Engine) (refusal : Value → Value → Fault) (place : Fault → Fault)
    (outcome : Outcome Engine Value) : Prop where
  value : ∀ v u, outcome = .value v u ↔ Sums items v ∧ u = t
  stops : ∀ before total y, StopsAt items before total y →
    outcome = .failure (place (stopFault refusal total y)) t
  mismatches : Mismatches outcome ↔ ∃ before total y, StopsAt items before total y ∧
    (∀ v ∈ before, v.isNumber = true) ∧ y.isNumber = false

theorem addsUp {refusal : Value → Value → Fault} {place : Fault → Fault}
    (refuses : ∀ total y, (refusal total y).kind = "TypeMismatchError")
    (kept : ∀ fault, (place fault).kind = fault.kind) : AddsUp items t refusal place
      (mapFault place (ofResult (items.foldlM (added refusal) (.integer 0))) t) := by
  have value (v : Value) (u : Engine) :
      mapFault place (ofResult (items.foldlM (added refusal) (.integer 0))) t = .value v u ↔
        Sums items v ∧ u = t := by
    rw [mapFault_eq_value, ofResult_eq_value, foldlM_eq_ok, eq_comm (a := t)]
  have stops (before : List Value) (total y : Value) (stop : StopsAt items before total y) :
      mapFault place (ofResult (items.foldlM (added refusal) (.integer 0))) t =
        .failure (place (stopFault refusal total y)) t := by
    rw [foldlM_of_stops stop]
    rfl
  refine ⟨value, stops, ?_, ?_⟩
  · rintro ⟨fault, u, failed, kind⟩
    rcases sums_or_stops items with ⟨v, sums⟩ | ⟨before, total, y, stop⟩
    · rw [(value v t).2 ⟨sums, rfl⟩] at failed
      cases failed
    · refine ⟨before, total, y, stop, stop.sums.isNumber, Bool.eq_false_iff.2 fun number => ?_⟩
      obtain ⟨rfl, -⟩ := Outcome.failure.inj ((stops before total y stop).symm.trans failed)
      rw [kept, stopFault, if_pos number] at kind
      exact absurd kind (by decide)
  · rintro ⟨before, total, y, stop, -, other⟩
    refine ⟨_, t, stops before total y stop, ?_⟩
    rw [kept, stopFault, if_neg (by simp [other]), refuses]

/-- The sum of a collection is what the fold that adds up its items from zero comes to. Either of them has a
value if and only if the other one does, which is then the same, and for Integers their exact sum, whatever their
order; and either fails because of a type if and only if the other one does, at the same item. -/
theorem sum_is_fold (setting : Setting) (bound : Nat) (env : Environment) (s t : Engine) (source : Expr)
    (kind : CollectionKind) (items : List Value) (iterator : Option String) (body : Option Expr)
    (x acc : String) (tag : Option String) (start left right loc place place' : Location) (apart : x ≠ acc)
    (collected : evaluateWithin setting (bound + 2) env source s = .value (.collection kind items) t) :
    let sum := evaluateWithin setting (bound + 3) env (.arrow source (.query .sum) iterator body place) s
    let fold := evaluateWithin setting (bound + 3) env
      (.iterate source x acc (.literal (.integer 0) start)
        (.binary .add (.variable acc left) (.variable x right) loc) tag place') s
    (∀ v u, sum = .value v u ↔ fold = .value v u) ∧
    (∀ ns : List Int, items.Perm (ns.map .integer) → sum = .value (.integer ns.sum) t) ∧
    (Mismatches sum ↔ Mismatches fold) ∧
    AddsUp items t (sumRefusal t.typeName) (Fault.locate (.ofLocation place)) sum ∧
    AddsUp items t (plusRefusal t.typeName)
      (fun fault => (fault.locate (.ofLocation loc)).locate (.ofLocation place')) fold := by
  intro sum fold
  have first : AddsUp items t (sumRefusal t.typeName) (Fault.locate (.ofLocation place)) sum := by
    have is : sum = _ := evaluate_sum iterator body place collected
    rw [is]
    exact addsUp (fun _ _ => rfl) (Fault.kind_locate _)
  have second : AddsUp items t (plusRefusal t.typeName)
      (fun fault => (fault.locate (.ofLocation loc)).locate (.ofLocation place')) fold := by
    have is : fold = _ := evaluate_fold apart tag start left right loc place' collected
    rw [is]
    exact addsUp (fun _ _ => rfl) fun fault => (Fault.kind_locate _ _).trans (Fault.kind_locate _ fault)
  refine ⟨fun v u => ?_, fun ns perm => ?_, ?_, first, second⟩
  · rw [first.value, second.value]
  · obtain ⟨ms, rfl, reordered⟩ : ∃ ms : List Int, items = ms.map .integer ∧ ms.Perm ns := by
      have parted := congr_fun₂ (List.eq_map_comp_perm Value.integer) items ns
      exact parted.mpr perm
    rw [← reordered.sum_eq, first.value]
    exact ⟨.integers ms, rfl⟩
  · rw [first.mismatches, second.mismatches]

/-- Over a Sequence of two Integers, and of an Integer and a Boolean. -/
theorem sum_is_fold_pair :
    let source (last : Literal) : Expr :=
      .collection .sequence [.literal (.integer 1) {}, .literal last {}] {}
    let sum (last : Literal) :=
      evaluateWithin {} 3 (.ofRoot []) (.arrow (source last) (.query .sum) none none {}) {}
    let fold (last : Literal) := evaluateWithin {} 3 (.ofRoot [])
      (.iterate (source last) "x" "acc" (.literal (.integer 0) {})
        (.binary .add (.variable "acc" {}) (.variable "x" {}) {}) none {}) {}
    sum (.integer 2) = .value (.integer 3) {} ∧ fold (.integer 2) = .value (.integer 3) {} ∧
      Mismatches (sum (.boolean true)) ∧ Mismatches (fold (.boolean true)) := by
  intro source sum fold
  have names : "x" ≠ "acc" := by decide
  have agree (last : Literal) := sum_is_fold {} 0 (.ofRoot []) {} {} (source last) .sequence
    [.integer 1, last.value] none none "x" "acc" none {} {} {} {} {} {} names rfl
  have three := (agree (.integer 2)).2.1 [1, 2] (List.Perm.refl _)
  have mismatch : Mismatches (sum (.boolean true)) := ⟨_, _, rfl, rfl⟩
  exact ⟨three, ((agree (.integer 2)).1 _ _).1 three, mismatch, (agree (.boolean true)).2.2.1.1 mismatch⟩

end Engine

end Metamorph
