import Metamorph.Proofs.Arrival
import Metamorph.Proofs.Mirroring

/-! The places of errors. An error that says of no line where it was raised gets the place of the innermost
expression with a line that was being evaluated then, through helpers and rules; any other error keeps its
place. Nothing else depends on the places of the program. -/
namespace Metamorph

/-- What becomes of a fault that expressions hand on, the innermost first. -/
def handedOn (pass : Expr → Fault → Fault) (pending : List Expr) (fault : Fault) : Fault :=
  pending.foldl (fun fault e => pass e fault) fault

/-- The place of the first of the expressions that has a line. -/
def placeAmong (pending : List Expr) (otherwise : Span) : Span :=
  ((pending.find? fun e => decide (0 < e.span.line)).map Expr.span).getD otherwise

/-- An error that has a line keeps its place. -/
theorem handedOn_located (pending : List Expr) {d : Diagnostic} (located : d.span.line ≠ 0) :
    handedOn (fun e => Fault.locate e.span) pending (.diagnosed d) = .diagnosed d := by
  induction pending with
  | nil => rfl
  | cons e rest ih =>
    have stays : (Fault.diagnosed d).locate e.span = .diagnosed d := by
      simp only [Fault.locate, Diagnostic.locate, located, false_and, if_false]
    rw [handedOn, List.foldl_cons, stays]
    exact ih

/-- An error without a line gets the place of the first of the expressions that has one. -/
theorem handedOn_unlocated (pending : List Expr) {d : Diagnostic} (unlocated : d.span.line = 0) :
    handedOn (fun e => Fault.locate e.span) pending (.diagnosed d) =
      .diagnosed { d with span := placeAmong pending d.span } := by
  induction pending with
  | nil => rfl
  | cons e rest ih =>
    by_cases lined : 0 < e.span.line
    · have placed : (Fault.diagnosed d).locate e.span = .diagnosed { d with span := e.span } := by
        simp only [Fault.locate, Diagnostic.locate, unlocated, lined, and_self, if_true]
      have first : placeAmong (e :: rest) d.span = e.span := by simp [placeAmong, lined]
      rw [handedOn, List.foldl_cons, placed, first]
      exact handedOn_located rest (Int.ne_of_gt lined)
    · have stays : (Fault.diagnosed d).locate e.span = .diagnosed d := by
        simp only [Fault.locate, Diagnostic.locate, lined, and_false, if_false]
      have later : placeAmong (e :: rest) d.span = placeAmong rest d.span := by simp [placeAmong, lined]
      rw [handedOn, List.foldl_cons, stays, later]
      exact ih

theorem handedOn_other (pending : List Expr) {fault : Fault} (other : ∀ d, fault ≠ .diagnosed d) :
    handedOn (fun e => Fault.locate e.span) pending fault = fault := by
  have stays (e : Expr) : fault.locate e.span = fault := by
    cases fault with
    | diagnosed d => exact absurd rfl (other d)
    | _ => rfl
  induction pending with
  | nil => rfl
  | cons e rest ih =>
    rw [handedOn, List.foldl_cons, stays]
    exact ih

namespace Engine
open Run
variable {setting setting' : Setting} {bound : Nat} {env : Environment} {e e' : Expr} {s s' t : Engine}
  {fault : Fault} {pending : List Expr}

/-- The evaluator, with something of its own done to a fault by every expression that hands it on. -/
def evaluatePassing (pass : Expr → Fault → Fault) (setting : Setting) : Nat → Evaluator
  | 0 => fun _ _ => Run.cutOff
  | bound + 1 => fun env e =>
    Run.mapFault (pass e) (step setting (evaluatePassing pass setting bound) env e)

theorem evaluatePassing_locate (setting : Setting) (bound : Nat) :
    evaluatePassing (fun e => Fault.locate e.span) setting bound = evaluateWithin setting bound := by
  induction bound with
  | zero => rfl
  | succ bound ih =>
    funext env e
    rw [evaluatePassing, ih]
    rfl

/-- The evaluation fails for a fault that was raised while the expressions were being evaluated, the
innermost of which comes first. These are the ones that hand it on, whatever they do to it: neither the
fault as it was raised nor the expressions that were pending depend on that. -/
def RaisedWithin (setting : Setting) (bound : Nat) (env : Environment) (e : Expr) (s : Engine)
    (fault : Fault) (pending : List Expr) (t : Engine) : Prop :=
  ∀ pass, evaluatePassing pass setting bound env e s = .failure (handedOn pass pending fault) t

/-! What was raised, and with which expressions pending, can be told from the outcomes. -/

/-- Leaves a mark of the expression on a fault. -/
def leavingMark (mark : Expr → String) (e : Expr) : Fault → Fault
  | .diagnosed d => .diagnosed (d.addNote { message := mark e })
  | _ => .diagnosed { Diagnostic.of (.broken "") with notes := [{ message := mark e }] }

def marksOn : Fault → List String
  | .diagnosed d => d.notes.map (·.message)
  | _ => []

theorem marksOn_handedOn (mark : Expr → String) (pending : List Expr) (fault : Fault) :
    marksOn (handedOn (leavingMark mark) pending fault) = marksOn fault ++ pending.map mark := by
  induction pending generalizing fault with
  | nil => simp [handedOn]
  | cons e rest ih =>
    have marked : marksOn (leavingMark mark e fault) = marksOn fault ++ [mark e] := by
      cases fault <;> simp [leavingMark, marksOn, Diagnostic.addNote]
    have later := ih (leavingMark mark e fault)
    rw [marked, List.append_assoc] at later
    exact later

theorem handedOn_unchanged (pending : List Expr) (fault : Fault) :
    handedOn (fun _ fault => fault) pending fault = fault := by
  induction pending with
  | nil => rfl
  | cons e rest ih => exact ih

theorem eq_of_marks {pending others : List Expr}
    (marks : ∀ mark : Expr → String, pending.map mark = others.map mark) : pending = others := by
  classical
  have sizes : pending.length = others.length := by simpa using congrArg List.length (marks fun _ => "")
  refine List.ext_getElem sizes fun n here there => ?_
  let mark (e : Expr) : String := if e = pending[n] then "this" else "other"
  have same : (pending.map mark)[n]? = (others.map mark)[n]? := by rw [marks mark]
  by_contra differ
  simp [mark, here, there, Ne.symm differ] at same

theorem RaisedWithin.unique {other : Fault} {others : List Expr} {u : Engine}
    (first : RaisedWithin setting bound env e s fault pending t)
    (second : RaisedWithin setting bound env e s other others u) : other = fault ∧ others = pending := by
  have same (pass : Expr → Fault → Fault) : handedOn pass others other = handedOn pass pending fault := by
    have outcomes := (second pass).symm.trans (first pass)
    simp only [Outcome.failure.injEq] at outcomes
    exact outcomes.1
  obtain rfl : other = fault := by simpa only [handedOn_unchanged] using same fun _ fault => fault
  refine ⟨rfl, eq_of_marks fun mark => ?_⟩
  have marks := congrArg marksOn (same (leavingMark mark))
  rw [marksOn_handedOn, marksOn_handedOn] at marks
  exact List.append_cancel_left marks

/-! Every failure was raised somewhere. -/

/-- A fault in all evaluations of one program that differ in what expressions do to a fault. -/
def passing : Mirror (Expr → Fault → Fault) where
  place := id
  shows _ faults := ∃ fault pending, ∀ pass, faults pass = handedOn pass pending fault
  raised fault := ⟨fault, [], fun _ => rfl⟩
  unbound _ _ := ⟨_, [], fun _ => rfl⟩

theorem passing_reflected (setting : Setting) (bound : Nat) :
    Reflected passing (evaluateWithin setting bound) fun pass => evaluatePassing pass setting bound := by
  induction bound with
  | zero => exact fun _ _ => .cutOff
  | succ bound ih =>
    intro env e
    refine .mapFault ?_ ?_
    · have reflects := ih.step setting env e
      rwa [show passing.place = id from rfl, Setting.moved_id] at reflects
    · rintro _ faults ⟨fault, pending, handed⟩
      refine ⟨fault, pending ++ [e], fun pass => ?_⟩
      dsimp only
      rw [handed, show e.moved passing.place = e from e.moved_id, handedOn, handedOn, List.foldl_append]
      rfl

theorem mapFault_of_failure {run : Run Engine Value} {change : Fault → Fault}
    (failed : run s = .failure fault t) : Run.mapFault change run s = .failure (change fault) t := by
  unfold Run.mapFault
  rw [failed]

/-- Where an evaluation fails, a fault was raised while the expression was being evaluated, and the fault
it fails with is what becomes of that. -/
theorem raised_of_failure {final : Fault} (failed : evaluateWithin setting bound env e s = .failure final t) :
    ∃ fault inner, RaisedWithin setting bound env e s fault (inner ++ [e]) t ∧
      final = handedOn (fun e => Fault.locate e.span) (inner ++ [e]) fault := by
  cases bound with
  | zero => cases failed
  | succ bound =>
    have reflects := (passing_reflected setting bound).step setting env e s
    rw [show passing.place = id from rfl, Setting.moved_id, Engine.moved_id, Expr.moved_id] at reflects
    cases outcome : step setting (evaluateWithin setting bound) env e s with
    | value v u => simp [evaluateWithin, Run.mapFault, outcome] at failed
    | exhausted => simp [evaluateWithin, Run.mapFault, outcome] at failed
    | failure shown u =>
      rw [outcome] at reflects
      obtain ⟨faults, ⟨fault, inner, handed⟩, fails⟩ := reflects
      have same : u = t := by
        simp only [evaluateWithin, Run.mapFault, outcome, Outcome.failure.injEq] at failed
        exact failed.2
      have raised : RaisedWithin setting (bound + 1) env e s fault (inner ++ [e]) t := by
        intro pass
        have stops := fails pass
        rw [show u.moved passing.place = u from u.moved_id, handed, same] at stops
        refine (mapFault_of_failure stops).trans ?_
        rw [handedOn, handedOn, List.foldl_append]
        rfl
      refine ⟨fault, inner, raised, ?_⟩
      have located := raised fun e => Fault.locate e.span
      rw [evaluatePassing_locate, failed] at located
      simp only [Outcome.failure.injEq, and_true] at located
      exact located

end Engine

/-! Nothing else depends on places. -/

namespace Fault.Elsewhere
variable {fault other : Fault}

/-- Each of the two may get a place of its own. -/
theorem locates (elsewhere : fault.Elsewhere other) (span place : Span) :
    (fault.locate span).Elsewhere (other.locate place) := by
  obtain ⟨final, same⟩ := elsewhere.locate place
  refine ⟨final, same.trans ?_⟩
  cases fault with
  | diagnosed d =>
    simp only [Fault.locate, Diagnostic.locate]
    split <;> rfl
  | _ => rfl

/-- Two faults that are a third one but for its place differ by their place alone. -/
theorem meet {third : Fault} (first : fault.Elsewhere third) (second : other.Elsewhere third) :
    fault.Elsewhere other := by
  obtain ⟨place, rfl⟩ := first
  obtain ⟨span, same⟩ := second
  cases other with
  | diagnosed d =>
    cases fault with
    | diagnosed d' =>
      simp only [placed, diagnosed.injEq, Diagnostic.mk.injEq] at same
      obtain ⟨cause, code, severity, -, notes, hint⟩ := same
      exact ⟨d.span, by simp only [placed, cause, code, severity, notes, hint]⟩
    | _ => cases same
  | _ => exact ⟨place, same.symm⟩

end Fault.Elsewhere

/-- The program, or what a state keeps of one, without any places. -/
def nowhere (_ : Location) : Location := {}

/-- The runs end alike: with the same value, or with the same fault but for its place, or cut off, and in
states that differ at most by places of the program. -/
def Outcome.AlikeButPlaces {α : Type} : Outcome Engine α → Outcome Engine α → Prop
  | .value a t, .value b u => b = a ∧ u.moved nowhere = t.moved nowhere
  | .failure fault t, .failure other u =>
    fault.Elsewhere other ∧ u.moved nowhere = t.moved nowhere
  | .exhausted, .exhausted => True
  | _, _ => False

namespace Engine
open Run
variable {setting setting' : Setting} {bound : Nat} {env : Environment} {e e' : Expr} {s s' t : Engine}

/-- A program beside the same one without places. -/
def displaced : Mirror Unit where
  place := nowhere
  shows fault faults := fault.Elsewhere (faults ())
  raised fault := .refl fault
  unbound _ loc := ⟨.ofLocation (nowhere loc), rfl⟩

theorem displaced_reflected (setting : Setting) (bound : Nat) :
    Reflected displaced (evaluateWithin setting bound)
      fun _ => evaluateWithin (setting.moved nowhere) bound := by
  induction bound with
  | zero => exact fun _ _ => .cutOff
  | succ bound ih =>
    exact fun env e => .mapFault (ih.step setting env e) fun _ _ elsewhere => elsewhere.locates _ _

/-- Outcomes of which the same is left without places. -/
theorem alike_of_ends {α : Type} {outcome other : Outcome Engine α} {images : Unit → Outcome Engine α}
    (first : displaced.Ends id outcome images) (second : displaced.Ends id other images) :
    outcome.AlikeButPlaces other := by
  cases outcome with
  | value a t =>
    have shown := first ()
    cases other with
    | value b u =>
      have same := (second ()).symm.trans shown
      simp only [id_eq, Outcome.value.injEq] at same
      exact same
    | failure fault u =>
      obtain ⟨_, _, fails⟩ := second
      cases shown.symm.trans (fails ())
    | exhausted => cases shown.symm.trans (second ())
  | failure fault t =>
    obtain ⟨_, elsewhere, shown⟩ := first
    cases other with
    | value b u => cases (shown ()).symm.trans (second ())
    | failure fault' u =>
      obtain ⟨_, elsewhere', fails⟩ := second
      have same := (fails ()).symm.trans (shown ())
      simp only [Outcome.failure.injEq] at same
      exact ⟨elsewhere.meet (same.1 ▸ elsewhere'), same.2⟩
    | exhausted => cases (shown ()).symm.trans (second ())
  | exhausted =>
    cases other with
    | value b u => cases (first ()).symm.trans (second ())
    | failure fault u =>
      obtain ⟨_, _, fails⟩ := second
      cases (first ()).symm.trans (fails ())
    | exhausted => trivial

theorem evaluateWithin_alikeButPlaces (programs : setting'.moved nowhere = setting.moved nowhere)
    (expressions : e'.moved nowhere = e.moved nowhere) (states : s'.moved nowhere = s.moved nowhere) :
    (evaluateWithin setting bound env e s).AlikeButPlaces (evaluateWithin setting' bound env e' s') := by
  have first := displaced_reflected setting bound env e s
  have second := displaced_reflected setting' bound env e' s'
  simp only [displaced, programs, expressions, states] at first second
  exact alike_of_ends first second

/-- Errors point at the innermost expression with a line. Where an evaluation fails, through helpers and
rules, a fault was raised with expressions pending, of which the last is the one that was asked for. An
error of line zero gets the place of the innermost of them that has a line, and stays where it was if none
has; what was raised with any other line, or is no error of the engine, is not changed. A program that
differs by places alone ends alike. -/
theorem errors_point_innermost (setting : Setting) (bound : Nat) (env : Environment) (e : Expr) (s : Engine) :
    (∀ final t, evaluateWithin setting bound env e s = .failure final t →
      ∃ fault inner, RaisedWithin setting bound env e s fault (inner ++ [e]) t ∧
        (∀ d, fault = .diagnosed d → d.span.line = 0 →
          final = .diagnosed { d with span := placeAmong (inner ++ [e]) d.span }) ∧
        (∀ d, fault = .diagnosed d → d.span.line ≠ 0 → final = fault) ∧
        ((∀ d, fault ≠ .diagnosed d) → final = fault)) ∧
    ∀ setting' e' s', setting'.moved nowhere = setting.moved nowhere →
      e'.moved nowhere = e.moved nowhere → s'.moved nowhere = s.moved nowhere →
        (evaluateWithin setting bound env e s).AlikeButPlaces
          (evaluateWithin setting' bound env e' s') := by
  refine ⟨fun final t failed => ?_, fun setting' e' s' => evaluateWithin_alikeButPlaces⟩
  obtain ⟨fault, inner, raised, rfl⟩ := raised_of_failure failed
  refine ⟨fault, inner, raised, ?_, ?_, handedOn_other _⟩
  · rintro d rfl unlocated
    exact handedOn_unlocated _ unlocated
  · rintro d rfl located
    exact handedOn_located _ located

end Engine

/-! A call of a helper whose body has no line, and a variable that has a negative one. -/
namespace Placing
open Engine

def setting : Setting where
  helpers := { module := [("h", { name := "h", body := .variable "y" {} })] }

def call : Expr := .call "h" [] ⟨"f", 5, 1⟩

def awry : Expr := .navigation (.variable "x" ⟨"f", -1, 0⟩) "k" ⟨"f", 5, 1⟩

end Placing

open Placing Engine in
theorem errors_point_innermost_called : ∃ d inner t,
    RaisedWithin setting 3 (setting.rootEnvironment []) call {} (.diagnosed d) (inner ++ [call]) t ∧
      evaluateWithin setting 3 (setting.rootEnvironment []) call {} =
        .failure (.diagnosed { d with span := call.span }) t := by
  obtain ⟨similar, raised⟩ : ∃ similar, RaisedWithin setting 3 (setting.rootEnvironment []) call {}
      (.diagnosed (.of (.unresolvedVariable "y" similar) (.ofLocation {}))) [.variable "y" {}, call]
      (noteHelper "h" { helperInvocations := 1 }) := ⟨_, fun _ => rfl⟩
  have failed := raised fun e => Fault.locate e.span
  rw [evaluatePassing_locate] at failed
  obtain ⟨fault, inner, raised', unlocated, -⟩ := (errors_point_innermost _ _ _ _ _).1 _ _ failed
  obtain ⟨rfl, pending⟩ := raised.unique raised'
  have placed := unlocated _ rfl rfl
  rw [pending] at placed
  refine ⟨_, inner, _, raised', failed.trans ?_⟩
  rw [placed]
  rfl

open Placing Engine in
/-- An error with a negative line is not taken for one without a line. -/
theorem negative_line_stays : ∃ d pending t,
    RaisedWithin {} 2 (.ofRoot []) awry {} (.diagnosed d) pending t ∧ ¬0 < d.span.line ∧
      placeAmong pending d.span = awry.span ∧
      evaluateWithin {} 2 (.ofRoot []) awry {} = .failure (.diagnosed d) t ∧
      d.span.line ≠ awry.span.line := by
  obtain ⟨similar, raised⟩ : ∃ similar, RaisedWithin {} 2 (.ofRoot []) awry {}
      (.diagnosed (.of (.unresolvedVariable "x" similar) (.ofLocation ⟨"f", -1, 0⟩)))
      [.variable "x" ⟨"f", -1, 0⟩, awry] {} := ⟨_, fun _ => rfl⟩
  have failed := raised fun e => Fault.locate e.span
  have line :
      (Diagnostic.of (.unresolvedVariable "x" similar) (.ofLocation ⟨"f", -1, 0⟩)).span.line = -1 := rfl
  rw [evaluatePassing_locate, handedOn_located _ (by rw [line]; decide)] at failed
  exact ⟨_, _, _, raised, by rw [line]; decide, rfl, failed, by rw [line]; decide⟩

end Metamorph
