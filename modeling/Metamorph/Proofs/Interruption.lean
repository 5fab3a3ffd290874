import Metamorph.Proofs.Tracking

/-! Evaluation that is broken off somewhere. Whoever runs a transformation may stop it before or after
the evaluation of any expression; the state that is left is then the state at that point. -/
namespace Metamorph

/-- Where evaluation is broken off, and with which fault. -/
structure Interruption where
  before : Environment → Expr → Engine → Option Fault
  after : Environment → Expr → Value → Engine → Option Fault

def Interruption.never : Interruption := ⟨fun _ _ _ => none, fun _ _ _ _ => none⟩

namespace Engine
open Run

def breakOff (fault? : Engine → Option Fault) : Run Engine Unit := do
  match fault? (← Run.state) with
  | some fault => Run.fail fault
  | none => return

/-- Evaluation no deeper than the bound, up to where it is broken off. -/
def evaluateUntil (stop : Interruption) (setting : Setting) : Nat → Evaluator
  | 0 => fun _ _ => Run.cutOff
  | bound + 1 => fun env e => do
    breakOff (stop.before env e)
    let v ← Run.mapFault (Fault.locate e.span)
      (step setting (evaluateUntil stop setting bound) env e)
    breakOff (stop.after env e v)
    return v

theorem evaluateUntil_never (setting : Setting) (bound : Nat) :
    evaluateUntil .never setting bound = evaluateWithin setting bound := by
  induction bound with
  | zero => rfl
  | succ bound ih =>
    funext env e s
    simp only [evaluateWithin, ← ih]
    change Run.bind (Run.mapFault (Fault.locate e.span) _) _ s = _
    unfold Run.bind
    cases Run.mapFault (Fault.locate e.span)
      (step setting (evaluateUntil .never setting bound) env e) s <;> rfl

theorem breakOff_keeps {c : Conduct Engine} (fault? : Engine → Option Fault) :
    Keeps c (breakOff fault?) := by
  refine .bind .state fun s => ?_
  split
  · exact .fail _
  · exact .pure _

section
variable {c : Conduct Engine} {setting : Setting} {stop : Interruption}

theorem evaluateUntil_succ_of_step {bound : Nat} {env : Environment} {e : Expr}
    (kept : Keeps c (step setting (evaluateUntil stop setting bound) env e)) :
    Keeps c (evaluateUntil stop setting (bound + 1) env e) := by
  refine .bind (breakOff_keeps _) fun _ => ?_
  exact .bind (.mapFault _ kept) fun _ => .bind (breakOff_keeps _) fun _ => .pure _

theorem evaluateUntil_succ_keeps {bound : Nat}
    (serves : Serves c setting (evaluateUntil stop setting bound)) (env : Environment) (e : Expr) :
    Keeps c (evaluateUntil stop setting (bound + 1) env e) :=
  evaluateUntil_succ_of_step (serves.step env e)

theorem evaluateUntil_keeps (cut : ∀ s, c.cut s)
    (rules : ∀ self : Evaluator, (∀ env e, Keeps c (self env e)) → Serves c setting self)
    (bound : Nat) (env : Environment) (e : Expr) :
    Keeps c (evaluateUntil stop setting bound env e) := by
  induction bound generalizing env e with
  | zero => exact .cutOff cut
  | succ bound ih => exact evaluateUntil_succ_keeps (rules _ ih) env e

end

theorem evaluateUntil_follows (stop : Interruption) (setting : Setting) (bound : Nat) :
    Follows setting (evaluateUntil stop setting bound) :=
  follows_iff_along.2
    (evaluateUntil_keeps (fun _ => trivial) (fun _ kept => (follows_iff_along.2 kept).serves) bound)

theorem evaluateUntil_tracked {setting : Setting} {t : Transformation}
    (given : setting.transformation = some t) (stop : Interruption) (bound : Nat) :
    Tracked setting t (evaluateUntil stop setting bound) := by
  induction bound with
  | zero => exact fun _ _ => .cutOff fun _ => trivial
  | succ bound ih =>
    intro env e
    exact evaluateUntil_succ_keeps (ih.serves (evaluateUntil_follows stop setting bound) given) env e

end Engine

end Metamorph
