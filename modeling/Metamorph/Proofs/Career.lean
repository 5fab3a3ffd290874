import Metamorph.Proofs.Creation

/-! The trail of a whole pipeline, from stage to stage: a schedule is made while nothing is created,
then its applications are created one after the other. -/
namespace Metamorph.Engine

/-- From one state of a pipeline to another by the given events. -/
inductive Career (setting : Setting) (t : Transformation) : List Event → Engine → Engine → Prop
  | trail {s u done} (trail : Trail setting t done s u) : Career setting t done s u
  | trans {s u w done more} (first : Career setting t done s u)
      (rest : Career setting t more u w) : Career setting t (done ++ more) s w
  | advanced {s phase} : Career setting t [] s (enterPhase phase s)
  | planned {s schedule} (nothing : s.created = []) : Career setting t [] s { s with schedule }
  | matched {s u e outputs link trace}
      (next : (scheduled s)[s.created.length]? = some e)
      (makes : Makes t s u)
      (fresh : Fresh e.rule.outputs outputs s.store u)
      (registered :
        u.trace.register u.store e.rule.name e.source outputs .matched = .ok (link, trace)) :
      Career setting t [] s { u with trace, created := u.created ++ [outputs] }

namespace Career
variable {setting : Setting} {t : Transformation} {s u : Engine} {done : List Event}

theorem refl (s : Engine) : Career setting t [] s s := .trail (.refl s)

theorem thenIdle {w : Engine} (career : Career setting t done s u) (idle : Idle u w) :
    Career setting t done s w := by
  simpa using career.trans (.trail (.idle idle))

theorem history (career : Career setting t done s u) : u.history = s.history ++ done := by
  induction career with
  | trail trail => exact trail.history
  | trans _ _ first rest => rw [rest, first, List.append_assoc]
  | advanced | planned _ => exact (List.append_nil _).symm
  | matched _ makes _ _ => exact makes.others.history.trans (List.append_nil _).symm

theorem growth (career : Career setting t done s u) : Growth t s u := by
  induction career with
  | trail trail => exact trail.growth
  | trans _ _ first rest => exact first.trans rest
  | advanced | planned _ => exact .same ⟨rfl, rfl, rfl, rfl, rfl⟩
  | matched _ makes _ registered =>
    exact (makes.growth.trans (.registered registered)).trans (.same ⟨rfl, rfl, rfl, rfl, rfl⟩)

theorem recorded (career : Career setting t done s u) (recorded : Recorded s) : Recorded u := by
  induction career with
  | trail trail => exact trail.recorded recorded
  | trans _ _ first rest => exact rest (first recorded)
  | advanced => exact recorded.inPhase _
  | planned nothing => exact recorded.planned nothing
  | matched next makes fresh registered => exact recorded.next next makes fresh registered

end Career

end Metamorph.Engine
