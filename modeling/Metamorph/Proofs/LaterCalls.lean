import Metamorph.Proofs.Resolution

/-! Called rules executed after a complete run. They put bindings down as any other rule does, but
no walk comes after them: what they put down is never evaluated again. -/
namespace Metamorph

/-- From one state to another by successful calls, one after the other. -/
inductive CallsLead (setting : Setting) (t : Transformation) (s : Engine) : Engine → Prop
  | none : CallsLead setting t s s
  | call {u w : Engine} {depth : Nat} {name : String} {args : List Value} {v : Value}
      (earlier : CallsLead setting t s u)
      (ended : Engine.callRuleWith (Engine.evaluateWithin setting depth) setting t name args u =
        .value v w) : CallsLead setting t s w

variable {setting : Setting} {t : Transformation} {store : Store} {log : List LogRecord}
  {s u : Engine}

theorem CallsLead.course (calls : CallsLead setting t s u) :
    ∃ made, Course setting made s u := by
  induction calls with
  | none => exact ⟨[], .refl s⟩
  | call _ ended ih =>
    obtain ⟨made, before⟩ := ih
    obtain ⟨more, behind⟩ := (Engine.evaluateWithin_follows setting _).callRule ended
    exact ⟨made ++ more, before.trans behind⟩

/-- Nothing that later calls put down is taken up again, so the bindings that wait are those they put
down, and none waits exactly if no binding met something incomplete. -/
theorem later_calls_leave_waiting (completes : Completes setting t store log s)
    (calls : CallsLead setting t s u) :
    ∃ made, u.history = s.history ++ made ∧ takenUp (evaluations made) = [] ∧
      u.deferredResolved = s.deferred.length ∧
      u.deferred.length = s.deferred.length + (putDown (evaluations made)).length ∧
      (u.deferredResolved = u.deferred.length ↔
        ∀ e ∈ evaluations made, e.occasion = .first → e.met = false) := by
  obtain ⟨before, walk, account⟩ := completes.account
  obtain ⟨made, course⟩ := calls.course
  have progress := course.progress
  obtain ⟨added, deferred, works⟩ := progress.waiting
  have resolved : u.deferredResolved = s.deferred.length :=
    progress.resolved.trans account.resolved
  have counted : u.deferred.length = s.deferred.length + (putDown (evaluations made)).length := by
    rw [deferred, List.length_append, ← works, List.length_map]
  refine ⟨made, course.history, progress.takenUp, resolved, counted, ?_⟩
  have nothing : u.deferredResolved = u.deferred.length ↔ putDown (evaluations made) = [] := by
    rw [resolved, counted, ← List.length_eq_zero_iff]
    omega
  rw [nothing, putDown, List.map_eq_nil_iff, List.filter_eq_nil_iff]
  simp [Evaluation.defers]

namespace Looping

/-- Only the called rule asks for a result of the lazy rule, which reads what it assigns afterwards.
-/
def late : Transformation :=
  transformation [] [⟨"f", .navigation (call "L") "g" {}⟩, ⟨"g", five⟩] [⟨"f", call "L"⟩] []

/-- The run, and then the called rule for the one source object. -/
def runThenCall (t : Transformation) : Run Engine Value := do
  Engine.run (settingOf t) t
  Engine.callRule (settingOf t) t "C" [.object 0]

theorem completes_then_calls (t : Transformation) (test : Engine → Bool)
    (passed : passes test (runThenCall t { store := objects }) = true) :
    ∃ s u, Completes (settingOf t) t objects [] s ∧ CallsLead (settingOf t) t s u ∧
      test u = true := by
  obtain ⟨v, u, ended, tested⟩ := of_passes passed
  obtain ⟨_, s, ran, called⟩ := Run.bind_eq_value.1 ended
  exact ⟨s, u, completes_of_run ran, .call .none called, tested⟩

end Looping

theorem later_calls_leave_waiting_direct :
    ∃ s u made, Completes (Looping.settingOf Looping.direct) Looping.direct Looping.objects [] s ∧
      CallsLead (Looping.settingOf Looping.direct) Looping.direct s u ∧
      u.history = s.history ++ made ∧ u.deferredResolved = s.deferred.length := by
  obtain ⟨s, u, completes, calls, -⟩ := Looping.completes_then_calls Looping.direct
    (fun _ => true) (by decide +kernel)
  obtain ⟨made, history, -, resolved, -⟩ := later_calls_leave_waiting completes calls
  exact ⟨s, u, made, completes, calls, history, resolved⟩

/-- The lazy rule is applied for the first time after the run, and its binding waits for good. -/
theorem later_call_leaves_binding :
    ∃ s u, Completes (Looping.settingOf Looping.late) Looping.late Looping.objects [] s ∧
      CallsLead (Looping.settingOf Looping.late) Looping.late s u ∧
      u.deferred.length = 1 ∧ u.deferredResolved = 0 := by
  obtain ⟨s, u, completes, calls, tested⟩ := Looping.completes_then_calls Looping.late
    (fun u => u.deferred.length == 1 && u.deferredResolved == 0) (by decide +kernel)
  simp only [Bool.and_eq_true, beq_iff_eq] at tested
  exact ⟨s, u, completes, calls, tested.1, tested.2⟩

end Metamorph
