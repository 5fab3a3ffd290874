import Metamorph.Proofs.Deferral

/-! Complete runs. Every binding that met a lazy application still being filled in is evaluated and
assigned once more, and no other; what a statement of a body assigned is never looked at again. -/
namespace Metamorph
variable {setting : Setting} {t : Transformation} {store : Store} {log : List LogRecord}
  {s : Engine}

/-- The transformation, run over the given objects, is complete in the state. Evaluation may nest
and the walk may go as far as it takes. -/
def Completes (setting : Setting) (t : Transformation) (store : Store) (log : List LogRecord)
    (s : Engine) : Prop :=
  ∃ depth walk, Engine.runWith (Engine.evaluateWithin setting depth) walk setting t { store, log } =
    .value () s

theorem completes_of_run (ended : Engine.run setting t { store, log } = .value () s) :
    Completes setting t store log s :=
  ⟨_, _, ended⟩

/-- A history up to the walk and that of the walk, with what they left. -/
structure Account (setting : Setting) (before walk : List Event) (s : Engine) : Prop where
  history : s.history = before ++ walk
  first : takenUp (evaluations before) = []
  turns : jobs walk = (putDown (evaluations s.history)).map fun work => (.again, work)
  again : takenUp (evaluations s.history) = putDown (evaluations s.history)
  ordered : InTurn [] (evaluations s.history)
  resolved : s.deferredResolved = s.deferred.length
  settled : s.cache.Settled
  calm : ∀ e ∈ evaluations s.history, e.occasion = .again → e.met = false
  assigned : ∀ e ∈ evaluations s.history, e.stored.isSome = true
  complete : s.phase = .complete

theorem Completes.course (completes : Completes setting t store log s) :
    ∃ before walk a b, s.history = before ++ walk ∧ Course setting before { store, log } a ∧
      Redoing setting 0 walk a b ∧ Course setting [] b s ∧ s.phase = .complete := by
  obtain ⟨depth, bound, ended⟩ := completes
  have follows := Engine.evaluateWithin_follows setting depth
  obtain ⟨before, walk, a, b, course, redoing, finish, complete⟩ := follows.runWith ended
  have told : a.history = before := course.history
  refine ⟨before, walk, a, b, ?_, course, redoing, finish, complete⟩
  rw [finish.history, List.append_nil, ← told]
  exact redoing.history

theorem Completes.account (completes : Completes setting t store log s) :
    ∃ before walk, Account setting before walk s := by
  obtain ⟨before, walk, a, b, history, course, redoing, finish, complete⟩ := completes.course
  have progress := course.progress
  obtain ⟨waiting, deferred, works⟩ := progress.waiting
  obtain rfl : a.deferred = waiting := by simpa using deferred
  have walked := redoing.walked (progress.settled (by simp [LazyCache.Settled])) (Nat.zero_le _)
  obtain ⟨others, later, behind⟩ := walked.waiting
  have last := finish.progress
  obtain ⟨more, same, nothing⟩ := last.waiting
  obtain rfl : more = [] := List.map_eq_nil_iff.1 nothing
  have evaluated : evaluations s.history = evaluations before ++ evaluations walk := by
    rw [history, evaluations_append]
  have total : b.deferred.map (·.work setting) = putDown (evaluations s.history) := by
    rw [later, List.map_append, works, behind, evaluated, putDown_append]
  have either (e) (member : e ∈ evaluations s.history) :
      e ∈ evaluations before ∨ e ∈ evaluations walk := by
    rwa [evaluated, List.mem_append] at member
  refine ⟨before, walk, ?_⟩
  exact {
    history
    first := progress.takenUp
    turns := by
      rw [walked.turns, ← total]
      simp
    again := by
      rw [evaluated, takenUp_append, progress.takenUp, walked.takenUp, ← evaluated, ← total]
      rfl
    ordered := by
      rw [evaluated]
      refine .append (.of_first fun e member => (progress.assigned e member).2) ?_ walked.ordered
      rw [progress.takenUp, ← works]
      rfl
    resolved := by
      have walked : b.deferredResolved + 0 = a.deferredResolved + b.deferred.length := walked.resolved
      have before : a.deferredResolved = 0 := progress.resolved
      rw [last.resolved, same, List.append_nil]
      omega
    settled := last.settled walked.settled
    calm := by
      intro e member again
      rcases either e member with early | late
      · exact absurd again (progress.assigned e early).2
      · exact walked.calm e late again
    assigned := by
      intro e member
      rcases either e member with early | late
      · exact (progress.assigned e early).1
      · exact walked.assigned e late
    complete }

/-! A transformation of one object, which a matched rule, a lazy rule and a called rule turn into
objects of its own class. What the rules assign is left open, so that the lazy rule may reach itself.
-/
namespace Looping

def cls : Metaclass where
  name := "T"
  features := [{ name := "f" }, { name := "g" }]
  supertypes := []
  abstract := false

/-- A model with one object and an empty one. -/
def objects : Store where
  entities := #[.instance cls []]
  models := #[⟨"source", .ofClasses "M" [cls], [0]⟩, ⟨"target", .ofClasses "M" [cls], []⟩]

def call (rule : String) : Expr := .call rule [.variable "x" {}] {}

def five : Expr := .literal (.integer 5) {}

/-- Whether the other binding of the lazy rule was evaluated. -/
def marked : Expr := .navigation (.variable "o" {}) "g" {}

def transformation (matched lazy called : List Binding) (body : List Statement) :
    Transformation where
  module := {
    name := "looping"
    sources := [("IN", "M")]
    targets := [("OUT", "M")]
    matched := [{
      name := "R", source := { name := "x", type := "T" }
      outputs := [{ name := "o", type := "T", bindings := matched }]
      loc := {}, productive := by simp, distinct := by simp, apart := by simp }]
    lazy := [{
      name := "L", parameter := { name := "x" }
      outputs := [{ name := "o", type := "T", bindings := lazy }]
      loc := {}, productive := by simp, distinct := by simp }]
    called := [{
      name := "C", parameters := [{ name := "x" }]
      outputs := [{ name := "o", type := "T", bindings := called }], body
      loc := {}, distinct := by simp }]
    helpers := [] }
  sources := [("IN", { model := 0 })]
  targets := [("OUT", { model := 1 })]

/-- The binding of the lazy rule asks for its own result. -/
def direct : Transformation := transformation [⟨"f", call "L"⟩] [⟨"f", call "L"⟩] [] []

/-- The lazy rule runs the called rule, and a statement of that reads what the lazy rule assigns
afterwards. -/
def throughBody : Transformation :=
  transformation [⟨"g", call "L"⟩] [⟨"g", call "C"⟩, ⟨"f", five⟩] []
    [.assign "o" "f" (.navigation (call "L") "f" {})]

def settingOf (t : Transformation) : Setting := { transformation := some t }

def run (t : Transformation) : Outcome Engine Unit :=
  Engine.run (settingOf t) t { store := objects }

/-- The run ends with a value and in a state that passes the test. -/
def passes {α : Type} (test : Engine → Bool) : Outcome Engine α → Bool
  | .value _ s => test s
  | _ => false

theorem of_passes {α : Type} {test : Engine → Bool} {outcome : Outcome Engine α}
    (passed : passes test outcome = true) : ∃ a s, outcome = .value a s ∧ test s = true := by
  cases outcome with
  | value a s => exact ⟨a, s, rfl, passed⟩
  | failure fault s => cases passed
  | exhausted => cases passed

theorem completes_of_passes (t : Transformation) (test : Engine → Bool)
    (passed : passes test (run t) = true) :
    ∃ s, Completes (settingOf t) t objects [] s ∧ test s = true := by
  obtain ⟨_, s, ended, tested⟩ := of_passes passed
  exact ⟨s, completes_of_run ended, tested⟩

end Looping

/-- The second evaluations are those of the bindings that met something incomplete, one for each and
after it, and meet nothing incomplete themselves. In the end every application of a lazy rule is
complete and no binding waits. -/
theorem deferral_exact (completes : Completes setting t store log s) :
    ∃ before walk, s.history = before ++ walk ∧ takenUp (evaluations before) = [] ∧
      jobs walk = (putDown (evaluations s.history)).map (fun work => (.again, work)) ∧
      takenUp (evaluations s.history) = putDown (evaluations s.history) ∧
      (∀ front e back, evaluations s.history = front ++ e :: back → e.occasion = .again →
        takenUp front ++ [e.work] <+: putDown front) ∧
      (∀ e ∈ evaluations s.history, e.stored.isSome = true ∧
        (e.occasion = .again → e.met = false)) ∧
      s.cache.Settled ∧ s.deferredResolved = s.deferred.length ∧ s.phase = .complete := by
  obtain ⟨before, walk, account⟩ := completes.account
  refine ⟨before, walk, account.history, account.first, account.turns, account.again,
    account.ordered, ?_, account.settled, account.resolved, account.complete⟩
  intro e member
  exact ⟨account.assigned e member, account.calm e member⟩

theorem deferral_exact_direct :
    ∃ s, Completes (Looping.settingOf Looping.direct) Looping.direct Looping.objects [] s ∧
      (takenUp (evaluations s.history)).length = 1 := by
  obtain ⟨s, completes, once⟩ := Looping.completes_of_passes Looping.direct
    (fun s => (putDown (evaluations s.history)).length == 1) (by decide +kernel)
  obtain ⟨before, walk, -, -, -, again, -⟩ := deferral_exact completes
  exact ⟨s, completes, by rw [again]; simpa using once⟩

/-- The work of an evaluation was done a second time, with nothing incomplete left. -/
def Redone (es : List Evaluation) (e : Evaluation) : Prop :=
  ∃ r ∈ es, r.occasion = .again ∧ r.met = false ∧ r.stored.isSome = true ∧ r.work = e.work

theorem Account.redone_iff {before walk : List Event} (account : Account setting before walk s)
    {e : Evaluation} :
    Redone (evaluations s.history) e ↔ e.work ∈ putDown (evaluations s.history) := by
  rw [← account.again, mem_takenUp]
  constructor
  · rintro ⟨r, member, occasion, -, -, same⟩
    exact ⟨r, member, occasion, same⟩
  · rintro ⟨r, member, occasion, same⟩
    exact ⟨r, member, occasion, account.calm r member occasion, account.assigned r member, same⟩

/-- Bindings that met something incomplete are evaluated again. All assignments that did are, if and
only if no statement did whose work is not that of such a binding too. -/
theorem half_initialised_redone_iff (completes : Completes setting t store log s) :
    (∀ e ∈ evaluations s.history, e.occasion = .first → e.met = true →
        Redone (evaluations s.history) e) ∧
      ((∀ e ∈ evaluations s.history, e.met = true → Redone (evaluations s.history) e) ↔
        ∀ e ∈ evaluations s.history, e.occasion = .statement → e.met = true →
          ∃ b ∈ evaluations s.history, b.occasion = .first ∧ b.met = true ∧ b.work = e.work) := by
  obtain ⟨before, walk, account⟩ := completes.account
  have bindings (e) (member : e ∈ evaluations s.history) (first : e.occasion = .first)
      (met : e.met = true) : Redone (evaluations s.history) e :=
    account.redone_iff.2 (mem_putDown.2 ⟨e, member, first, met, rfl⟩)
  refine ⟨bindings, ?_, ?_⟩
  · intro all e member _ met
    exact mem_putDown.1 (account.redone_iff.1 (all e member met))
  · intro statements e member met
    cases occasion : e.occasion with
    | first => exact bindings e member occasion met
    | again => exact absurd met (by simp [account.calm e member occasion])
    | statement =>
      exact account.redone_iff.2 (mem_putDown.2 (statements e member occasion met))

theorem half_initialised_redone_direct :
    ∃ s, Completes (Looping.settingOf Looping.direct) Looping.direct Looping.objects [] s ∧
      (∃ e ∈ evaluations s.history, e.met = true) ∧
      ∀ e ∈ evaluations s.history, e.met = true → Redone (evaluations s.history) e := by
  obtain ⟨s, completes, tested⟩ := Looping.completes_of_passes Looping.direct
    (fun s => (evaluations s.history).any (·.met) &&
      (evaluations s.history).all fun e => e.occasion ≠ .statement) (by decide +kernel)
  simp only [Bool.and_eq_true, List.any_eq_true, List.all_eq_true, decide_eq_true_eq] at tested
  refine ⟨s, completes, tested.1, (half_initialised_redone_iff completes).2.2 ?_⟩
  intro e member statement
  exact absurd statement (tested.2 e member)

/-- The called rule is run while the lazy rule is filled in, and its statement stays as it was. -/
theorem half_initialised_statement_stays :
    ∃ s, Completes (Looping.settingOf Looping.throughBody) Looping.throughBody Looping.objects [] s ∧
      ∃ e ∈ evaluations s.history, e.occasion = .statement ∧ e.met = true ∧
        ¬ Redone (evaluations s.history) e := by
  obtain ⟨s, completes, tested⟩ := Looping.completes_of_passes Looping.throughBody
    (fun s =>
      ((evaluations s.history).any fun e =>
        decide (e.occasion = .statement) && e.met && e.work.feature == "f") &&
      (evaluations s.history).all fun r => !r.repeats || r.work.feature == "g") (by decide +kernel)
  simp only [Bool.and_eq_true, List.any_eq_true, List.all_eq_true, decide_eq_true_eq, beq_iff_eq,
    Bool.or_eq_true, Bool.not_eq_true'] at tested
  obtain ⟨⟨e, member, ⟨statement, met⟩, own⟩, others⟩ := tested
  refine ⟨s, completes, e, member, statement, met, ?_⟩
  rintro ⟨r, again, occasion, -, -, same⟩
  have other := (others r again).resolve_left (by simp [Evaluation.repeats, occasion])
  rw [same, own] at other
  exact absurd other (by decide)

end Metamorph
