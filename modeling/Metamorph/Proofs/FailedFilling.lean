import Metamorph.Proofs.Memo

/-! Lazy rules whose outputs could not all be filled in. The memory keeps such outputs as it keeps any
others, and whoever asks for them later gets them as they were left. -/
namespace Metamorph

/-- The request was answered with outputs that were made for it, after every binding of theirs was
evaluated and assigned. -/
def Request.Filled (setting : Setting) (t : Transformation) (q : Request) : Prop :=
  ∃ rule outputs inner, t.module.lazyRule? q.rule = some rule ∧
    q.inner = [.application rule.name rule.outputs [] outputs inner] ∧
    q.result = some (Engine.answer rule outputs) ∧
    rule.FilledBy setting q.argument outputs inner

namespace Request
variable {setting : Setting} {t : Transformation} {cache : LazyCache} {q : Request}

theorem Begun.filled (begun : q.Begun setting t cache) (returns : q.returns = true) :
    q.Filled setting t := by
  obtain ⟨rule, outputs, inner, known, application, -, filled⟩ := begun
  obtain ⟨v, result⟩ := Option.isSome_iff_exists.1 returns
  obtain ⟨rfl, whole⟩ := filled v result
  exact ⟨rule, outputs, inner, known, application, result, whole⟩

theorem Filled.begins (filled : q.Filled setting t) : q.begins = true := by
  obtain ⟨rule, outputs, inner, -, application, -⟩ := filled
  rw [Request.begins, application]
  rfl

theorem Filled.returns (filled : q.Filled setting t) : q.returns = true := by
  obtain ⟨rule, outputs, inner, -, -, result, -⟩ := filled
  rw [Request.returns, result]
  rfl

end Request

section
variable {setting : Setting} {t : Transformation} {store : Store} {log : List LogRecord}
  {u : Engine}

/-- Of requests with one pair only one makes outputs. -/
theorem Served.begins_once {asked : List Request} {cache : LazyCache}
    (served : Served setting t asked {} cache) {q r : Request} (member : q ∈ asked)
    (present : r ∈ asked) (begins : q.begins = true) (starts : r.begins = true)
    (same : q.pair = r.pair) : q = r := by
  have unique := served.pairs_perm.nodup_iff.1 served.pairs_nodup
  exact List.inj_on_of_nodup_map unique (List.mem_filter.2 ⟨member, begins⟩)
    (List.mem_filter.2 ⟨present, starts⟩) same

/-- A request that is answered while its pair is not being filled in is answered with outputs that
are filled in, exactly if no earlier request failed to fill in the outputs of the pair. -/
theorem answered_filled_iff (given : setting.transformation = some t)
    (reaches : Engine.Reaches setting t store log u) {front back : List Request} {q : Request}
    (split : requests u.history = front ++ q :: back) (returns : q.returns = true)
    (outside : q.pair ∉ q.around) :
    (∃ r ∈ front ++ [q], r.pair = q.pair ∧ r.result = q.result ∧ r.Filled setting t) ↔
      ∀ r ∈ front, r.pair = q.pair → r.begins = true → r.returns = true := by
  obtain ⟨served, remembered, -⟩ := reaches.served given
  have inside {r : Request} (member : r ∈ front ++ [q]) : r ∈ requests u.history := by
    rw [split, ← List.singleton_append, ← List.append_assoc]
    exact List.mem_append_left _ member
  have own : q ∈ front ++ [q] := List.mem_append_right _ (List.mem_singleton_self q)
  constructor
  · rintro ⟨r, member, same, -, filled⟩ d earlier paired begins
    have first := inside (List.mem_append_left [q] earlier)
    obtain rfl := served.begins_once first (inside member) begins filled.begins
      (paired.trans same.symm)
    exact filled.returns
  · intro succeeded
    obtain ⟨r, member, begins, same⟩ : ∃ r ∈ front ++ [q], r.begins = true ∧ r.pair = q.pair := by
      rcases served.origin front q back split returns with before | midst | began
      · cases before
      · exact absurd midst outside
      · exact began
    have replies : r.returns = true := by
      rcases List.mem_append.1 member with earlier | last
      · exact succeeded r earlier same begins
      · obtain rfl := List.mem_singleton.1 last
        exact returns
    have answer := (served.same_result_iff remembered (inside member) (inside own) replies
      returns).2 same
    exact ⟨r, member, same, answer, (served.begun r (inside member) begins).filled replies⟩

theorem answered_filled_direct :
    ∃ u front q,
      Engine.Reaches (Looping.settingOf Looping.direct) Looping.direct Looping.objects [] u ∧
      requests u.history = front ++ [q] ∧ q.begins = false ∧
      ∃ r ∈ front ++ [q], r.pair = q.pair ∧ r.result = q.result ∧
        r.Filled (Looping.settingOf Looping.direct) Looping.direct := by
  obtain ⟨u, completes, tested⟩ := Looping.completes_of_passes Looping.direct
    (fun u => (requests u.history).all (·.returns) && (requests u.history).getLast?.any fun q : Request =>
      !q.begins && decide (q.pair ∉ q.around)) (by decide +kernel)
  simp only [Bool.and_eq_true, List.all_eq_true, Option.any_eq_true, Bool.not_eq_true',
    decide_eq_true_eq] at tested
  obtain ⟨all, q, last, asks, outside⟩ := tested
  obtain ⟨front, split⟩ := List.getLast?_eq_some_iff.1 last
  have returns : q.returns = true := all q (by rw [split]; simp)
  refine ⟨u, front, q, completes.reaches, split, asks, ?_⟩
  refine (answered_filled_iff rfl completes.reaches split returns outside).2 fun r earlier _ _ => ?_
  exact all r (by rw [split]; exact List.mem_append_left _ earlier)

namespace Looping

/-- The first binding of the lazy rule divides by zero. -/
def failing : Transformation :=
  transformation [] [⟨"f", .binary .intDiv five (.literal (.integer 0) {}) {}⟩, ⟨"g", five⟩]
    [⟨"f", call "L"⟩] []

/-- The called rule fails, and at once succeeds in a state that passes the test. -/
def failsOnce (t : Transformation) (test : Engine → Bool) (s : Engine) : Bool :=
  match Engine.callRule (settingOf t) t "C" [.object 0] s with
  | .failure _ w => passes test (Engine.callRule (settingOf t) t "C" [.object 0] w)
  | _ => false

theorem of_failsOnce {t : Transformation} {test : Engine → Bool} {s : Engine}
    (passed : failsOnce t test s = true) :
    ∃ fault w v u, Engine.callRule (settingOf t) t "C" [.object 0] s = .failure fault w ∧
      Engine.callRule (settingOf t) t "C" [.object 0] w = .value v u ∧ test u = true := by
  unfold failsOnce at passed
  split at passed
  · rename_i fault w failed
    obtain ⟨v, u, ended, tested⟩ := of_passes passed
    exact ⟨fault, w, v, u, failed, ended, tested⟩
  · cases passed

end Looping

/-- After a run, a called rule asks for outputs that cannot be filled in and fails. Called once more it
is answered with them, though none of their bindings was assigned. -/
theorem failed_filling_answers :
    ∃ s fault w v u, Completes (Looping.settingOf Looping.failing) Looping.failing Looping.objects [] s ∧
      Engine.callRule (Looping.settingOf Looping.failing) Looping.failing "C" [.object 0] s =
        .failure fault w ∧
      Engine.callRule (Looping.settingOf Looping.failing) Looping.failing "C" [.object 0] w =
        .value v u ∧
      ∃ q ∈ requests u.history, q.returns = true ∧ q.pair ∉ q.around ∧
        ∀ r ∈ requests u.history, r.pair = q.pair →
          ¬ r.Filled (Looping.settingOf Looping.failing) Looping.failing := by
  obtain ⟨s, completes, passed⟩ := Looping.completes_of_passes Looping.failing
    (Looping.failsOnce Looping.failing fun u => (requests u.history).any fun q =>
      q.returns && decide (q.pair ∉ q.around) && (requests u.history).all fun r =>
        !(decide (r.pair = q.pair) && r.begins && r.returns)) (by decide +kernel)
  obtain ⟨fault, w, v, u, failed, ended, tested⟩ := Looping.of_failsOnce passed
  simp only [List.any_eq_true, Bool.and_eq_true, List.all_eq_true, decide_eq_true_eq,
    Bool.not_eq_true', Bool.and_eq_false_iff, decide_eq_false_iff_not] at tested
  obtain ⟨q, member, ⟨returns, outside⟩, others⟩ := tested
  refine ⟨s, fault, w, v, u, completes, failed, ended, q, member, returns, outside, ?_⟩
  intro r present same filled
  rcases others r present with (other | idle) | fails
  · exact other same
  · exact absurd filled.begins (by simp [idle])
  · exact absurd filled.returns (by simp [fails])

end

end Metamorph
