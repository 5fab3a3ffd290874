import Metamorph.Engine.Navigation

/-! Runs taken apart. A run built from others ends with a value exactly when they do in turn, and it
keeps a relation between the states before and after whenever they do. -/
namespace Metamorph

namespace Run
variable {σ α β γ : Type} {s t : σ} {a : α}

theorem bind_assoc {run : Run σ α} {next : α → Run σ β} {last : β → Run σ γ} :
    run >>= next >>= last = run >>= fun a => next a >>= last := by
  funext s
  change Run.bind (Run.bind run next) last s = Run.bind run (fun a => Run.bind (next a) last) s
  unfold Run.bind
  cases run s <;> rfl

theorem bind_pure (run : Run σ α) : (run >>= fun a => pure a) = run := by
  funext s
  change Run.bind run _ s = _
  unfold Run.bind
  cases run s <;> rfl

theorem state_bind {next : σ → Run σ α} : (Run.state >>= next) s = next s s := rfl

theorem bind_of_value {run : Run σ α} {next : α → Run σ β} (ended : run s = .value a t) :
    (run >>= next) s = next a t := by
  change Run.bind run next s = _
  simp only [Run.bind, ended]

theorem bind_of_failure {run : Run σ α} {next : α → Run σ β} {fault : Fault}
    (failed : run s = .failure fault t) : (run >>= next) s = .failure fault t := by
  change Run.bind run next s = _
  simp only [Run.bind, failed]

/-- Runs that end alike go on alike. -/
theorem bind_congr {run other : Run σ α} {next : α → Run σ β} (same : run s = other t) :
    (run >>= next) s = (other >>= next) t := by
  change Run.bind run next s = Run.bind other next t
  simp only [Run.bind, same]

/-- What comes next matters only where the first run ends. -/
theorem bind_congr_next {run : Run σ α} {next other : α → Run σ β}
    (same : ∀ a t, run s = .value a t → next a t = other a t) :
    (run >>= next) s = (run >>= other) s := by
  change Run.bind run next s = Run.bind run other s
  unfold Run.bind
  cases ended : run s with
  | value a t => exact same a t ended
  | failure fault t => rfl
  | exhausted => rfl

theorem bind_eq_value {run : Run σ α} {next : α → Run σ β} {b : β} :
    (run >>= next) s = .value b t ↔ ∃ a u, run s = .value a u ∧ next a u = .value b t := by
  change Run.bind run next s = _ ↔ _
  unfold Run.bind
  cases run s with
  | value a u =>
    constructor
    · intro ended
      exact ⟨a, u, rfl, ended⟩
    · rintro ⟨_, _, same, ended⟩
      cases same
      exact ended
  | failure fault u => simp
  | exhausted => simp

@[simp]
theorem pure_eq_value {b : α} : (pure b : Run σ α) s = .value a t ↔ b = a ∧ s = t := by
  change Outcome.value b s = _ ↔ _
  simp

@[simp]
theorem state_eq_value {u : σ} : (Run.state : Run σ σ) s = .value u t ↔ s = u ∧ s = t := by
  simp [Run.state]

@[simp]
theorem modify_eq_value {change : σ → σ} {u : Unit} :
    Run.modify change s = .value u t ↔ change s = t := by
  simp [Run.modify]

@[simp]
theorem fail_ne_value {fault : Fault} : (Run.fail fault : Run σ α) s ≠ .value a t := by
  simp [Run.fail]

@[simp]
theorem cutOff_ne_value : (Run.cutOff : Run σ α) s ≠ .value a t := by
  simp [Run.cutOff]

@[simp]
theorem ofResult_eq_value {result : Result α} :
    (Run.ofResult result : Run σ α) s = .value a t ↔ result = .ok a ∧ s = t := by
  cases result <;> simp [Run.ofResult]

@[simp]
theorem mapFault_eq_value {change : Fault → Fault} {run : Run σ α} :
    Run.mapFault change run s = .value a t ↔ run s = .value a t := by
  cases ended : run s <;> simp [Run.mapFault, ended]

theorem guarded_eq_value {p : Prop} [Decidable p] {fault : Fault} {next : Unit → Run σ α} :
    (if p then Run.fail fault >>= next else next ()) s = .value a t ↔
      ¬p ∧ next () s = .value a t := by
  split <;> simp [bind_eq_value, *]

theorem ensuring_eq_value {change : σ → σ} {run : Run σ α} :
    Run.ensuring change run s = .value a t ↔ ∃ u, run s = .value a u ∧ change u = t := by
  cases ended : run s with
  | value b u => simp [Run.ensuring, ended, and_assoc]
  | failure fault u => simp [Run.ensuring, ended]
  | exhausted => simp [Run.ensuring, ended]

section
variable {fault : Fault}

theorem bind_eq_failure {run : Run σ α} {next : α → Run σ β} :
    (run >>= next) s = .failure fault t ↔
      run s = .failure fault t ∨ ∃ a u, run s = .value a u ∧ next a u = .failure fault t := by
  change Run.bind run next s = _ ↔ _
  unfold Run.bind
  cases run s with
  | value a u => simp [and_assoc]
  | failure other u => simp
  | exhausted => simp

@[simp]
theorem pure_ne_failure {b : α} : (pure b : Run σ α) s ≠ .failure fault t := by
  change Outcome.value b s ≠ _
  simp

@[simp]
theorem state_ne_failure : (Run.state : Run σ σ) s ≠ .failure fault t := by
  simp [Run.state]

@[simp]
theorem modify_ne_failure {change : σ → σ} : Run.modify change s ≠ .failure fault t := by
  simp [Run.modify]

@[simp]
theorem ofResult_eq_failure {result : Result α} :
    (Run.ofResult result : Run σ α) s = .failure fault t ↔ result = .error fault ∧ s = t := by
  cases result <;> simp [Run.ofResult]

theorem bind_eq_exhausted {run : Run σ α} {next : α → Run σ β} :
    (run >>= next) s = .exhausted ↔
      run s = .exhausted ∨ ∃ a u, run s = .value a u ∧ next a u = .exhausted := by
  change Run.bind run next s = _ ↔ _
  unfold Run.bind
  cases run s with
  | value a u => simp [and_assoc]
  | failure other u => simp
  | exhausted => simp

theorem rescue_eq_exhausted {run : Run σ α} {handler : Fault → Run σ α}
    (certain : ∀ fault u, handler fault u ≠ .exhausted) :
    Run.rescue run handler s = .exhausted ↔ run s = .exhausted := by
  cases ended : run s with
  | value b u => simp [Run.rescue, ended]
  | failure other u => simp [Run.rescue, ended, certain other u]
  | exhausted => simp [Run.rescue, ended]

theorem rescue_eq_failure {run : Run σ α} {handler : Fault → Run σ α} :
    Run.rescue run handler s = .failure fault t ↔
      ∃ other u, run s = .failure other u ∧ handler other u = .failure fault t := by
  cases ended : run s with
  | value b u => simp [Run.rescue, ended]
  | failure other u => simp [Run.rescue, ended, and_assoc]
  | exhausted => simp [Run.rescue, ended]

theorem ensuring_eq_failure {change : σ → σ} {run : Run σ α} :
    Run.ensuring change run s = .failure fault t ↔
      ∃ u, run s = .failure fault u ∧ change u = t := by
  cases ended : run s with
  | value b u => simp [Run.ensuring, ended]
  | failure fault u => simp [Run.ensuring, ended, and_assoc]
  | exhausted => simp [Run.ensuring, ended]

end

theorem rescue_eq_value {run : Run σ α} {handler : Fault → Run σ α}
    (fails : ∀ fault u, handler fault u ≠ .value a t) :
    Run.rescue run handler s = .value a t ↔ run s = .value a t := by
  cases ended : run s with
  | value b u => simp [Run.rescue, ended]
  | failure fault u => simp [Run.rescue, ended, fails fault u]
  | exhausted => simp [Run.rescue, ended]

end Run

/-- A relation between the states before and after runs that end with a value, one for those that
fail, and the states from which a run may be cut off. -/
structure Conduct (σ : Type) where
  ends : σ → σ → Prop
  fails : σ → σ → Prop
  cut : σ → Prop := fun _ => True
  refl : ∀ s, ends s s
  trans : ∀ {s t u}, ends s t → ends t u → ends s u
  stop : ∀ s, fails s s
  after : ∀ {s t u}, ends s t → fails t u → fails s u
  before : ∀ {s t}, ends s t → cut t → cut s := by exact fun _ _ => trivial

/-- What holds of runs that end with a value alone. -/
def Conduct.ofEnds {σ : Type} (ends : σ → σ → Prop) (refl : ∀ s, ends s s)
    (trans : ∀ {s t u}, ends s t → ends t u → ends s u) : Conduct σ where
  ends
  fails := fun _ _ => True
  refl
  trans
  stop := fun _ => trivial
  after := fun _ _ => trivial

/-- Runs that change nothing. -/
def Conduct.still {σ : Type} : Conduct σ := .ofEnds Eq (fun _ => rfl) Eq.trans

def Conduct.Allows {σ α : Type} (c : Conduct σ) (s : σ) : Outcome σ α → Prop
  | .value _ t => c.ends s t
  | .failure _ t => c.fails s t
  | .exhausted => c.cut s

/-- A relation that holds however the run ends. -/
def Conduct.both {σ : Type} (keeps : σ → σ → Prop) (refl : ∀ s, keeps s s)
    (trans : ∀ {s t u}, keeps s t → keeps t u → keeps s u) : Conduct σ where
  ends := keeps
  fails := keeps
  refl
  trans
  stop := refl
  after := trans

namespace Conduct.Allows
variable {σ α β : Type} {c : Conduct σ} {s t : σ} {outcome : Outcome σ α}

theorem value {a : α} (kept : c.Allows s outcome) (ended : outcome = .value a t) : c.ends s t := by
  subst ended
  exact kept

theorem failure {fault : Fault} (kept : c.Allows s outcome) (failed : outcome = .failure fault t) :
    c.fails s t := by
  subst failed
  exact kept

/-- What is kept from a later state on is kept from an earlier one. -/
theorem since (start : c.ends s t) (kept : c.Allows t outcome) : c.Allows s outcome := by
  cases outcome with
  | value a u => exact c.trans start kept
  | failure fault u => exact c.after start kept
  | exhausted => exact c.before start kept

theorem imp {weak : Conduct σ} {r : σ} (kept : c.Allows s outcome)
    (ends : ∀ {t}, c.ends s t → weak.ends r t) (fails : ∀ {t}, c.fails s t → weak.fails r t)
    (cut : c.cut s → weak.cut r) : weak.Allows r outcome := by
  cases outcome with
  | value a u => exact ends kept
  | failure fault u => exact fails kept
  | exhausted => exact cut kept

theorem bind {r : σ} {run : Run σ α} {next : α → Run σ β} (first : c.Allows s (run r))
    (rest : ∀ {a t}, run r = .value a t → c.Allows t (next a t)) :
    c.Allows s ((run >>= next) r) := by
  change c.Allows s (Run.bind run next r)
  unfold Run.bind
  cases ended : run r with
  | value a t =>
    have behind := rest ended
    rw [ended] at first
    dsimp only
    cases finished : next a t with
    | value b u =>
      rw [finished] at behind
      exact c.trans first behind
    | failure fault u =>
      rw [finished] at behind
      exact c.after first behind
    | exhausted =>
      rw [finished] at behind
      exact c.before first behind
  | failure fault t =>
    rw [ended] at first
    exact first
  | exhausted =>
    rw [ended] at first
    exact first

theorem ensuring {change : σ → σ} {run : Run σ α} (kept : c.Allows s (run s))
    (ending : ∀ t, c.ends t (change t)) (failing : ∀ {t}, c.fails s t → c.fails s (change t)) :
    c.Allows s (Run.ensuring change run s) := by
  unfold Run.ensuring
  cases ended : run s with
  | value a t =>
    rw [ended] at kept
    exact c.trans kept (ending t)
  | failure fault t =>
    rw [ended] at kept
    exact failing kept
  | exhausted =>
    rw [ended] at kept
    exact kept

end Conduct.Allows

namespace Run
variable {σ α β : Type} {c : Conduct σ}

/-- However the run ends, from whatever state it starts. -/
def Keeps (c : Conduct σ) (run : Run σ α) : Prop := ∀ s, c.Allows s (run s)

namespace Keeps

theorem pure (a : α) : Keeps c (Pure.pure a : Run σ α) := c.refl

theorem state : Keeps c (Run.state : Run σ σ) := c.refl

theorem fail (fault : Fault) : Keeps c (Run.fail fault : Run σ α) := c.stop

theorem cutOff (cut : ∀ s, c.cut s) : Keeps c (Run.cutOff : Run σ α) := cut

theorem modify {change : σ → σ} (kept : ∀ s, c.ends s (change s)) :
    Keeps c (Run.modify change) := kept

theorem ofResult (result : Result α) : Keeps c (Run.ofResult result : Run σ α) := by
  intro s
  cases result with
  | ok a => exact c.refl s
  | error fault => exact c.stop s

theorem bind {run : Run σ α} {next : α → Run σ β} (first : Keeps c run)
    (rest : ∀ a, Keeps c (next a)) : Keeps c (run >>= next) :=
  fun s => (first s).bind fun {a t} _ => rest a t

theorem map {run : Run σ α} (f : α → β) (kept : Keeps c run) : Keeps c (f <$> run) :=
  bind kept fun a => pure (f a)

theorem mapFault {run : Run σ α} (change : Fault → Fault) (kept : Keeps c run) :
    Keeps c (Run.mapFault change run) := by
  intro s
  have before := kept s
  unfold Run.mapFault
  cases ended : run s with
  | value a t => rwa [ended] at before
  | failure fault t =>
    rw [ended] at before
    exact before
  | exhausted => rwa [ended] at before

theorem collaborate {c : Conduct Engine} (target : String) (answer : Result α) :
    Keeps c (Engine.collaborate target answer) := mapFault _ (ofResult answer)

theorem rescue {run : Run σ α} {handler : Fault → Run σ α} (kept : Keeps c run)
    (failing : ∀ {s t}, c.fails s t → c.ends s t) (handled : ∀ fault, Keeps c (handler fault)) :
    Keeps c (Run.rescue run handler) := by
  intro s
  have before := kept s
  unfold Run.rescue
  cases ended : run s with
  | value a t => rwa [ended] at before
  | failure fault t =>
    rw [ended] at before
    exact (handled fault t).since (failing before)
  | exhausted => rwa [ended] at before

/-- A conduct that allows any failure is kept by what keeps it when it ends with a value. -/
theorem ofEnds {run : Run σ α} (failing : ∀ s t, c.fails s t) (cut : ∀ s, c.cut s)
    (ending : ∀ {s a t}, run s = .value a t → c.ends s t) : Keeps c run := by
  intro s
  cases ended : run s with
  | value a t => exact ending ended
  | failure fault t => exact failing s t
  | exhausted => exact cut s

/-- A weaker conduct is kept by what keeps a stronger one. -/
theorem imp {weak : Conduct σ} {run : Run σ α} (kept : Keeps c run)
    (ends : ∀ {s t}, c.ends s t → weak.ends s t) (fails : ∀ {s t}, c.fails s t → weak.fails s t)
    (cut : ∀ {s}, c.cut s → weak.cut s) : Keeps weak run :=
  fun s => (kept s).imp ends fails cut

theorem value {run : Run σ α} (kept : Keeps c run) {s t : σ} {a : α}
    (ended : run s = .value a t) : c.ends s t :=
  (kept s).value ended

theorem failure {run : Run σ α} (kept : Keeps c run) {s t : σ} {fault : Fault}
    (failed : run s = .failure fault t) : c.fails s t :=
  (kept s).failure failed

end Keeps

end Run

namespace Engine
variable {α : Type} {s t : Engine} {a : α}

@[simp]
theorem collaborate_eq_value {target : String} {answer : Result α} :
    collaborate target answer s = .value a t ↔ answer = .ok a ∧ s = t := by
  simp [collaborate]

theorem nest_eq_value {event : Option α → List Event → Event} {body : Run Engine α} :
    nest event body s = .value a t ↔
      ∃ u, body { s with history := [] } = .value a u ∧
        { u with history := s.history ++ [event (some a) u.history] } = t := by
  unfold nest
  cases ended : body { s with history := [] } with
  | value b u =>
    constructor
    · intro same
      cases same
      exact ⟨u, rfl, rfl⟩
    · rintro ⟨_, same, rfl⟩
      cases same
      rfl
  | failure fault u => simp
  | exhausted => simp

theorem nest_eq_failure {event : Option α → List Event → Event} {body : Run Engine α}
    {fault : Fault} :
    nest event body s = .failure fault t ↔
      ∃ u, body { s with history := [] } = .failure fault u ∧
        { u with history := s.history ++ [event none u.history] } = t := by
  unfold nest
  cases ended : body { s with history := [] } with
  | value b u => simp
  | failure fault u =>
    constructor
    · intro same
      cases same
      exact ⟨u, rfl, rfl⟩
    · rintro ⟨_, same, rfl⟩
      cases same
      rfl
  | exhausted => simp

/-- What is kept by a run, told as one event: the inner part of the event begins with nothing told. -/
theorem nest_allows {c weak : Conduct Engine} {r r' : Engine}
    {event : Option α → List Event → Event} {body : Run Engine α}
    (inside : c.Allows r (body { s with history := [] }))
    (ends : ∀ {a u}, body { s with history := [] } = .value a u → c.ends r u →
      weak.ends r' { u with history := s.history ++ [event (some a) u.history] })
    (fails : ∀ {u}, c.fails r u →
      weak.fails r' { u with history := s.history ++ [event none u.history] })
    (cut : c.cut r → weak.cut r') : weak.Allows r' (nest event body s) := by
  unfold nest
  cases ended : body { s with history := [] } with
  | value a u =>
    rw [ended] at inside
    exact ends ended inside
  | failure fault u =>
    rw [ended] at inside
    exact fails inside
  | exhausted =>
    rw [ended] at inside
    exact cut inside

end Engine

end Metamorph
