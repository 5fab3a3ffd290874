import Metamorph.Proofs.Relocation

/-! One program, evaluated in several ways. The places of the program can be changed, and expressions may do
to the faults that they hand on what they like: the same things happen, and the same values come out. Faults
differ as far as it is left open here. -/
namespace Metamorph

/-- Programs with their places changed, and a family of evaluations of them. `shows` tells how a fault
of the program looks in all of these; a fault is raised alike, but for the place of an unbound variable.
-/
structure Mirror (ι : Type) where
  place : Location → Location
  shows : Fault → (ι → Fault) → Prop
  raised : ∀ fault, shows fault fun _ => fault
  unbound : ∀ cause loc, shows (.diagnosed (.of cause (.ofLocation loc)))
    fun _ => .diagnosed (.of cause (.ofLocation (place loc)))

namespace Mirror
open Run
variable {ι α β γ δ : Type} (m : Mirror ι)

/-- All the runs end as the first one does, in the state that has the places changed, and with what the
function makes of its result. -/
def Ends (f : α → β) : Outcome Engine α → (ι → Outcome Engine β) → Prop
  | .value a t, images => ∀ i, images i = .value (f a) (t.moved m.place)
  | .failure fault t, images =>
    ∃ faults, m.shows fault faults ∧ ∀ i, images i = .failure (faults i) (t.moved m.place)
  | .exhausted, images => ∀ i, images i = .exhausted

/-- From whatever state, all the runs do what the first one does. -/
def Reflects (f : α → β) (run : Run Engine α) (images : ι → Run Engine β) : Prop :=
  ∀ s, m.Ends f (run s) fun i => images i (s.moved m.place)

namespace Reflects
variable {m} {f : α → β} {g : γ → δ} {run : Run Engine α} {images : ι → Run Engine β}

theorem pure (a : α) : m.Reflects f (Pure.pure a) fun _ => Pure.pure (f a) := fun _ _ => rfl

theorem fail (fault : Fault) : m.Reflects f (Run.fail fault) fun _ => Run.fail fault :=
  fun _ => ⟨_, m.raised fault, fun _ => rfl⟩

theorem cutOff : m.Reflects f Run.cutOff fun _ => Run.cutOff := fun _ _ => rfl

theorem modify {change further : Engine → Engine}
    (same : ∀ s, further (s.moved m.place) = (change s).moved m.place) :
    m.Reflects id (Run.modify change) fun _ => Run.modify further :=
  fun s _ => congrArg (Outcome.value ()) (same s)

theorem ofResult (result : Result α) : m.Reflects id (Run.ofResult result) fun _ => Run.ofResult result := by
  intro s
  cases result with
  | ok a => exact fun _ => rfl
  | error fault => exact ⟨_, m.raised fault, fun _ => rfl⟩

theorem collaborate (target : String) (answer : Result α) :
    m.Reflects id (Engine.collaborate target answer) fun _ => Engine.collaborate target answer := by
  intro s
  cases answer with
  | ok a => exact fun _ => rfl
  | error fault => exact ⟨_, m.raised (fault.ofCollaborator target), fun _ => rfl⟩

/-- What is read of the state is the same, so that what is done with it may depend on it. -/
theorem reading {next : Engine → Run Engine α} {further : ι → Engine → Run Engine β}
    (rest : ∀ s, m.Reflects f (next s) fun i => further i (s.moved m.place)) :
    m.Reflects f (Run.state >>= next) fun i => Run.state >>= further i :=
  fun s => rest s s

theorem bind {next : α → Run Engine γ} {further : ι → β → Run Engine δ}
    (first : m.Reflects f run images) (rest : ∀ a, m.Reflects g (next a) fun i => further i (f a)) :
    m.Reflects g (run >>= next) fun i => images i >>= further i := by
  intro s
  have start := first s
  cases outcome : run s with
  | value a t =>
    rw [outcome] at start
    have behind := rest a t
    rw [bind_of_value outcome]
    have same (i : ι) : (images i >>= further i) (s.moved m.place) = further i (f a) (t.moved m.place) :=
      bind_of_value (start i)
    simpa only [same] using behind
  | failure fault t =>
    rw [outcome] at start
    obtain ⟨faults, shown, fails⟩ := start
    rw [bind_of_failure outcome]
    exact ⟨faults, shown, fun i => bind_of_failure (fails i)⟩
  | exhausted =>
    rw [outcome] at start
    rw [bind_eq_exhausted.2 (.inl outcome)]
    exact fun i => bind_eq_exhausted.2 (.inl (start i))

/-- Where the results are the same. -/
theorem andThen {run : Run Engine α} {images : ι → Run Engine α} {next : α → Run Engine γ}
    {further : ι → α → Run Engine δ} (first : m.Reflects id run images)
    (rest : ∀ a, m.Reflects g (next a) fun i => further i a) :
    m.Reflects g (run >>= next) fun i => images i >>= further i :=
  bind first rest

theorem ite {p : Prop} [Decidable p] {other : Run Engine α} {others : ι → Run Engine β}
    (yes : m.Reflects f run images) (no : m.Reflects f other others) :
    m.Reflects f (if p then run else other) fun i => if p then images i else others i := by
  split
  · exact yes
  · exact no

/-- A check that fails stops all of them. -/
theorem guarded {p : Prop} [Decidable p] {fault : Fault} {next : Unit → Run Engine α}
    {further : ι → Unit → Run Engine β} (rest : m.Reflects f (next ()) fun i => further i ()) :
    m.Reflects f (if p then Run.fail fault >>= next else next ())
      fun i => if p then Run.fail fault >>= further i else further i () :=
  .ite (.andThen (.fail _) fun _ => rest) rest

theorem mapFault {change : Fault → Fault} {changes : ι → Fault → Fault}
    (reflects : m.Reflects f run images)
    (shown : ∀ fault faults,
      m.shows fault faults → m.shows (change fault) fun i => changes i (faults i)) :
    m.Reflects f (Run.mapFault change run) fun i => Run.mapFault (changes i) (images i) := by
  intro s
  have start := reflects s
  unfold Run.mapFault
  cases outcome : run s with
  | value a t =>
    rw [outcome] at start
    intro i
    simp only [start i]
  | failure fault t =>
    rw [outcome] at start
    obtain ⟨faults, shows, fails⟩ := start
    exact ⟨_, shown fault faults shows, fun i => by simp only [fails i]⟩
  | exhausted =>
    rw [outcome] at start
    intro i
    simp only [start i]

theorem ensuring {change further : Engine → Engine} (reflects : m.Reflects f run images)
    (same : ∀ s, further (s.moved m.place) = (change s).moved m.place) :
    m.Reflects f (Run.ensuring change run) fun i => Run.ensuring further (images i) := by
  intro s
  have start := reflects s
  unfold Run.ensuring
  cases outcome : run s with
  | value a t =>
    rw [outcome] at start
    intro i
    simp only [start i, same]
  | failure fault t =>
    rw [outcome] at start
    obtain ⟨faults, shows, fails⟩ := start
    exact ⟨faults, shows, fun i => by simp only [fails i, same]⟩
  | exhausted =>
    rw [outcome] at start
    intro i
    simp only [start i]

theorem nest {event : Option α → List Event → Event} {further : Option β → List Event → Event}
    (reflects : m.Reflects f run images)
    (same : ∀ a events, further (a.map f) (movedEvents m.place events) = (event a events).moved m.place) :
    m.Reflects f (Engine.nest event run) fun i => Engine.nest further (images i) := by
  intro s
  have start := reflects { s with history := [] }
  have told (a : Option α) (events : List Event) :
      movedEvents m.place s.history ++ [further (a.map f) (movedEvents m.place events)] =
        movedEvents m.place (s.history ++ [event a events]) := by
    rw [same, movedEvents_append]
    rfl
  have inside (i : ι) : images i { s.moved m.place with history := [] } =
      images i (({ s with history := [] } : Engine).moved m.place) := rfl
  unfold Engine.nest
  simp only [inside]
  cases outcome : run { s with history := [] } with
  | value a t =>
    rw [outcome] at start
    intro i
    simp only [start i]
    exact congrArg (fun history => Outcome.value (f a) { t.moved m.place with history })
      (told (some a) t.history)
  | failure fault t =>
    rw [outcome] at start
    obtain ⟨faults, shows, fails⟩ := start
    refine ⟨faults, shows, fun i => ?_⟩
    simp only [fails i]
    exact congrArg (fun history => Outcome.failure (faults i) { t.moved m.place with history })
      (told none t.history)
  | exhausted =>
    rw [outcome] at start
    intro i
    simp only [start i]

end Reflects

end Mirror

end Metamorph
