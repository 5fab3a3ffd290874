import Metamorph.Proofs.PhaseOrder
import Metamorph.Proofs.Reach

/-! How rules are nested. Whatever is evaluated comes back to the rules and bindings that were at work
before, whether it succeeds, fails or is broken off, and on the way no more rules are at work than the
limit allows. -/
namespace Metamorph

mutual

/-- How many invocations of rules stand within one another. -/
def Event.nesting : Event → Nat
  | .assignment _ _ _ inner => nestingAmong inner
  | .application _ _ _ _ inner => nestingAmong inner
  | .lazy _ _ _ _ inner => nestingAmong inner + 1
  | .called _ _ _ inner => nestingAmong inner + 1
  | .replayed _ _ _ => 0
  | .unowned _ _ => 0

def nestingAmong : List Event → Nat
  | [] => 0
  | event :: rest => max event.nesting (nestingAmong rest)

end

theorem nestingAmong_append (events more : List Event) :
    nestingAmong (events ++ more) = max (nestingAmong events) (nestingAmong more) := by
  induction events with
  | nil => simp [nestingAmong]
  | cons event rest ih => simp [nestingAmong, ih, Nat.max_assoc]

namespace Event
variable {event : Event} {inner : List Event}

theorem Works.nesting (works : event.Works inner) : nestingAmong [event] = nestingAmong inner := by
  cases event <;> simp_all [Works, nestingAmong, Event.nesting]

theorem Invokes.nesting (invokes : event.Invokes inner) :
    nestingAmong [event] = nestingAmong inner + 1 := by
  cases event <;> simp_all [Invokes, nestingAmong, Event.nesting]

theorem Notes.nesting (notes : event.Notes) : nestingAmong [event] = 0 := by
  cases event <;> simp_all [Notes, nestingAmong, Event.nesting]

end Event

/-- The same bindings are at work. The innermost one may have noted more. -/
inductive SameStack : List BindingFrame → List BindingFrame → Prop
  | empty : SameStack [] []
  | top {frame next below} (grows : frame.Grows next) : SameStack (frame :: below) (next :: below)

namespace SameStack
variable {frames next last : List BindingFrame}

theorem refl (frames : List BindingFrame) : SameStack frames frames := by
  cases frames with
  | nil => exact .empty
  | cons frame below => exact .top (.refl frame)

theorem trans (first : SameStack frames next) (rest : SameStack next last) :
    SameStack frames last := by
  cases first with
  | empty => exact rest
  | top grows =>
    cases rest with
    | top more => exact .top (grows.trans more)

theorem modifyHead {change : BindingFrame → BindingFrame}
    (grows : ∀ frame ∈ frames.head?, frame.Grows (change frame)) :
    SameStack frames (frames.modifyHead change) := by
  cases frames with
  | nil => exact .empty
  | cons frame below => exact .top (grows frame rfl)

theorem tail {frame : BindingFrame} (same : SameStack (frame :: frames) next) :
    next.tail = frames := by
  cases same
  rfl

end SameStack

namespace Engine
open Run

/-- At the end as many rules are at work as before, and the same bindings. What happened in between
nests no more rules than were left until the limit. -/
structure Nested (setting : Setting) (s u : Engine) : Prop where
  depth : u.depth = s.depth
  frames : SameStack s.frames u.frames
  history : ∃ done, u.history = s.history ++ done ∧
    (nestingAmong done = 0 ∨ (s.depth + nestingAmong done : Int) ≤ setting.settings.depthLimit)

namespace Nested
variable {setting : Setting} {s u w : Engine}

theorem of_same (depth : u.depth = s.depth) (frames : u.frames = s.frames)
    (history : u.history = s.history) : Nested setting s u where
  depth
  frames := frames ▸ .refl _
  history := ⟨[], by simpa using history, .inl rfl⟩

theorem refl (s : Engine) : Nested setting s s := of_same rfl rfl rfl

theorem trans (first : Nested setting s u) (rest : Nested setting u w) : Nested setting s w where
  depth := rest.depth.trans first.depth
  frames := first.frames.trans rest.frames
  history := by
    obtain ⟨done, before, few⟩ := first.history
    obtain ⟨more, behind, left⟩ := rest.history
    refine ⟨done ++ more, by rw [behind, before, List.append_assoc], ?_⟩
    rw [nestingAmong_append]
    rw [first.depth] at left
    omega

theorem stationary (stationary : Stationary s u) : Nested setting s u :=
  of_same stationary.depth stationary.frames stationary.history

theorem undisturbed (calm : Undisturbed s u) : Nested setting s u :=
  of_same calm.depth calm.frames calm.history

theorem quiet (quiet : Quiet s u) : Nested setting s u := by
  obtain ⟨_, _, _, _, _, _, _, _, _, rfl⟩ := quiet
  exact of_same rfl rfl rfl

theorem popped {frame : BindingFrame} (nested : Nested setting (pushFrame frame s) u) :
    Nested setting s u.popFrame where
  depth := nested.depth
  frames := by
    rw [popFrame, nested.frames.tail]
    exact .refl _
  history := nested.history

/-- What happens within an event that is no invocation. -/
theorem within {event : Event} (nested : Nested setting { s with history := [] } u)
    (works : event.Works u.history) :
    Nested setting s { u with history := s.history ++ [event] } where
  depth := nested.depth
  frames := nested.frames
  history := by
    obtain ⟨done, happened, few⟩ := nested.history
    refine ⟨[event], rfl, ?_⟩
    rw [works.nesting, happened]
    exact few

/-- A rule is entered, invoked and left. -/
theorem invoked {event : Event} (shallow : ¬ setting.settings.depthLimit ≤ s.depth)
    (nested : Nested setting { s.enter with history := [] } u) (invokes : event.Invokes u.history) :
    Nested setting s { u.leave with history := s.history ++ [event] } where
  depth := by
    change u.depth - 1 = s.depth
    rw [nested.depth]
    rfl
  frames := nested.frames
  history := by
    obtain ⟨done, happened, few⟩ := nested.history
    refine ⟨[event], rfl, ?_⟩
    have entered : s.enter.depth = s.depth + 1 := rfl
    rw [invokes.nesting, happened]
    change nestingAmong done = 0 ∨ (s.enter.depth + nestingAmong done : Int) ≤ _ at few
    rw [entered] at few
    change nestingAmong done + 1 = 0 ∨
      (s.depth + (nestingAmong done + 1 : Nat) : Int) ≤ setting.settings.depthLimit
    push_cast at few ⊢
    omega

end Nested

/-- Runs that come back to the rules and bindings at work. -/
def nested (setting : Setting) : Conduct Engine := .both (Nested setting) .refl .trans

section
variable {setting : Setting}

/-- A frame of its own is there for the body only. -/
theorem inFrame_allows {c : Conduct Engine} {α : Type} {frame : BindingFrame} {body : Run Engine α}
    {s : Engine} (kept : Keeps (nested setting) body)
    (popped : ∀ {u}, Nested setting (pushFrame frame s) u → c.ends s u.popFrame)
    (failed : ∀ {u}, Nested setting (pushFrame frame s) u → c.fails s u.popFrame) (cut : c.cut s) :
    c.Allows s (inFrame frame body s) := by
  have framed : Keeps (nested setting) (do
      let a ← body
      return (a, (← Run.state).frames.head?.getD frame)) :=
    .bind kept fun _ => .bind .state fun _ => .pure _
  have inside := framed (pushFrame frame s)
  change c.Allows s (Run.ensuring popFrame _ (pushFrame frame s))
  unfold Run.ensuring
  cases ended : (do
      let a ← body
      return (a, (← Run.state).frames.head?.getD frame) : Run Engine _) (pushFrame frame s) with
  | value a u =>
    rw [ended] at inside
    exact popped inside
  | failure fault u =>
    rw [ended] at inside
    exact failed inside
  | exhausted => exact cut

theorem nested_bears : Bears (nested setting) fun _ => True where
  stationary := .stationary
  later failed stationary := Nested.trans failed (.stationary stationary)
  defer _ := .of_same rfl rfl rfl
  heed grows := {
    depth := rfl
    frames := .modifyHead grows
    history := ⟨[], by simp [changeFrame], .inl rfl⟩ }
  note {s event} notes := {
    depth := rfl
    frames := .refl _
    history := ⟨[event], rfl, .inl notes.nesting⟩ }
  inFrame kept s := inFrame_allows kept Nested.popped Nested.popped trivial
  nest works kept s := nest_allows (kept { s with history := [] })
    (fun _ inside => Nested.within inside (works _ _)) (fun inside => Nested.within inside (works _ _)) id

theorem nested_encloses : Encloses setting (nested setting) (nested setting) := by
  intro α β s event run finish invokes shallow inside finishes
  cases ended : run { s.enter with history := [] } with
  | value a u =>
    rw [ended] at inside
    obtain ⟨b, finished⟩ := finishes a u.leave
    have left : (Run.ensuring leave run >>= finish) { s.enter with history := [] } =
        .value b u.leave := by
      refine bind_eq_value.2 ⟨a, u.leave, ?_, finished⟩
      exact ensuring_eq_value.2 ⟨u, ended, rfl⟩
    rw [nest_eq_value.2 ⟨_, left, rfl⟩]
    exact Nested.invoked shallow inside (invokes _ _)
  | failure fault u =>
    rw [ended] at inside
    have left : (Run.ensuring leave run >>= finish) { s.enter with history := [] } =
        .failure fault u.leave :=
      bind_eq_failure.2 (.inl (ensuring_eq_failure.2 ⟨u, ended, rfl⟩))
    rw [nest_eq_failure.2 ⟨_, left, rfl⟩]
    exact Nested.invoked shallow inside (invokes _ _)
  | exhausted =>
    have left : (Run.ensuring leave run >>= finish) { s.enter with history := [] } = .exhausted := by
      refine bind_eq_exhausted.2 (.inl ?_)
      unfold Run.ensuring
      rw [ended]
    unfold Engine.nest
    rw [left]
    trivial

variable {self : Evaluator} {t : Transformation} {s u : Engine}

theorem evaluateUntil_nested (stop : Interruption) (bound : Nat) (env : Environment) (e : Expr) :
    Keeps (nested setting) (evaluateUntil stop setting bound env e) :=
  evaluateUntil_keeps (fun _ => trivial)
    (fun _ kept => nested_bears.serves kept Nested.quiet nested_encloses) bound env e

/-- Runs that leave the bindings at work exactly as they were. -/
def framing : Conduct Engine :=
  .both (fun s u => u.frames = s.frames) (fun _ => rfl) fun first rest => rest.trans first

theorem assign_framing (target : Value) (feature : String) (v : Value) :
    Keeps framing (assign setting target feature v) := by
  refine .bind .state fun s => ?_
  split
  · refine .bind (.ofResult _) fun v => .bind (.collaborate _ _) fun store => ?_
    exact .bind (.modify fun _ => rfl) fun _ => .pure _
  · exact .bind (.modify fun _ => rfl) fun _ => .bind (.ofResult _) fun _ => .fail _

theorem applyBinding_framing (kept : ∀ env e, Keeps (nested setting) (self env e)) (rule : String)
    (target : Value) (binding : Binding) (env : Environment) (deferrable : Bool)
    (replay : List CalledResult) :
    Keeps framing (applyBinding self setting rule target binding env deferrable replay) := by
  have evaluated : Keeps framing (inFrame { replay } (self env binding.value)) := fun s =>
    inFrame_allows (kept env binding.value) (fun inside => inside.frames.tail)
      (fun inside => inside.frames.tail) trivial
  refine .bind (.bind (fun s => ?_) fun _ => .pure _) fun frame => ?_
  · refine Bears.nest_unheeded (fun _ _ => rfl) (fun _ failed => failed) ?_
    refine Keeps.bind evaluated (fun _ => ?_) { s with history := [] }
    exact .bind (.modify fun _ => rfl) fun _ => .bind (assign_framing _ _ _) fun _ => .pure _
  · split
    · exact .modify fun _ => rfl
    · exact .pure _

/-- Wherever a pipeline is found, no rule and no binding is at work, and in its past there were never
more rules within one another than the limit allows. -/
theorem Reaches.nested {store : Store} {log : List LogRecord}
    (reaches : Reaches setting t store log u) : Nested setting { store, log } u :=
  reaches.keeps nested_bears .undisturbed nested_encloses evaluateUntil_nested

end

end Engine

end Metamorph
