import Mathlib.Data.List.Forall2
import Metamorph.Proofs.Resolution

/-! Called rules over the two evaluations of a binding. What the first evaluation ran is kept in
order, and every call of the second takes the earliest kept result for its rule and arguments. -/
namespace Metamorph

/-- The call is one of the rule for equal arguments. -/
def CalledResult.isFor (rule : String) (args : List Value) (call : CalledResult) : Bool :=
  call.rule == rule && (Value.sequence call.arguments).same (.sequence args)

theorem CalledResult.isFor_iff {rule : String} {args : List Value} {call : CalledResult} :
    call.isFor rule args = true ↔
      call.rule = rule ∧ (Value.sequence call.arguments).key = (Value.sequence args).key := by
  simp [isFor, Value.same_eq_key]

theorem BindingFrame.take?_eq_none {frame : BindingFrame} {rule : String} {args : List Value}
    (unkept : frame.take? rule args = none) : frame.replay.find? (·.isFor rule args) = none :=
  Option.map_eq_none_iff.1 unkept

theorem BindingFrame.take?_eq_some {frame next : BindingFrame} {rule : String} {args : List Value}
    {call : CalledResult} (kept : frame.take? rule args = some (call, next)) :
    frame.replay.find? (·.isFor rule args) = some call ∧
      next = { frame with replay := frame.replay.eraseP (·.isFor rule args) } := by
  obtain ⟨found, first, same⟩ := Option.map_eq_some_iff.1 kept
  cases same
  exact ⟨first, rfl⟩

/-- Calls that one call is like are like each other. -/
theorem CalledResult.isFor_congr {rule other : String} {args others : List Value}
    {call : CalledResult} (here : call.isFor rule args = true)
    (there : call.isFor other others = true) :
    CalledResult.isFor rule args = CalledResult.isFor other others := by
  obtain ⟨named, given⟩ := isFor_iff.1 here
  obtain ⟨named', given'⟩ := isFor_iff.1 there
  funext other
  rw [Bool.eq_iff_iff, isFor_iff, isFor_iff, ← named, ← named', ← given, ← given']

/-- The calls of the rule for the arguments. -/
def callsFor (rule : String) (args : List Value) (replies : List Reply) : List Reply :=
  replies.filter (·.toCalledResult.isFor rule args)

/-- What was run for the calls. -/
def executions (replies : List Reply) : List CalledResult :=
  (replies.filter (·.executed)).map (·.toCalledResult)

@[simp]
theorem executions_append (replies more : List Reply) :
    executions (replies ++ more) = executions replies ++ executions more := by
  simp [executions]

/-- The calls are answered in turn from the kept results. A rule is run exactly if none is kept for it
and its arguments, and otherwise the first one is used up. -/
inductive Replaying : List CalledResult → List Reply → List CalledResult → Prop
  | done {kept} : Replaying kept [] kept
  | execute {kept replies left} {call : CalledResult}
      (none : kept.find? (·.isFor call.rule call.arguments) = none)
      (rest : Replaying kept replies left) : Replaying kept (⟨call, true⟩ :: replies) left
  | replay {kept replies left call rule args}
      (first : kept.find? (·.isFor rule args) = some call)
      (rest : Replaying (kept.eraseP (·.isFor rule args)) replies left) :
      Replaying kept (⟨⟨rule, args, call.result⟩, false⟩ :: replies) left

section
variable {kept left last : List CalledResult} {replies more : List Reply} {rule : String}
  {args : List Value}

theorem CalledResult.isFor_self (call : CalledResult) :
    call.isFor call.rule call.arguments = true :=
  isFor_iff.2 ⟨rfl, rfl⟩

theorem callsFor_cons (reply : Reply) (replies : List Reply) :
    callsFor rule args (reply :: replies) =
      if reply.toCalledResult.isFor rule args then reply :: callsFor rule args replies
      else callsFor rule args replies := by
  simp [callsFor, List.filter_cons]

theorem filter_eraseP_same {α : Type} {p : α → Bool} {xs : List α} {x : α}
    (first : xs.find? p = some x) : xs.filter p = x :: (xs.eraseP p).filter p := by
  induction xs with
  | nil => cases first
  | cons y ys ih =>
    by_cases fits : p y = true
    · obtain rfl : y = x := by simpa [List.find?_cons, fits] using first
      simp [fits]
    · have later : ys.find? p = some x := by simpa [List.find?_cons, fits] using first
      simpa [List.filter_cons, fits] using ih later

theorem filter_eraseP_other {α : Type} {p q : α → Bool} (apart : ∀ x, p x = true → q x = false)
    (xs : List α) : (xs.eraseP p).filter q = xs.filter q := by
  induction xs with
  | nil => rfl
  | cons y ys ih =>
    by_cases fits : p y = true
    · simp [fits, apart y fits]
    · simp [fits, List.filter_cons, ih]

/-- Using up what is kept for one call leaves what is kept for unlike ones. -/
theorem filter_use (kept : List CalledResult) {call : CalledResult}
    (unlike : call.isFor rule args = false) :
    (kept.eraseP (·.isFor call.rule call.arguments)).filter (·.isFor rule args) =
      kept.filter (·.isFor rule args) := by
  refine filter_eraseP_other (fun other fits => eq_false_of_ne_true fun like => ?_) kept
  have same := CalledResult.isFor_congr like fits
  rw [same, call.isFor_self] at unlike
  cases unlike

theorem length_filter_beyond {α : Type} {p : α → Bool} {xs : List α} {n : Nat}
    (beyond : ∀ i x, xs[i]? = some x → (p x = true ↔ n ≤ i)) :
    (xs.filter p).length = xs.length - n := by
  induction xs generalizing n with
  | nil => simp
  | cons x rest ih =>
    have here := beyond 0 x rfl
    have later : (rest.filter p).length = rest.length - (n - 1) := by
      refine ih fun i y found => ?_
      have next := beyond (i + 1) y (by simpa using found)
      rw [next]
      omega
    cases n with
    | zero =>
      have counted : p x = true := here.2 (Nat.le_refl 0)
      simp [counted, later]
    | succ n =>
      have passed : p x = false := eq_false_of_ne_true fun counted => by
        have := here.1 counted
        omega
      simp [passed, later]

/-- What a call gets from the result that is kept for it, if one is. -/
def Reply.Answers (reply : Reply) : Option CalledResult → Prop
  | some call => reply.executed = false ∧ reply.result = call.result
  | none => reply.executed = true

namespace Replaying

/-- The calls of a rule for equal arguments get what is kept for them one by one, and no more. -/
theorem answers (replaying : Replaying kept replies left) (rule : String) (args : List Value)
    {i : Nat} {reply : Reply} (call : (callsFor rule args replies)[i]? = some reply) :
    reply.Answers (kept.filter (·.isFor rule args))[i]? := by
  induction replaying generalizing i with
  | done => simp [callsFor] at call
  | @execute kept replies left own none rest ih =>
    rw [callsFor_cons] at call
    split at call
    · rename_i fits
      -- Nothing is kept for a call like this one, so whatever is like it is run as well.
      have nothing : kept.filter (·.isFor rule args) = [] := by
        rw [List.filter_eq_nil_iff]
        have same := CalledResult.isFor_congr fits own.isFor_self
        simpa [same] using none
      cases i with
      | zero =>
        obtain rfl : ⟨own, true⟩ = reply := by simpa using call
        simp [nothing, Reply.Answers]
      | succ i =>
        have later := ih (by simpa using call)
        simpa [nothing] using later
    · exact ih call
  | @replay kept replies left used rule' args' first rest ih =>
    rw [callsFor_cons] at call
    have self := CalledResult.isFor_self ⟨rule', args', used.result⟩
    split at call
    · rename_i fits
      -- Calls like this one share what is kept, of which it takes the first.
      have same := CalledResult.isFor_congr fits self
      rw [← same] at first ih
      have kept := filter_eraseP_same first
      cases i with
      | zero =>
        obtain rfl : _ = reply := by simpa using call
        simp [kept, Reply.Answers]
      | succ i =>
        have later := ih (by simpa using call)
        simpa [kept] using later
    · rename_i unlike
      have others := filter_use kept (eq_false_of_ne_true unlike)
      rw [← others]
      exact ih call

/-- As many calls are run as there are beyond the kept results. -/
theorem executed (replaying : Replaying kept replies left) (rule : String) (args : List Value) :
    ((callsFor rule args replies).filter (·.executed)).length =
      (callsFor rule args replies).length - (kept.filter (·.isFor rule args)).length := by
  refine length_filter_beyond fun i reply call => ?_
  have answered := replaying.answers rule args call
  cases known : (kept.filter (·.isFor rule args))[i]? with
  | none =>
    have past := List.getElem?_eq_none_iff.1 known
    simp only [known, Reply.Answers] at answered
    simp [answered, past]
  | some call =>
    have inside := (List.getElem?_eq_some_iff.1 known).1
    simp only [known, Reply.Answers] at answered
    simp only [answered.1, Bool.false_eq_true, false_iff]
    omega

theorem trans (first : Replaying kept replies left) (rest : Replaying left more last) :
    Replaying kept (replies ++ more) last := by
  induction first with
  | done => exact rest
  | execute none _ ih => exact .execute none (ih rest)
  | replay first _ ih => exact .replay first (ih rest)

/-- Without kept results every call is run. -/
theorem of_nothing (replaying : Replaying [] replies left) :
    left = [] ∧ ∀ reply ∈ replies, reply.executed = true := by
  generalize nothing : ([] : List CalledResult) = kept at replaying
  induction replaying with
  | done => simp
  | execute none _ ih =>
    obtain ⟨empty, all⟩ := ih nothing
    simpa [empty] using all
  | replay first _ _ =>
    subst nothing
    cases first

end Replaying

end

/-- What calls do to the frames: the innermost one records what was run for them and gives up what
was kept for them, and those below it stay. -/
structure Recording (replies : List Reply) (before after : List BindingFrame) : Prop where
  outside : before = [] → after = []
  inside : ∀ frame below, before = frame :: below → ∃ saw left,
    Replaying frame.replay replies left ∧
      after = ⟨saw, (executions replies).reverse ++ frame.calls, left⟩ :: below

namespace Recording
variable {replies more : List Reply} {before between after : List BindingFrame}

theorem same (equal : after = before) : Recording [] before after where
  outside none := equal.trans none
  inside frame _ some := ⟨frame.sawIncomplete, frame.replay, .done, equal.trans some⟩

theorem trans (first : Recording replies before between) (rest : Recording more between after) :
    Recording (replies ++ more) before after where
  outside none := rest.outside (first.outside none)
  inside frame below some := by
    obtain ⟨saw, left, replaying, middle⟩ := first.inside frame below some
    obtain ⟨noticed, last, going, final⟩ := rest.inside _ _ middle
    refine ⟨noticed, last, replaying.trans going, ?_⟩
    simp [final, List.append_assoc]

/-- An evaluation with a frame of its own leaves the other frames as they were. -/
theorem below {frame : BindingFrame} {t : Engine}
    (recording : Recording replies (frame :: before) t.frames) : t.popFrame.frames = before := by
  obtain ⟨_, _, -, final⟩ := recording.inside frame before rfl
  simp [Engine.popFrame, final]

theorem frame {frame : BindingFrame} {t : Engine}
    (recording : Recording replies (frame :: before) t.frames) :
    Replaying frame.replay replies t.frame.replay ∧
      t.frame.calls = (executions replies).reverse ++ frame.calls := by
  obtain ⟨_, left, replaying, final⟩ := recording.inside frame before rfl
  simp [Engine.frame, final, replaying]

theorem noticing {s t : Engine} (complete : Bool)
    (recording : Recording replies s.frames t.frames) :
    Recording replies s.frames (t.noticing complete).frames := by
  cases complete with
  | true => exact recording
  | false =>
    refine ⟨fun none => ?_, fun frame below some => ?_⟩
    · simp [Engine.noticing, Engine.changeFrame, recording.outside none]
    · obtain ⟨saw, left, replaying, final⟩ := recording.inside frame below some
      exact ⟨true, left, replaying, by simp [Engine.noticing, Engine.changeFrame, final]⟩

end Recording

open Engine in
theorem Course.recording {setting : Setting} {s t : Engine} {done : List Event}
    (course : Course setting done s t) : Recording (repliesAmong done) s.frames t.frames := by
  induction course with
  | quiet quiet =>
    obtain ⟨_, _, _, _, _, _, _, _, _, rfl⟩ := quiet
    exact .same rfl
  | aside | create _ | link _ => exact .same rfl
  | trans _ _ first rest =>
    rw [repliesAmong_append]
    exact first.trans rest
  | binding _ _ _ _ inner => exact .same (by simpa [telling, settled] using inner.below)
  | statement _ _ _ inner | application _ _ inner =>
    simpa [repliesAmong, Event.replies, telling, settled] using inner
  | hit _ => exact .noticing _ (.same rfl)
  | miss _ _ _ apart _ created filled =>
    rw [apart.replies] at filled
    exact .noticing _ (created.trans filled)
  | @called s t rule args result inner unkept _ body =>
    have below : t.popFrame.frames = s.frames := body.below
    refine ⟨fun none => ?_, fun frame rest first => ?_⟩
    · simp [calling, changeFrame, telling, leave, below, none]
    · have missing : frame.take? rule args = none := by simpa [first] using unkept
      refine ⟨frame.sawIncomplete || t.frame.sawIncomplete, frame.replay,
        .execute (BindingFrame.take?_eq_none missing) .done, ?_⟩
      simp [calling, changeFrame, telling, leave, below, first, executions, repliesAmong,
        Event.replies]
  | @replayed s rule args call frame kept =>
    refine ⟨fun none => by simp [changeFrame, note, none], fun top rest first => ?_⟩
    have taken : top.take? rule args = some (call, frame) := by simpa [first] using kept
    obtain ⟨found, rfl⟩ := BindingFrame.take?_eq_some taken
    refine ⟨top.sawIncomplete, _, .replay found .done, ?_⟩
    simp [changeFrame, note, first, executions, repliesAmong, Event.replies]

/-- What a binding that was put down worked on, with what happened while it was evaluated. -/
def Event.deferral? : Event → Option (Assignment × List Event)
  | .assignment .first work _ inner => if metAmong inner then some (work, inner) else none
  | _ => none

/-- The same of a second evaluation. -/
def Event.repetition? : Event → Option (Assignment × List Event)
  | .assignment .again work _ inner => some (work, inner)
  | _ => none

def deferrals (events : List Event) : List (Assignment × List Event) :=
  (activitiesAmong events).filterMap Event.deferral?

def repetitions (events : List Event) : List (Assignment × List Event) :=
  (activitiesAmong events).filterMap Event.repetition?

@[simp]
theorem deferrals_append (events more : List Event) :
    deferrals (events ++ more) = deferrals events ++ deferrals more := by
  simp [deferrals]

@[simp]
theorem repetitions_append (events more : List Event) :
    repetitions (events ++ more) = repetitions events ++ repetitions more := by
  simp [repetitions]

/-- The binding was put down with its work and the results of its calls, all of which were run. -/
structure DeferredBinding.Records (setting : Setting) (first : Assignment × List Event)
    (d : DeferredBinding) : Prop where
  work : d.work setting = first.1
  calls : d.calls = (repliesAmong first.2).map (·.toCalledResult)
  executed : ∀ reply ∈ repliesAmong first.2, reply.executed = true

theorem executions_eq_map {replies : List Reply}
    (all : ∀ reply ∈ replies, reply.executed = true) :
    executions replies = replies.map (·.toCalledResult) := by
  rw [executions, List.filter_eq_self.2 all]

/-- Bindings are put down, one for each deferral among the events, and none is evaluated again. -/
structure Deferring (setting : Setting) (events : List Event)
    (before after : List DeferredBinding) : Prop where
  once : repetitions events = []
  added : ∃ added, after = before ++ added ∧
    List.Forall₂ (DeferredBinding.Records setting) (deferrals events) added

namespace Deferring
variable {setting : Setting} {events more : List Event}
  {before between after : List DeferredBinding}

theorem nothing {event : Event} (alone : event.activities = [event])
    (first : event.deferral? = none) (again : event.repetition? = none) :
    Deferring setting [event] before before where
  once := by simp [repetitions, activitiesAmong, alone, again]
  added := ⟨[], (List.append_nil _).symm, by simp [deferrals, activitiesAmong, alone, first]⟩

theorem refl : Deferring setting [] before before :=
  ⟨rfl, [], (List.append_nil _).symm, .nil⟩

theorem trans (first : Deferring setting events before between)
    (rest : Deferring setting more between after) :
    Deferring setting (events ++ more) before after where
  once := by simp [first.once, rest.once]
  added := by
    obtain ⟨here, rfl, early⟩ := first.added
    obtain ⟨there, rfl, late⟩ := rest.added
    refine ⟨here ++ there, List.append_assoc _ _ _, ?_⟩
    rw [deferrals_append]
    exact List.rel_append early late

/-- What happens within an event that is no evaluation of a binding. -/
theorem within {event : Event} (around : event.activities = activitiesAmong events ++ [event])
    (first : event.deferral? = none) (again : event.repetition? = none)
    (inner : Deferring setting events before after) : Deferring setting [event] before after where
  once := by
    have once := inner.once
    simpa [repetitions, activitiesAmong, around, again] using once
  added := by
    have added := inner.added
    simpa [deferrals, activitiesAmong, around, first] using added

theorem binding {work : Assignment} {stored : Option Value} {d : DeferredBinding}
    (records : d.Records setting (work, events)) (inner : Deferring setting events before after) :
    Deferring setting [.assignment .first work stored events] before
      (after ++ if metAmong events then [d] else []) where
  once := by
    have once := inner.once
    simpa [repetitions, activitiesAmong, Event.activities, Event.repetition?] using once
  added := by
    obtain ⟨added, rfl, nested⟩ := inner.added
    refine ⟨added ++ if metAmong events then [d] else [], List.append_assoc _ _ _, ?_⟩
    have own : deferrals [.assignment .first work stored events] =
        deferrals events ++ if metAmong events then [(work, events)] else [] := by
      cases met : metAmong events <;>
        simp [deferrals, activitiesAmong, Event.activities, Event.deferral?, met]
    rw [own]
    refine List.rel_append nested ?_
    split
    · exact .cons records .nil
    · exact .nil

end Deferring

open Engine in
theorem Course.deferring {setting : Setting} {s t : Engine} {done : List Event}
    (course : Course setting done s t) : Deferring setting done s.deferred t.deferred := by
  induction course with
  | quiet quiet =>
    obtain ⟨_, _, _, _, _, _, _, _, _, rfl⟩ := quiet
    exact .refl
  | aside | create _ | link _ => exact .refl
  | trans _ _ first rest => exact first.trans rest
  | @binding s t rule h work scope v store inner visible _ evaluated _ ih =>
    obtain ⟨met, -⟩ := evaluated.progress.opened rfl
    obtain ⟨replaying, calls⟩ := evaluated.recording.frame
    have executed := replaying.of_nothing.2
    have records : (work.deferral rule t.frame.calls.reverse).Records setting (work, inner) := by
      refine ⟨work.deferral_work visible rule _, ?_, executed⟩
      simp [Assignment.deferral, calls, executions_eq_map executed]
    have deferred : Deferring setting [.assignment .first work (some v) inner] _ _ :=
      ih.binding records
    rw [waiting_deferred, met]
    exact deferred
  | statement _ _ _ inner | application _ _ inner | called _ _ inner =>
    exact .within rfl rfl rfl inner
  | @hit s rule argument entry result _ =>
    rw [noticing_eq]
    exact .nothing rfl rfl rfl
  | miss _ _ _ _ _ created filled =>
    rw [noticing_eq]
    exact .within rfl rfl rfl (created.trans filled)
  | replayed _ => exact .nothing rfl rfl rfl

/-- The second evaluation is one of the binding that was put down, and calls take the results that were
kept for it. -/
structure DeferredBinding.Repeats (setting : Setting) (d : DeferredBinding)
    (again : Assignment × List Event) : Prop where
  work : d.work setting = again.1
  replaying : ∃ left, Replaying d.calls (repliesAmong again.2) left

open Engine in
/-- The walk takes the bindings that wait in turn, with those that are put down meanwhile. -/
theorem Redoing.repeats {setting : Setting} {s t : Engine} {position : Nat} {done : List Event}
    (walk : Redoing setting position done s t) :
    (∃ added, t.deferred = s.deferred ++ added ∧
      List.Forall₂ (DeferredBinding.Records setting) (deferrals done) added) ∧
    List.Forall₂ (DeferredBinding.Repeats setting) (t.deferred.drop position)
      (repetitions done) := by
  induction walk with
  | @finished s position last =>
    have past := List.getElem?_eq_none_iff.1 last
    rw [List.drop_eq_nil_iff.2 past]
    exact ⟨⟨[], (List.append_nil _).symm, .nil⟩, .nil⟩
  | @next s t u position d h v store inner more turn target evaluated _ _ ih =>
    obtain ⟨once, added, grown, nested⟩ := evaluated.deferring
    obtain ⟨⟨others, behind, late⟩, turns⟩ := ih
    have final : u.deferred = s.deferred ++ (added ++ others) := by
      rw [← List.append_assoc]
      exact behind.trans (congrArg (· ++ others) grown)
    have first : deferrals (.assignment .again (d.work setting) (some v) inner :: more) =
        deferrals inner ++ deferrals more := by
      change List.filterMap _ (Event.activities _ ++ activitiesAmong more) = _
      rw [Event.activities, List.filterMap_append, List.filterMap_append]
      change _ ++ [] ++ _ = _
      rw [List.append_nil]
      rfl
    have again : repetitions (.assignment .again (d.work setting) (some v) inner :: more) =
        (d.work setting, inner) :: repetitions more := by
      change List.filterMap _ (Event.activities _ ++ activitiesAmong more) = _
      have once : List.filterMap Event.repetition? (activitiesAmong inner) = [] := once
      simp [Event.activities, once, Event.repetition?, repetitions]
    refine ⟨⟨added ++ others, final, ?_⟩, ?_⟩
    · rw [first]
      exact List.rel_append nested late
    · have taken : u.deferred.drop position = d :: u.deferred.drop (position + 1) := by
        rw [final]
        exact drop_eq_cons turn _
      rw [taken, again]
      exact .cons ⟨rfl, _, evaluated.recording.frame.1⟩ turns

/-- The calls of the two evaluations of a binding: all of the first were run, and those of the second
for a rule and equal arguments get the results of the first in their order, while these last. -/
structure Reuses (first again : List Reply) : Prop where
  executed : ∀ reply ∈ first, reply.executed = true
  results : ∀ (rule : String) (args : List Value) (i : Nat) (early late : Reply),
    (callsFor rule args first)[i]? = some early → (callsFor rule args again)[i]? = some late →
      late.executed = false ∧ late.result = early.result
  total : ∀ (rule : String) (args : List Value), ((callsFor rule args first).filter (·.executed)).length +
      ((callsFor rule args again).filter (·.executed)).length =
    max (callsFor rule args first).length (callsFor rule args again).length

theorem Replaying.reuses {kept left : List CalledResult} {first again : List Reply}
    (replaying : Replaying kept again left)
    (executed : ∀ reply ∈ first, reply.executed = true)
    (calls : kept = first.map (·.toCalledResult)) : Reuses first again := by
  have keptFor (rule : String) (args : List Value) : kept.filter (·.isFor rule args) =
      (callsFor rule args first).map (·.toCalledResult) := by
    rw [calls, List.filter_map]
    rfl
  refine ⟨executed, fun rule args i early late before behind => ?_, fun rule args => ?_⟩
  · have answered := replaying.answers rule args behind
    rw [keptFor, List.getElem?_map, before] at answered
    exact answered
  · have all : (callsFor rule args first).filter (·.executed) = callsFor rule args first := by
      rw [List.filter_eq_self]
      intro reply member
      exact executed reply (List.mem_filter.1 member).1
    have rest := replaying.executed rule args
    rw [keptFor, List.length_map] at rest
    rw [all, rest]
    omega

/-- Nothing that the body of a called rule calls gets a result that was kept. -/
def Event.RunsCalls : Event → Prop
  | .called _ _ _ inner => ∀ reply ∈ repliesAmong inner, reply.executed = true
  | _ => True

theorem Course.runsCalls {setting : Setting} {s t : Engine} {done : List Event}
    (course : Course setting done s t) : ∀ activity ∈ activitiesAmong done, activity.RunsCalls := by
  induction course with
  | quiet _ | aside | create _ | link _ => simp [activitiesAmong]
  | trans _ _ first rest =>
    intro activity member
    rw [activitiesAmong_append] at member
    exact (List.mem_append.1 member).elim (first activity) (rest activity)
  | binding _ _ _ _ inner | statement _ _ _ inner | application _ _ inner
  | miss _ _ _ _ _ _ inner =>
    simpa [activitiesAmong, Event.activities, or_imp, forall_and, Event.RunsCalls] using inner
  | hit _ | replayed _ => simp [activitiesAmong, Event.activities, Event.RunsCalls]
  | called _ body inner =>
    have own := body.recording.frame.1.of_nothing.2
    simpa [activitiesAmong, Event.activities, or_imp, forall_and, Event.RunsCalls]
      using ⟨inner, own⟩

theorem Redoing.runsCalls {setting : Setting} {s t : Engine} {position : Nat} {done : List Event}
    (walk : Redoing setting position done s t) :
    ∀ activity ∈ activitiesAmong done, activity.RunsCalls := by
  induction walk with
  | finished _ => simp [activitiesAmong]
  | next _ _ evaluated _ _ rest =>
    have nested := evaluated.runsCalls
    simpa [activitiesAmong, Event.activities, or_imp, forall_and, Event.RunsCalls]
      using ⟨nested, rest⟩

theorem forall₂_chain {α β γ : Type} {R : α → β → Prop} {S : β → γ → Prop} {T : α → γ → Prop}
    {xs : List α} {ys : List β} {zs : List γ} (first : List.Forall₂ R xs ys)
    (rest : List.Forall₂ S ys zs) (chain : ∀ {x y z}, R x y → S y z → T x z) :
    List.Forall₂ T xs zs := by
  induction first generalizing zs with
  | nil =>
    cases rest
    exact .nil
  | cons here _ ih =>
    cases rest with
    | cons there later => exact .cons (chain here there) (ih later)

section
variable {setting : Setting} {t : Transformation} {store : Store} {log : List LogRecord}
  {s : Engine}

namespace Looping

/-- The first evaluation of the lazy rule's binding runs the called rule once and meets the rule's own
result; the second one calls it twice. -/
def callsAgain : Transformation :=
  transformation [⟨"g", call "L"⟩]
    [⟨"f", .binary .eq (call "C") (.conditional marked (call "C") (call "L") {}) {}⟩,
      ⟨"g", .literal (.boolean true) {}⟩] [] []

/-- How often the called rule was called for the source object, and run for it. -/
def callCounts (replies : List Reply) : Nat × Nat :=
  ((callsFor "C" [.object 0] replies).length,
    ((callsFor "C" [.object 0] replies).filter (·.executed)).length)

end Looping

end

end Metamorph
