import Metamorph.Engine.State

/-! Histories one after the other, and event by event: what was met, what was evaluated, which calls
were answered. -/
namespace Metamorph

/-- A call of a called rule that was answered, by running the rule or with a result that was kept. -/
structure Reply extends CalledResult where
  executed : Bool

mutual

/-- The calls made on behalf of whoever caused the event. What a binding calls, and the body of a called
rule, is its own affair, and a lazy application has nothing but bindings. -/
def Event.replies : Event → List Reply
  | .assignment .statement _ _ inner => repliesAmong inner
  | .assignment _ _ _ _ => []
  | .application _ _ _ _ inner => repliesAmong inner
  | .lazy _ _ _ _ _ => []
  | .called _ _ none _ => []
  | .called rule args (some result) _ => [⟨⟨rule, args, result⟩, true⟩]
  | .replayed rule args result => [⟨⟨rule, args, result⟩, false⟩]
  | .unowned _ _ => []

def repliesAmong : List Event → List Reply
  | [] => []
  | event :: rest => event.replies ++ repliesAmong rest

end

variable {events more inner : List Event}

@[simp]
theorem metAmong_nil : metAmong [] = false := rfl

@[simp]
theorem metAmong_cons (event : Event) (rest : List Event) :
    metAmong (event :: rest) = (event.met || metAmong rest) := rfl

@[simp]
theorem metAmong_append : metAmong (events ++ more) = (metAmong events || metAmong more) := by
  induction events with
  | nil => rfl
  | cons event rest ih => simp [ih, Bool.or_assoc]

@[simp]
theorem repliesAmong_append : repliesAmong (events ++ more) = repliesAmong events ++ repliesAmong more := by
  induction events with
  | nil => rfl
  | cons event rest ih => simp [repliesAmong, ih]

/-- The events concern nobody but themselves. -/
structure Apart (events : List Event) : Prop where
  met : metAmong events = false
  replies : repliesAmong events = []

theorem Apart.nil : Apart [] := ⟨rfl, rfl⟩

theorem Apart.append (first : Apart events) (rest : Apart more) : Apart (events ++ more) where
  met := by simp [first.met, rest.met]
  replies := by simp [first.replies, rest.replies]

@[simp]
theorem activitiesAmong_append :
    activitiesAmong (events ++ more) = activitiesAmong events ++ activitiesAmong more := by
  induction events with
  | nil => rfl
  | cons event rest ih => simp [activitiesAmong, ih]

mutual

/-- What happened within an activity happened within what that happened in. -/
theorem Event.infix_activities {event activity : Event} (member : activity ∈ event.activities) :
    activity.activities <:+: event.activities := by
  cases event
  case replayed | unowned =>
    obtain rfl := List.mem_singleton.1 member
    exact List.infix_rfl
  all_goals
    rcases List.mem_append.1 member with nested | own
    · exact (infix_activitiesAmong nested).trans (List.prefix_append _ _).isInfix
    · obtain rfl := List.mem_singleton.1 own
      exact List.infix_rfl

theorem infix_activitiesAmong {events : List Event} {activity : Event}
    (member : activity ∈ activitiesAmong events) :
    activity.activities <:+: activitiesAmong events := by
  cases events with
  | nil => cases member
  | cons event rest =>
    rcases List.mem_append.1 member with here | there
    · exact (Event.infix_activities here).trans (List.prefix_append _ _).isInfix
    · exact (infix_activitiesAmong there).trans (List.suffix_append _ _).isInfix

end

theorem Event.mem_activities (event : Event) : event ∈ event.activities := by
  cases event <;> simp [activities]

theorem sublist_activitiesAmong (events : List Event) :
    events.Sublist (activitiesAmong events) := by
  induction events with
  | nil => exact .slnil
  | cons event rest ih => exact (List.singleton_sublist.2 event.mem_activities).append ih

/-- What happened directly within an event. -/
def Event.within : Event → List Event
  | .assignment _ _ _ inner => inner
  | .application _ _ _ _ inner => inner
  | .lazy _ _ _ _ inner => inner
  | .called _ _ _ inner => inner
  | .replayed _ _ _ => []
  | .unowned _ _ => []

theorem Event.activities_eq (event : Event) :
    event.activities = activitiesAmong event.within ++ [event] := by
  cases event <;> rfl

mutual

/-- Whatever happened within an event happened directly within an activity of it. -/
theorem Event.mem_activities_within {event activity : Event} (member : activity ∈ event.activities) :
    activity = event ∨ ∃ parent ∈ event.activities, activity ∈ parent.within := by
  have own : activity ∈ activitiesAmong event.within →
      ∃ parent ∈ event.activities, activity ∈ parent.within := by
    intro nested
    cases event
    case replayed | unowned => cases nested
    all_goals
      rcases mem_activitiesAmong_within nested with direct | ⟨parent, among, inside⟩
      · exact ⟨_, Event.mem_activities _, direct⟩
      · exact ⟨parent, List.mem_append_left _ among, inside⟩
  rw [Event.activities_eq, List.mem_append, List.mem_singleton] at member
  exact member.symm.imp_right own

theorem mem_activitiesAmong_within {events : List Event} {activity : Event}
    (member : activity ∈ activitiesAmong events) :
    activity ∈ events ∨ ∃ parent ∈ activitiesAmong events, activity ∈ parent.within := by
  cases events with
  | nil => cases member
  | cons event rest =>
    rcases List.mem_append.1 member with here | there
    · rcases Event.mem_activities_within here with rfl | ⟨parent, among, inside⟩
      · exact .inl List.mem_cons_self
      · exact .inr ⟨parent, List.mem_append_left _ among, inside⟩
    · rcases mem_activitiesAmong_within there with direct | ⟨parent, among, inside⟩
      · exact .inl (List.mem_cons_of_mem _ direct)
      · exact .inr ⟨parent, List.mem_append_right _ among, inside⟩

end

@[simp]
theorem evaluations_nil : evaluations [] = [] := rfl

@[simp]
theorem evaluations_append :
    evaluations (events ++ more) = evaluations events ++ evaluations more := by
  simp [evaluations]

theorem evaluations_cons (event : Event) (rest : List Event) :
    evaluations (event :: rest) = evaluations [event] ++ evaluations rest :=
  @evaluations_append [event] rest

@[simp]
theorem evaluations_assignment (occasion : Occasion) (work : Assignment) (stored : Option Value) :
    evaluations [.assignment occasion work stored inner] =
      evaluations inner ++ [⟨occasion, work, stored, metAmong inner⟩] := by
  simp [evaluations, activitiesAmong, Event.activities, Event.evaluation?]

@[simp]
theorem evaluations_application (rule : String) (patterns : List OutPattern) (body : List Statement)
    (outputs : Outputs) :
    evaluations [.application rule patterns body outputs inner] = evaluations inner := by
  simp [evaluations, activitiesAmong, Event.activities, Event.evaluation?]

@[simp]
theorem evaluations_lazy (rule : String) (argument : Value) (complete : Bool)
    (result : Option Value) :
    evaluations [.lazy rule argument complete result inner] = evaluations inner := by
  simp [evaluations, activitiesAmong, Event.activities, Event.evaluation?]

@[simp]
theorem evaluations_called (rule : String) (args : List Value) (result : Option Value) :
    evaluations [.called rule args result inner] = evaluations inner := by
  simp [evaluations, activitiesAmong, Event.activities, Event.evaluation?]

@[simp]
theorem evaluations_replayed (rule : String) (args : List Value) (result : Value) :
    evaluations [.replayed rule args result] = [] := by
  simp [evaluations, activitiesAmong, Event.activities, Event.evaluation?]

end Metamorph
