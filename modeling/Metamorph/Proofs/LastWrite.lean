import Metamorph.Proofs.Resolution
import Metamorph.Proofs.Storing

/-! Which assignment a feature has its value from: the last one of the run. Within an application
the assignments come in the order of the program, but the second evaluations come after all of them,
so a binding that was put down has the last word over those behind it. -/
namespace Metamorph

def Assignment.isFor (work : Assignment) (h : Handle) (f : String) : Bool :=
  match work.target with
  | .object g => g == h && work.feature == f
  | _ => false

/-- The evaluations for a feature of an object. -/
def writes (es : List Evaluation) (h : Handle) (f : String) : List Evaluation :=
  es.filter (·.work.isFor h f)

/-- Those that are not second ones. -/
def firstWrites (es : List Evaluation) (h : Handle) (f : String) : List Evaluation :=
  (writes es h f).filter (!·.repeats)

/-- The evaluations of an application itself, without those within them. -/
def ownEvaluations (inner : List Event) : List Evaluation := inner.filterMap Event.evaluation?

section
variable {h g : Handle} {f : String} {es more : List Evaluation}

@[simp]
theorem writes_nil : writes [] h f = [] := rfl

@[simp]
theorem writes_append : writes (es ++ more) h f = writes es h f ++ writes more h f := by
  simp [writes]

@[simp]
theorem firstWrites_append :
    firstWrites (es ++ more) h f = firstWrites es h f ++ firstWrites more h f := by
  simp [firstWrites]

theorem writes_singleton {e : Evaluation} {feature : String} (target : e.work.target = .object g)
    (assigned : e.work.feature = feature) :
    writes [e] h f = if g = h ∧ feature = f then [e] else [] := by
  by_cases same : g = h <;> by_cases own : feature = f <;>
    simp [writes, Assignment.isFor, target, assigned, same, own]

theorem takenUp_writes :
    takenUp (writes es h f) = (takenUp es).filter (·.isFor h f) := by
  simp only [takenUp, writes, List.filter_filter, List.filter_map]
  exact congrArg _ (List.filter_congr fun e _ => Bool.and_comm e.repeats _)

theorem putDown_writes :
    putDown (writes es h f) = (putDown es).filter (·.isFor h f) := by
  simp only [putDown, writes, List.filter_filter, List.filter_map]
  exact congrArg _ (List.filter_congr fun e _ => Bool.and_comm e.defers _)

theorem putDown_eq_nil (again : ∀ e ∈ es, e.occasion = .again) : putDown es = [] := by
  simp only [putDown, List.map_eq_nil_iff, List.filter_eq_nil_iff]
  intro e member
  simp [Evaluation.defers, again e member]

theorem getLast?_putDown {last : Evaluation} (ending : es.getLast? = some last)
    (deferred : last.defers = true) : (putDown es).getLast? = some last.work := by
  obtain ⟨front, rfl⟩ := List.getLast?_eq_some_iff.1 ending
  simp [putDown, deferred]

theorem takenUp_eq_map (again : ∀ e ∈ es, e.occasion = .again) : takenUp es = es.map (·.work) := by
  rw [takenUp, List.filter_eq_self.2]
  intro e member
  simp [Evaluation.repeats, again e member]

end

/-- What evaluations have done to the features of the objects. -/
structure Writes (es : List Evaluation) (before after : Store) : Prop where
  classes : ∀ {h cls}, before.class? h = some cls → after.class? h = some cls
  others : ∀ {h f}, writes es h f = [] → after.value? h f = before.value? h f
  last : ∀ {h f e}, (writes es h f).getLast? = some e → ∃ v, e.stored = some v ∧ after.Holds h f v

namespace Writes
variable {es more : List Evaluation} {before between after : Store}

theorem refl (store : Store) : Writes [] store store where
  classes known := known
  others _ := rfl
  last found := by simp at found

theorem trans (first : Writes es before between) (rest : Writes more between after) :
    Writes (es ++ more) before after where
  classes known := rest.classes (first.classes known)
  others {h f} none := by
    obtain ⟨here, there⟩ := List.append_eq_nil_iff.1 (writes_append ▸ none)
    rw [rest.others there, first.others here]
  last {h f e} found := by
    rw [writes_append, List.getLast?_append] at found
    cases later : (writes more h f).getLast? with
    | some other =>
      obtain rfl : other = e := by simpa [later] using found
      exact rest.last later
    | none =>
      obtain ⟨v, stored, cls, w, known, kept, read⟩ := first.last (by simpa [later] using found)
      have same := rest.others (List.getLast?_eq_none_iff.1 later)
      refine ⟨v, stored, cls, w, rest.classes known, kept, ?_⟩
      rw [Store.get_eq_of_value known (rest.classes known) same, read]

theorem set {h : Handle} {v : Value} {e : Evaluation} (target : e.work.target = .object h)
    (stored : e.stored = some v) (accepted : before.set h e.work.feature v = .ok after) :
    Writes [e] before after where
  classes known := by rw [Store.class?_set accepted, known]
  others none := by
    rw [writes_singleton target rfl] at none
    exact Store.value?_set accepted (by simpa using none)
  last {g f e'} found := by
    rw [writes_singleton target rfl] at found
    split at found
    · rename_i same
      obtain ⟨rfl, rfl⟩ := same
      obtain rfl : e = e' := by simpa using found
      exact ⟨v, stored, Store.holds_set accepted⟩
    · simp at found

theorem create {model : Nat} {type : String} {h : Handle}
    (created : before.create model type = .ok (h, after)) : Writes [] before after where
  classes known := Store.class?_create created known
  others _ := Store.value?_create created
  last found := by simp at found

end Writes

open Engine in
theorem Course.written {setting : Setting} {s t : Engine} {done : List Event}
    (course : Course setting done s t) : Writes (evaluations done) s.store t.store := by
  induction course with
  | @quiet s t quiet =>
    obtain ⟨_, _, _, _, _, _, _, _, _, rfl⟩ := quiet
    exact .refl s.store
  | @aside s => exact .refl s.store
  | trans _ _ first rest =>
    rw [evaluations_append]
    exact first.trans rest
  | create created => exact .create created
  | @link s => exact .refl s.store
  | binding _ target _ accepted inner =>
    rw [evaluations_assignment, waiting_store]
    exact inner.trans (.set target rfl accepted)
  | statement target _ accepted inner =>
    rw [evaluations_assignment]
    exact inner.trans (.set target rfl accepted)
  | application _ _ inner =>
    rw [evaluations_application]
    exact inner
  | @hit s =>
    rw [noticing_eq, evaluations_lazy]
    exact .refl s.store
  | miss _ _ _ _ _ created filled =>
    rw [noticing_eq, evaluations_lazy]
    exact created.trans filled
  | called _ _ inner =>
    rw [evaluations_called]
    exact inner
  | @replayed s =>
    rw [evaluations_replayed]
    exact .refl s.store

theorem Redoing.written {setting : Setting} {s t : Engine} {position : Nat} {done : List Event}
    (walk : Redoing setting position done s t) : Writes (evaluations done) s.store t.store := by
  induction walk with
  | @finished s => exact .refl s.store
  | next _ target evaluated accepted _ rest =>
    rw [evaluations_cons, evaluations_assignment]
    exact (evaluated.written.trans (.set target rfl accepted)).trans rest

/-- An application has assigned in the order of its program, and nothing within it was evaluated a
second time. -/
def Event.InOrder (setting : Setting) : Event → Prop
  | .application _ patterns body outputs inner =>
    takenUp (evaluations inner) = [] ∧ ∃ scope : Named Value,
      jobs inner =
        programJobs outputs (setting.rootEnvironment (scope.update outputs)) patterns body
  | _ => True

theorem Course.inOrder {setting : Setting} {s t : Engine} {done : List Event}
    (course : Course setting done s t) :
    ∀ activity ∈ activitiesAmong done, activity.InOrder setting := by
  induction course with
  | quiet _ | aside | create _ | link _ => simp [activitiesAmong]
  | trans _ _ first rest =>
    intro activity member
    rw [activitiesAmong_append] at member
    exact (List.mem_append.1 member).elim (first activity) (rest activity)
  | binding _ _ _ _ inner | statement _ _ _ inner =>
    simpa [activitiesAmong, Event.activities, or_imp, forall_and, Event.InOrder] using inner
  | application course ordered inner =>
    have own := course.progress.takenUp
    simpa [activitiesAmong, Event.activities, or_imp, forall_and, Event.InOrder, own]
      using ⟨inner, _, ordered⟩
  | hit _ | replayed _ => simp [activitiesAmong, Event.activities, Event.InOrder]
  | miss _ _ _ _ _ _ inner | called _ _ inner =>
    simpa [activitiesAmong, Event.activities, or_imp, forall_and, Event.InOrder] using inner

theorem Redoing.inOrder {setting : Setting} {s t : Engine} {position : Nat} {done : List Event}
    (walk : Redoing setting position done s t) :
    ∀ activity ∈ activitiesAmong done, activity.InOrder setting := by
  induction walk with
  | finished _ => simp [activitiesAmong]
  | next _ _ evaluated _ _ rest =>
    simpa [activitiesAmong, Event.activities, or_imp, forall_and, Event.InOrder]
      using ⟨evaluated.inOrder, rest⟩

section
variable {setting : Setting} {t : Transformation} {store : Store} {log : List LogRecord}
  {s : Engine} {h : Handle} {f : String}

theorem Completes.written (completes : Completes setting t store log s) :
    Writes (evaluations s.history) store s.store := by
  obtain ⟨before, walk, a, b, history, course, redoing, finish, -⟩ := completes.course
  rw [history, evaluations_append, ← List.append_nil (_ ++ _)]
  exact (course.written.trans redoing.written).trans finish.written

theorem Completes.inOrder (completes : Completes setting t store log s) :
    ∀ activity ∈ activitiesAmong s.history, activity.InOrder setting := by
  obtain ⟨before, walk, a, b, history, course, redoing, -, -⟩ := completes.course
  rw [history, activitiesAmong_append]
  intro activity member
  exact (List.mem_append.1 member).elim (course.inOrder activity) (redoing.inOrder activity)

theorem mem_firstWrites {es : List Evaluation} {e : Evaluation} :
    e ∈ firstWrites es h f ↔ e ∈ es ∧ e.occasion ≠ .again ∧ e.work.isFor h f = true := by
  simp [firstWrites, writes, Evaluation.repeats]

theorem again_of_firstWrites {es : List Evaluation} (none : firstWrites es h f = [])
    {e : Evaluation} (member : e ∈ writes es h f) : e.occasion = .again := by
  refine Decidable.byContradiction fun first => ?_
  obtain ⟨inside, own⟩ := List.mem_filter.1 member
  have present := mem_firstWrites.2 ⟨inside, first, own⟩
  simp [none] at present

/-- A feature that has no first evaluation up to some point has no second one either. -/
theorem InTurn.writes_eq_nil {front back : List Evaluation} (ordered : InTurn [] (front ++ back))
    (none : firstWrites front h f = []) : writes front h f = [] := by
  rw [List.eq_nil_iff_forall_not_mem]
  intro e member
  obtain ⟨inside, mine⟩ := List.mem_filter.1 member
  obtain ⟨earlier, later, rfl⟩ := List.append_of_mem inside
  have turn := ordered earlier e (later ++ back) (by simp) (again_of_firstWrites none member)
  have waited : e.work ∈ putDown earlier := turn.subset (by simp)
  obtain ⟨first, there, occasion, -, same⟩ := mem_putDown.1 waited
  have present : first ∈ firstWrites (earlier ++ e :: later) h f :=
    mem_firstWrites.2 ⟨by simp [there], by simp [occasion], same ▸ mine⟩
  simp [none] at present

theorem firstWrites_eq_writes {es : List Evaluation} (once : takenUp es = []) :
    firstWrites es h f = writes es h f := by
  rw [firstWrites, List.filter_eq_self]
  intro e member
  have first := List.filter_eq_nil_iff.1 (List.map_eq_nil_iff.1 once)
  simpa using first e (List.mem_filter.1 member).1

theorem own_sublist {inner : List Event} (once : takenUp (evaluations inner) = []) :
    (writes (ownEvaluations inner) h f).Sublist (firstWrites (evaluations inner) h f) := by
  rw [firstWrites_eq_writes once]
  exact ((sublist_activitiesAmong inner).filterMap _).filter _

theorem infix_evaluations {events inner : List Event} {rule : String}
    {patterns : List OutPattern} {body : List Statement} {outputs : Outputs}
    (applied : .application rule patterns body outputs inner ∈ activitiesAmong events) :
    evaluations inner <:+: evaluations events :=
  ((List.prefix_append _ _).isInfix.trans (infix_activitiesAmong applied)).filterMap _

/-- If no other application writes the feature, its own evaluations are followed by the second ones
of those that were put down. -/
theorem Account.writes_eq {before walk inner : List Event} (account : Account setting before walk s)
    (part : evaluations inner <:+: evaluations s.history) (once : takenUp (evaluations inner) = [])
    (alone : firstWrites (evaluations s.history) h f = writes (ownEvaluations inner) h f) :
    ∃ redone, writes (evaluations s.history) h f =
        writes (ownEvaluations inner) h f ++ redone ∧
      (∀ e ∈ redone, e.occasion = .again) ∧
      redone.map (·.work) = putDown (writes (ownEvaluations inner) h f) := by
  obtain ⟨front, back, parted⟩ := part
  have own : (writes (ownEvaluations inner) h f).Sublist _ := own_sublist once
  have total := congrArg List.length alone
  simp only [← parted, firstWrites_append, List.length_append] at total
  have bound := own.length_le
  have ahead : firstWrites front h f = [] := List.length_eq_zero_iff.1 (by omega)
  have behind : firstWrites back h f = [] := List.length_eq_zero_iff.1 (by omega)
  have ordered : InTurn [] (front ++ (evaluations inner ++ back)) := by
    rw [← List.append_assoc, parted]
    exact account.ordered
  have untouched : writes front h f = [] := ordered.writes_eq_nil ahead
  have mine : writes (evaluations inner) h f = writes (ownEvaluations inner) h f := by
    rw [← firstWrites_eq_writes once]
    exact (own.eq_of_length_le (by omega)).symm
  have evaluated : writes (evaluations s.history) h f =
      writes (ownEvaluations inner) h f ++ writes back h f := by
    rw [← parted, writes_append, writes_append, untouched, mine]
    rfl
  have again (e) (member : e ∈ writes back h f) : e.occasion = .again :=
    again_of_firstWrites behind member
  refine ⟨writes back h f, evaluated, again, ?_⟩
  have same : takenUp (writes (evaluations s.history) h f) =
      putDown (writes (evaluations s.history) h f) := by
    rw [takenUp_writes, putDown_writes, account.again]
  rw [evaluated, takenUp_append, putDown_append, putDown_eq_nil again, List.append_nil,
    takenUp_eq_map again, ← mine, takenUp_writes, once, mine] at same
  exact same

/-- A feature that one application writes has its value from the last write of the run. That is the
last one of the program if and only if the application has put none down or that one last. -/
theorem last_write_decides (completes : Completes setting t store log s) {rule : String}
    {patterns : List OutPattern} {body : List Statement} {outputs : Outputs} {inner : List Event}
    (applied : .application rule patterns body outputs inner ∈ activitiesAmong s.history)
    (alone : firstWrites (evaluations s.history) h f = writes (ownEvaluations inner) h f)
    {last : Evaluation} (ending : (writes (ownEvaluations inner) h f).getLast? = some last) :
    ∃ (scope : Named Value) (final : Evaluation) (v : Value),
      jobs inner =
        programJobs outputs (setting.rootEnvironment (scope.update outputs)) patterns body ∧
      final ∈ evaluations s.history ∧ final.stored = some v ∧ s.store.Holds h f v ∧
      (final = last ∨ final.occasion = .again ∧
        (putDown (writes (ownEvaluations inner) h f)).getLast? = some final.work) ∧
      (final.work = last.work ↔ putDown (writes (ownEvaluations inner) h f) = [] ∨
        (putDown (writes (ownEvaluations inner) h f)).getLast? = some last.work) := by
  obtain ⟨before, walk, account⟩ := completes.account
  obtain ⟨once, scope, ordered⟩ := completes.inOrder _ applied
  obtain ⟨redone, evaluated, again, works⟩ :=
    account.writes_eq (infix_evaluations applied) once alone
  have latest : (writes (evaluations s.history) h f).getLast? = redone.getLast?.or (some last) := by
    rw [evaluated, List.getLast?_append, ending]
  have waited : (putDown (writes (ownEvaluations inner) h f)).getLast? =
      redone.getLast?.map (·.work) := by
    rw [← works, List.getLast?_map]
  cases redoing : redone.getLast? with
  | none =>
    rw [redoing] at latest
    obtain ⟨v, stored, holds⟩ := completes.written.last latest
    have member := (List.mem_filter.1 (List.mem_of_getLast? latest)).1
    have empty : redone = [] := List.getLast?_eq_none_iff.1 redoing
    refine ⟨scope, last, v, ordered, member, stored, holds, .inl rfl, ?_⟩
    simp [← works, empty]
  | some final =>
    rw [redoing] at latest waited
    obtain ⟨v, stored, holds⟩ := completes.written.last latest
    have member := (List.mem_filter.1 (List.mem_of_getLast? latest)).1
    have turn := again final (List.mem_of_getLast? redoing)
    refine ⟨scope, final, v, ordered, member, stored, holds, .inr ⟨turn, waited⟩, ?_⟩
    have some : redone ≠ [] := fun empty => by simp [empty] at redoing
    rw [waited, ← works]
    simp [some]

namespace Looping

/-- The lazy rule first assigns a number and then its own result. -/
def resultLast : Transformation :=
  transformation [⟨"g", call "L"⟩] [⟨"f", five⟩, ⟨"f", call "L"⟩] [] []

/-- The lazy rule first assigns its own result and then a number. -/
def numberLast : Transformation :=
  transformation [⟨"g", call "L"⟩] [⟨"f", call "L"⟩, ⟨"f", five⟩] [] []

def storesNumber (e : Evaluation) : Bool :=
  match e.stored with
  | some (.integer _) => true
  | _ => false

def isNumber (work : Assignment) : Bool :=
  match work.value with
  | .literal _ _ => true
  | _ => false

def readsObject (store : Store) : Bool :=
  match store.get 2 "f" with
  | .ok (.object _) => true
  | _ => false

/-- The event is an application that writes `f` of the lazy rule's object twice, the second time in
such a way, and nothing else writes it. -/
def writesTwice (s : Engine) (test : Evaluation → Bool) : Event → Bool
  | .application _ _ _ _ inner =>
    (firstWrites (evaluations s.history) 2 "f").length == 2 &&
      (writes (ownEvaluations inner) 2 "f").length == 2 &&
      (writes (ownEvaluations inner) 2 "f").getLast?.any test
  | _ => false

theorem of_writesTwice {setting : Setting} {t : Transformation} {store : Store}
    {log : List LogRecord} {s : Engine} {test : Evaluation → Bool}
    (completes : Completes setting t store log s)
    (found : (activitiesAmong s.history).any (writesTwice s test) = true) :
    ∃ rule patterns body outputs inner last,
      .application rule patterns body outputs inner ∈ activitiesAmong s.history ∧
      firstWrites (evaluations s.history) 2 "f" = writes (ownEvaluations inner) 2 "f" ∧
      (writes (ownEvaluations inner) 2 "f").length = 2 ∧
      (writes (ownEvaluations inner) 2 "f").getLast? = some last ∧ test last = true := by
  obtain ⟨event, member, twice⟩ := List.any_eq_true.1 found
  cases event with
  | application rule patterns body outputs inner =>
    simp only [writesTwice, Bool.and_eq_true, beq_iff_eq, Option.any_eq_true] at twice
    obtain ⟨⟨all, own⟩, last, ending, tested⟩ := twice
    have once := (completes.inOrder _ member).1
    have part : (writes (ownEvaluations inner) 2 "f").Sublist
        (firstWrites (evaluations s.history) 2 "f") :=
      (own_sublist once).trans (((infix_evaluations member).sublist.filter _).filter _)
    have alone := (part.eq_of_length_le (by omega)).symm
    exact ⟨rule, patterns, body, outputs, inner, last, member, alone, own, ending, tested⟩
  | _ => cases twice

end Looping

theorem last_write_decides_deferred :
    ∃ s inner last final v,
      Completes (Looping.settingOf Looping.resultLast) Looping.resultLast Looping.objects [] s ∧
      (writes (ownEvaluations inner) 2 "f").length = 2 ∧
      (writes (ownEvaluations inner) 2 "f").getLast? = some last ∧
      final ∈ evaluations s.history ∧ final.work = last.work ∧ final.stored = some v ∧
      s.store.Holds 2 "f" v := by
  obtain ⟨s, completes, tested⟩ := Looping.completes_of_passes Looping.resultLast
    (fun s => (activitiesAmong s.history).any (Looping.writesTwice s (·.defers)))
    (by decide +kernel)
  obtain ⟨rule, patterns, body, outputs, inner, last, applied, alone, twice, ending, deferred⟩ :=
    Looping.of_writesTwice completes tested
  obtain ⟨scope, final, v, -, member, stored, holds, -, program⟩ :=
    last_write_decides completes applied alone ending
  have same := program.2 (.inr (getLast?_putDown ending deferred))
  exact ⟨s, inner, last, final, v, completes, twice, ending, member, same, stored, holds⟩

/-- The second evaluation of the first binding overwrites the number of the second. -/
theorem earlier_write_decides :
    ∃ s rule patterns body outputs inner last,
      Completes (Looping.settingOf Looping.numberLast) Looping.numberLast Looping.objects [] s ∧
      .application rule patterns body outputs inner ∈ activitiesAmong s.history ∧
      firstWrites (evaluations s.history) 2 "f" = writes (ownEvaluations inner) 2 "f" ∧
      (writes (ownEvaluations inner) 2 "f").getLast? = some last ∧
      ∀ e ∈ evaluations s.history, e.work = last.work → ∀ v, e.stored = some v →
        ¬ s.store.Holds 2 "f" v := by
  obtain ⟨s, completes, tested⟩ := Looping.completes_of_passes Looping.numberLast
    (fun s =>
      (activitiesAmong s.history).any (Looping.writesTwice s fun e => Looping.isNumber e.work) &&
      ((evaluations s.history).all fun e => !Looping.isNumber e.work || Looping.storesNumber e) &&
      Looping.readsObject s.store) (by decide +kernel)
  simp only [Bool.and_eq_true] at tested
  obtain ⟨⟨found, numbers⟩, object⟩ := tested
  obtain ⟨rule, patterns, body, outputs, inner, last, applied, alone, -, ending, number⟩ :=
    Looping.of_writesTwice completes found
  refine ⟨s, rule, patterns, body, outputs, inner, last, completes, applied, alone, ending, ?_⟩
  rintro e member same v kept ⟨cls, w, -, left, read⟩
  have stores := List.all_eq_true.1 numbers e member
  rw [same, number, Bool.not_true, Bool.false_or, Looping.storesNumber, kept] at stores
  cases v with
  | integer n =>
    rw [Looping.readsObject, read] at object
    unfold Store.stored at left
    split at left
    · cases left
    · split at left
      · cases left
        cases object
      · cases left
        cases object
  | _ => cases stores

end

end Metamorph
