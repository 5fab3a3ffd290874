import Metamorph.Proofs.Phases
import Metamorph.Proofs.Scope

/-! Bindings that are evaluated twice. A binding waits for its second evaluation exactly if it met a
lazy application that was not complete, and the walk that ends a run takes the waiting ones in turn,
with those that come while it goes on. -/
namespace Metamorph

/-- The evaluation puts its binding down for a second one. -/
def Evaluation.defers (e : Evaluation) : Bool := decide (e.occasion = .first) && e.met

/-- The evaluation is a second one. -/
def Evaluation.repeats (e : Evaluation) : Bool := decide (e.occasion = .again)

/-- What the evaluations put down for a second one. -/
def putDown (es : List Evaluation) : List Assignment := (es.filter (·.defers)).map (·.work)

/-- What they worked on a second time. -/
def takenUp (es : List Evaluation) : List Assignment := (es.filter (·.repeats)).map (·.work)

@[simp]
theorem putDown_append (es more : List Evaluation) :
    putDown (es ++ more) = putDown es ++ putDown more := by
  simp [putDown]

@[simp]
theorem takenUp_append (es more : List Evaluation) :
    takenUp (es ++ more) = takenUp es ++ takenUp more := by
  simp [takenUp]

theorem putDown_singleton (e : Evaluation) :
    putDown [e] = if e.occasion = .first ∧ e.met = true then [e.work] else [] := by
  by_cases first : e.occasion = .first <;> cases met : e.met <;>
    simp [putDown, Evaluation.defers, first, met]

theorem takenUp_singleton (e : Evaluation) :
    takenUp [e] = if e.occasion = .again then [e.work] else [] := by
  by_cases again : e.occasion = .again <;> simp [takenUp, Evaluation.repeats, again]

theorem mem_putDown {es : List Evaluation} {work : Assignment} :
    work ∈ putDown es ↔ ∃ e ∈ es, e.occasion = .first ∧ e.met = true ∧ e.work = work := by
  simp [putDown, Evaluation.defers, and_assoc]

theorem mem_takenUp {es : List Evaluation} {work : Assignment} :
    work ∈ takenUp es ↔ ∃ e ∈ es, e.occasion = .again ∧ e.work = work := by
  simp [takenUp, Evaluation.repeats, and_assoc]

/-- Every second evaluation has its turn: the work of those before it and its own are the first of
what waited and of what was put down before it. -/
def InTurn (waiting : List Assignment) (es : List Evaluation) : Prop :=
  ∀ front e back, es = front ++ e :: back → e.occasion = .again →
    takenUp front ++ [e.work] <+: waiting ++ putDown front

namespace InTurn
variable {waiting behind : List Assignment} {es more : List Evaluation}

theorem of_first (first : ∀ e ∈ es, e.occasion ≠ .again) : InTurn waiting es := by
  intro front e back parted again
  exact absurd again (first e (by simp [parted]))

theorem singleton (e : Evaluation) : InTurn (e.work :: behind) [e] := by
  intro front e' back parted again
  obtain ⟨rfl, same⟩ : front = [] ∧ e = e' := by
    cases front <;> simp_all
  simp [takenUp, same]

/-- What is left of those that waited, and what was put down meanwhile, waits for the rest. -/
theorem append (first : InTurn waiting es) (left : waiting ++ putDown es = takenUp es ++ behind)
    (rest : InTurn behind more) : InTurn waiting (es ++ more) := by
  intro front e back parted again
  have turn (between) (same : more = between ++ e :: back) :
      takenUp (es ++ between) ++ [e.work] <+: waiting ++ putDown (es ++ between) := by
    have later := (List.prefix_append_right_inj (takenUp es)).2 (rest between e back same again)
    rwa [takenUp_append, putDown_append, ← List.append_assoc waiting, left, List.append_assoc,
      List.append_assoc]
  obtain ⟨between, rfl, same⟩ | ⟨between, before, same⟩ := List.append_eq_append_iff.1 parted
  · exact turn between same
  · rcases List.cons_eq_append_iff.1 same with ⟨rfl, same⟩ | ⟨others, rfl, -⟩
    · rw [List.append_nil] at before
      simpa [before] using turn [] same.symm
    · exact first front e others before again

end InTurn

theorem Assignment.deferral_work {setting : Setting} {work : Assignment} {scope : Named Value}
    (visible : work.scope = (setting.rootEnvironment scope).snapshot) (rule : String)
    (calls : List CalledResult) : (work.deferral rule calls).work setting = work := by
  obtain ⟨target, feature, value, seen⟩ := work
  subst visible
  simp only [deferral, DeferredBinding.work, setting.rootEnvironment_again]

namespace LazyCache

/-- No application is still being filled in. -/
def Settled (cache : LazyCache) : Prop := ∀ entry ∈ cache.entries, entry.complete = true

theorem not_isFor_of_missing {cache : LazyCache} {rule : String} {source : Value}
    (missing : cache.lookup? rule source = none) {entry : LazyEntry}
    (member : entry ∈ cache.entries) : entry.isFor rule source = false := by
  simpa using List.find?_eq_none.1 missing entry member

theorem finish_others {entries : List LazyEntry} {rule : String} {source : Value}
    (kept : ∀ entry ∈ entries, entry.isFor rule source = false ∨ entry.complete = true) :
    entries.map (fun entry =>
      if entry.isFor rule source then { entry with complete := true } else entry) = entries := by
  refine (List.map_congr_left fun entry member => ?_).trans (List.map_id entries)
  obtain ⟨other, argument, outputs, complete⟩ := entry
  rcases kept _ member with other | done
  · simp [other]
  · obtain rfl : complete = true := done
    simp

/-- A pair that was started on top of others is finished, and the others are left as they are. -/
theorem finish_started {cache : LazyCache} {rule : String} {source : Value} {outputs : Outputs}
    {before after : List LazyEntry}
    (entries : cache.entries = before ++ ⟨rule, source, outputs, false⟩ :: after)
    (others : ∀ entry ∈ before, entry.isFor rule source = false ∨ entry.complete = true)
    (later : ∀ entry ∈ after, entry.complete = true) :
    (cache.finish rule source).entries = before ++ ⟨rule, source, outputs, true⟩ :: after := by
  have own : (⟨rule, source, outputs, false⟩ : LazyEntry).isFor rule source = true := by
    simp [LazyEntry.isFor, Value.same_eq_key]
  simp only [finish, entries, List.map_append, List.map_cons, own, if_true, finish_others others,
    finish_others fun entry member => .inr (later entry member)]

theorem isComplete_of_member {cache : LazyCache} {rule : String} {source : Value}
    {entry : LazyEntry} (member : entry ∈ cache.entries) (own : entry.isFor rule source = true)
    (complete : ∀ entry ∈ cache.entries, entry.isFor rule source = true → entry.complete = true) :
    cache.isComplete rule source = true := by
  unfold isComplete lookup?
  cases found : cache.entries.find? (·.isFor rule source) with
  | none => exact absurd own (List.find?_eq_none.1 found entry member)
  | some first =>
    have inside := List.mem_of_find?_eq_some found
    have fits := List.find?_some found
    exact complete first inside fits

theorem isComplete_finish {cache : LazyCache} {rule : String} {source : Value} {outputs : Outputs}
    {before after : List LazyEntry}
    (entries : cache.entries = before ++ ⟨rule, source, outputs, false⟩ :: after)
    (others : ∀ entry ∈ before, entry.isFor rule source = false ∨ entry.complete = true)
    (later : ∀ entry ∈ after, entry.complete = true) :
    (cache.finish rule source).isComplete rule source = true := by
  have finished := finish_started entries others later
  have member : ⟨rule, source, outputs, true⟩ ∈ (cache.finish rule source).entries := by
    simp [finished]
  refine isComplete_of_member member (by simp [LazyEntry.isFor, Value.same_eq_key]) ?_
  intro entry member own
  rw [finished] at member
  rcases List.mem_append.1 member with earlier | behind
  · exact (others entry earlier).resolve_left (by simp [own])
  · rcases List.mem_cons.1 behind with rfl | behind
    · rfl
    · exact later entry behind

end LazyCache

@[simp]
theorem modifyHead_self (flags : List Bool) : flags.modifyHead (fun flag => flag) = flags := by
  cases flags <;> rfl

/-- What a course has done to the frames, the waiting bindings and the memory of lazy rules. -/
structure Progress (setting : Setting) (done : List Event) (s t : Engine) : Prop where
  flags : t.frames.map (·.sawIncomplete) =
    (s.frames.map (·.sawIncomplete)).modifyHead (· || metAmong done)
  waiting : ∃ added, t.deferred = s.deferred ++ added ∧
    added.map (·.work setting) = putDown (evaluations done)
  resolved : t.deferredResolved = s.deferredResolved
  remembered : ∃ added, t.cache.entries = s.cache.entries ++ added ∧
    ∀ entry ∈ added, entry.complete = true
  calm : s.cache.Settled → metAmong done = false
  assigned : ∀ e ∈ evaluations done, e.stored.isSome = true ∧ e.occasion ≠ .again

namespace Progress
variable {setting : Setting} {s t u : Engine} {done more : List Event}

theorem settled (progress : Progress setting done s t) (settled : s.cache.Settled) :
    t.cache.Settled := by
  obtain ⟨added, entries, complete⟩ := progress.remembered
  intro entry member
  rw [entries] at member
  rcases List.mem_append.1 member with old | new
  · exact settled entry old
  · exact complete entry new

theorem untouched (frames : t.frames = s.frames) (deferred : t.deferred = s.deferred)
    (resolved : t.deferredResolved = s.deferredResolved)
    (cache : t.cache.entries = s.cache.entries) : Progress setting [] s t where
  flags := by simp [frames]
  waiting := ⟨[], by simp [deferred], rfl⟩
  resolved
  remembered := ⟨[], by simp [cache], by simp⟩
  calm _ := rfl
  assigned := by simp

theorem trans (first : Progress setting done s t) (rest : Progress setting more t u) :
    Progress setting (done ++ more) s u where
  flags := by
    rw [rest.flags, first.flags, metAmong_append]
    cases s.frames.map (·.sawIncomplete) <;> simp [Bool.or_assoc]
  waiting := by
    obtain ⟨here, before, works⟩ := first.waiting
    obtain ⟨there, behind, others⟩ := rest.waiting
    exact ⟨here ++ there, by rw [behind, before, List.append_assoc], by simp [works, others]⟩
  resolved := rest.resolved.trans first.resolved
  remembered := by
    obtain ⟨here, before, old⟩ := first.remembered
    obtain ⟨there, behind, new⟩ := rest.remembered
    refine ⟨here ++ there, by rw [behind, before, List.append_assoc], ?_⟩
    intro entry member
    exact (List.mem_append.1 member).elim (old entry) (new entry)
  calm settled := by
    rw [metAmong_append, first.calm settled, rest.calm (first.settled settled)]
    rfl
  assigned e member := by
    rw [evaluations_append] at member
    exact (List.mem_append.1 member).elim (first.assigned e) (rest.assigned e)

open Engine in
/-- The flag of a frame tells what was met while it was open, and the frames below keep theirs. -/
theorem opened {frame : BindingFrame} (fresh : frame.sawIncomplete = false)
    (progress : Progress setting done (opened frame s) t) :
    t.frame.sawIncomplete = metAmong done ∧
      t.popFrame.frames.map (·.sawIncomplete) = s.frames.map (·.sawIncomplete) := by
  have flags := progress.flags
  simp only [Engine.opened, pushFrame, List.map_cons, fresh, List.modifyHead_cons,
    Bool.false_or] at flags
  cases frames : t.frames with
  | nil => simp [frames] at flags
  | cons top rest =>
    rw [frames, List.map_cons, List.cons.injEq] at flags
    simpa [Engine.frame, popFrame, frames] using flags

open Engine in
theorem binding {rule : String} {work : Assignment} {scope : Named Value} {v : Value}
    {store : Store} (visible : work.scope = (setting.rootEnvironment scope).snapshot)
    (progress : Progress setting done (Engine.opened {} s) t) :
    Progress setting [.assignment .first work (some v) done] s
      (.waiting t.frame.sawIncomplete (work.deferral rule t.frame.calls.reverse)
        (.telling s (.assignment .first work (some v) done) (.settled store t.popFrame))) := by
  obtain ⟨met, below⟩ := progress.opened rfl
  obtain ⟨added, deferred, works⟩ := progress.waiting
  obtain ⟨others, entries, complete⟩ := progress.remembered
  refine ⟨?_, ?_, ?_, ?_, fun _ => rfl, ?_⟩
  · simpa [Engine.telling, Engine.settled, Event.met] using below
  · refine ⟨added ++ if t.frame.sawIncomplete then [work.deferral rule t.frame.calls.reverse] else [],
      ?_, ?_⟩
    · rw [Engine.waiting_deferred, ← List.append_assoc]
      exact congrArg (· ++ _) deferred
    · rw [evaluations_assignment, putDown_append, putDown_singleton, List.map_append, works, met]
      cases metAmong done <;> simp [Assignment.deferral_work visible]
  · rw [Engine.waiting_resolved]
    exact progress.resolved
  · rw [Engine.waiting_cache]
    exact ⟨others, entries, complete⟩
  · have assigned := progress.assigned
    simpa [or_imp, forall_and] using assigned

theorem statement {work : Assignment} {v : Value} {store : Store}
    (progress : Progress setting done { s with history := [] } t) :
    Progress setting [.assignment .statement work (some v) done] s
      (.telling s (.assignment .statement work (some v) done) (.settled store t)) where
  flags := by simpa [Event.met, Engine.telling, Engine.settled] using progress.flags
  waiting := by
    rw [evaluations_assignment, putDown_append, putDown_singleton, if_neg (by simp),
      List.append_nil]
    exact progress.waiting
  resolved := progress.resolved
  remembered := progress.remembered
  calm settled := by simpa [Event.met] using progress.calm settled
  assigned := by simpa [or_imp, forall_and] using progress.assigned

theorem application {rule : String} {patterns : List OutPattern} {body : List Statement}
    {outputs : Outputs} (progress : Progress setting done { s with history := [] } t) :
    Progress setting [.application rule patterns body outputs done] s
      (.telling s (.application rule patterns body outputs done) t) where
  flags := by simpa [Event.met, Engine.telling] using progress.flags
  waiting := by simpa [Engine.telling] using progress.waiting
  resolved := progress.resolved
  remembered := progress.remembered
  calm settled := by simpa [Event.met] using progress.calm settled
  assigned := by simpa using progress.assigned

theorem hit {rule : String} {argument result : Value} {entry : LazyEntry}
    (found : s.cache.lookup? rule argument = some entry) :
    Progress setting [.lazy rule argument entry.complete (some result) []] s
      (.noticing entry.complete
        (.telling s (.lazy rule argument entry.complete (some result) [])
          { s with cache := s.cache.hit })) where
  flags := by
    rw [Engine.flags_noticing]
    simp [Event.met, Engine.telling]
  waiting := ⟨[], by rw [Engine.noticing_eq]; simp [Engine.telling], rfl⟩
  resolved := by rw [Engine.noticing_eq]; rfl
  remembered := ⟨[], by rw [Engine.noticing_eq]; simp [Engine.telling, LazyCache.hit], by simp⟩
  calm settled := by
    have complete := settled entry (List.mem_of_find?_eq_some found)
    simp [Event.met, complete]
  assigned := by simp

theorem miss {a : Engine} {rule : String} {argument result : Value} {outputs : Outputs}
    {complete : Bool}
    (missing : s.cache.lookup? rule argument = none) (apart : metAmong done = false)
    (known : (t.cache.finish rule argument).isComplete rule argument = complete)
    (created : Progress setting [] { s.enter with history := [], cache := s.cache.miss } a)
    (filled : Progress setting done
      { a with lazyApplied := a.lazyApplied + 1, cache := a.cache.start rule argument outputs } t) :
    Progress setting [.lazy rule argument complete (some result) done] s
      (.noticing complete (.telling s (.lazy rule argument complete (some result) done)
        { t.leave with cache := t.cache.finish rule argument })) := by
  obtain ⟨made, before, old⟩ := created.remembered
  obtain ⟨added, after, new⟩ := filled.remembered
  have entries : t.cache.entries =
      (s.cache.entries ++ made) ++ ⟨rule, argument, outputs, false⟩ :: added := by
    rw [after]
    change a.cache.entries ++ [_] ++ added = _
    rw [before, List.append_assoc]
    rfl
  have others (entry) (member : entry ∈ s.cache.entries ++ made) :
      entry.isFor rule argument = false ∨ entry.complete = true := by
    rcases List.mem_append.1 member with present | fresh
    · exact .inl (LazyCache.not_isFor_of_missing missing present)
    · exact .inr (old entry fresh)
  have finished := LazyCache.finish_started entries others new
  -- the pair is complete now, so the caller has nothing to notice
  obtain rfl : complete = true := by rw [← known, LazyCache.isComplete_finish entries others new]
  have flags : t.frames.map (·.sawIncomplete) = s.frames.map (·.sawIncomplete) := by
    have filled : t.frames.map _ = (a.frames.map (·.sawIncomplete)).modifyHead _ := filled.flags
    have created : a.frames.map _ = (s.frames.map (·.sawIncomplete)).modifyHead _ := created.flags
    rw [filled, created, apart]
    simp
  obtain ⟨here, deferred, works⟩ := created.waiting
  obtain ⟨there, waiting, later⟩ := filled.waiting
  have resolved : t.deferredResolved = s.deferredResolved := filled.resolved.trans created.resolved
  exact {
    flags := by simpa [Engine.noticing, Engine.telling, Engine.leave, Event.met] using flags
    waiting := by
      refine ⟨here ++ there, ?_, by simp [works, later, putDown]⟩
      change t.deferred = s.deferred ++ (here ++ there)
      rw [waiting, ← List.append_assoc]
      exact congrArg (· ++ there) deferred
    resolved
    remembered := by
      refine ⟨made ++ ⟨rule, argument, outputs, true⟩ :: added, ?_, ?_⟩
      · rw [← List.append_assoc]
        exact finished
      · intro entry member
        rcases List.mem_append.1 member with fresh | later
        · exact old entry fresh
        · exact (List.mem_cons.1 later).elim (fun same => same ▸ rfl) (new entry)
    calm := fun _ => rfl
    assigned := by simpa using filled.assigned }

theorem called {rule : String} {args : List Value} {result : Value}
    (progress : Progress setting done (Engine.opened {} s.enter) t) :
    Progress setting [.called rule args (some result) done] s
      (.calling ⟨rule, args, result⟩ t.frame
        (.telling s (.called rule args (some result) done) t.popFrame.leave)) where
  flags := by
    obtain ⟨met, below⟩ := progress.opened rfl
    have unchanged : t.frames.tail.map (·.sawIncomplete) = s.frames.map (·.sawIncomplete) := below
    rw [← unchanged]
    cases frames : t.frames.tail <;>
      simp [Engine.calling, Engine.changeFrame, Engine.telling, Engine.popFrame, Engine.leave,
        Event.met, frames, met]
  waiting := by
    obtain ⟨added, deferred, works⟩ := progress.waiting
    exact ⟨added, deferred, by simpa using works⟩
  resolved := progress.resolved
  remembered := progress.remembered
  calm settled := by simpa [Event.met] using progress.calm settled
  assigned := by simpa using progress.assigned

theorem replayed {rule : String} {args : List Value} {call : CalledResult} {frame : BindingFrame}
    (kept : s.frames.head?.bind (·.take? rule args) = some (call, frame)) :
    Progress setting [.replayed rule args call.result] s
      ((s.changeFrame fun _ => frame).note (.replayed rule args call.result)) where
  flags := by
    cases frames : s.frames with
    | nil => simp [frames] at kept
    | cons top rest =>
      have taken : top.take? rule args = some (call, frame) := by simpa [frames] using kept
      obtain ⟨found, -, same⟩ := Option.map_eq_some_iff.1 taken
      cases same
      simp [Engine.note, Engine.changeFrame, frames, Event.met]
  waiting := ⟨[], by simp [Engine.changeFrame, Engine.note], rfl⟩
  resolved := rfl
  remembered := ⟨[], by simp [Engine.changeFrame, Engine.note], by simp⟩
  calm _ := rfl
  assigned := by simp

end Progress

open Engine in
theorem Course.progress {setting : Setting} {s t : Engine} {done : List Event}
    (course : Course setting done s t) : Progress setting done s t := by
  induction course with
  | quiet quiet =>
    obtain ⟨_, _, _, _, _, _, _, _, _, rfl⟩ := quiet
    exact .untouched rfl rfl rfl rfl
  | aside => exact .untouched rfl rfl rfl rfl
  | trans _ _ first rest => exact first.trans rest
  | create _ => exact .untouched rfl rfl rfl rfl
  | link _ => exact .untouched rfl rfl rfl rfl
  | binding visible _ _ _ inner => exact inner.binding visible
  | statement _ _ _ inner => exact inner.statement
  | application _ _ inner => exact inner.application
  | hit found => exact .hit found
  | miss missing _ _ apart known created filled =>
    exact .miss missing apart.met known created filled
  | called _ _ inner => exact inner.called
  | replayed kept => exact .replayed kept

theorem Progress.takenUp {setting : Setting} {s t : Engine} {done : List Event}
    (progress : Progress setting done s t) : takenUp (evaluations done) = [] := by
  rw [Metamorph.takenUp, List.filter_eq_nil_iff.2, List.map_nil]
  intro e member
  simpa [Evaluation.repeats] using (progress.assigned e member).2

/-- What is in its turn comes first of what is left, however the list grows. -/
theorem drop_eq_cons {α : Type} {xs : List α} {i : Nat} {x : α} (turn : xs[i]? = some x)
    (more : List α) : (xs ++ more).drop i = x :: (xs ++ more).drop (i + 1) := by
  obtain ⟨inside, here⟩ := List.getElem?_eq_some_iff.1 turn
  have within : i < (xs ++ more).length := by
    rw [List.length_append]
    omega
  rw [List.drop_eq_getElem_cons within, List.getElem_append_left inside, here]

/-- What the walk has done from a position on, if it was started with no application unfinished. -/
structure Walked (setting : Setting) (position : Nat) (done : List Event) (s t : Engine) :
    Prop where
  waiting : ∃ added, t.deferred = s.deferred ++ added ∧
    added.map (·.work setting) = putDown (evaluations done)
  turns : jobs done = (t.deferred.drop position).map fun d => (.again, d.work setting)
  takenUp : takenUp (evaluations done) = (t.deferred.drop position).map (·.work setting)
  ordered : InTurn ((s.deferred.drop position).map (·.work setting)) (evaluations done)
  resolved : t.deferredResolved + position = s.deferredResolved + t.deferred.length
  settled : t.cache.Settled
  calm : ∀ e ∈ evaluations done, e.occasion = .again → e.met = false
  assigned : ∀ e ∈ evaluations done, e.stored.isSome = true

namespace Walked
variable {setting : Setting} {s t u : Engine} {position : Nat} {inner more : List Event}

theorem finished (last : s.deferred[position]? = none) (settled : s.cache.Settled)
    (within : position ≤ s.deferred.length) : Walked setting position [] s s := by
  have past := List.getElem?_eq_none_iff.1 last
  have none : s.deferred.drop position = [] := List.drop_eq_nil_iff.2 past
  exact {
    waiting := ⟨[], by simp, rfl⟩
    turns := by simp [none]
    takenUp := by simp [none, Metamorph.takenUp]
    ordered := .of_first (by simp)
    resolved := by omega
    settled
    calm := by simp
    assigned := by simp }

open Engine in
/-- One turn, before those behind it. -/
theorem next {d : DeferredBinding} {v : Value} {store : Store}
    (turn : s.deferred[position]? = some d) (settled : s.cache.Settled)
    (progress : Progress setting inner (opened { replay := d.calls } s) t)
    (rest : Walked setting (position + 1) more
      { telling s (.assignment .again (d.work setting) (some v) inner)
          (Engine.settled store t.popFrame) with
        deferredResolved := t.deferredResolved + 1 } u) :
    Walked setting position (.assignment .again (d.work setting) (some v) inner :: more) s u := by
  have calm : metAmong inner = false := progress.calm settled
  obtain ⟨added, deferred, works⟩ := progress.waiting
  obtain ⟨others, behind, later⟩ := rest.waiting
  have inside := (List.getElem?_eq_some_iff.1 turn).1
  have longer : t.deferred = s.deferred ++ added := deferred
  have final : u.deferred = s.deferred ++ (added ++ others) := by
    rw [behind, ← List.append_assoc]
    exact congrArg (· ++ others) deferred
  have here : s.deferred.drop position = d :: s.deferred.drop (position + 1) := by
    simpa using drop_eq_cons turn []
  have there : u.deferred.drop position = d :: u.deferred.drop (position + 1) := by
    rw [final]
    exact drop_eq_cons turn _
  have evaluated : evaluations (.assignment .again (d.work setting) (some v) inner :: more) =
      evaluations inner ++ ([⟨.again, d.work setting, some v, metAmong inner⟩] ++
        evaluations more) := by
    rw [evaluations_cons, evaluations_assignment, List.append_assoc]
  have split (e) (member : e ∈ evaluations
      (.assignment .again (d.work setting) (some v) inner :: more)) :
      e ∈ evaluations inner ∨ e = ⟨.again, d.work setting, some v, metAmong inner⟩ ∨
        e ∈ evaluations more := by
    rw [evaluated] at member
    simpa using member
  exact {
    waiting := by
      refine ⟨added ++ others, final, ?_⟩
      rw [evaluated, List.map_append, works, later, putDown_append, putDown_append,
        putDown_singleton]
      simp
    turns := by
      rw [there, List.map_cons, ← rest.turns]
      rfl
    takenUp := by
      rw [evaluated, there, List.map_cons, ← rest.takenUp, takenUp_append, takenUp_append,
        takenUp_singleton, progress.takenUp]
      rfl
    ordered := by
      have behind : InTurn ((t.deferred.drop (position + 1)).map (·.work setting))
        (evaluations more) := rest.ordered
      rw [longer, List.drop_append_of_le_length inside, List.map_append, works] at behind
      rw [evaluated, here]
      refine .append (.of_first fun e member => (progress.assigned e member).2)
        (by rw [progress.takenUp]; rfl) ?_
      refine .append (.singleton _) ?_ behind
      simp [putDown_singleton, takenUp_singleton]
    resolved := by
      have rest : u.deferredResolved + (position + 1) =
        t.deferredResolved + 1 + u.deferred.length := rest.resolved
      have counted : t.deferredResolved = s.deferredResolved := progress.resolved
      omega
    settled := rest.settled
    calm := by
      intro e member again
      rcases split e member with nested | rfl | later
      · exact absurd again (progress.assigned e nested).2
      · exact calm
      · exact rest.calm e later again
    assigned := by
      intro e member
      rcases split e member with nested | rfl | later
      · exact (progress.assigned e nested).1
      · rfl
      · exact rest.assigned e later }

end Walked

/-- The position stays within the list, which only grows, and no application is left unfinished when
a turn is over. -/
theorem Redoing.walked {setting : Setting} {s t : Engine} {position : Nat} {done : List Event}
    (walk : Redoing setting position done s t) (settled : s.cache.Settled)
    (within : position ≤ s.deferred.length) : Walked setting position done s t := by
  induction walk with
  | finished last => exact .finished last settled within
  | @next s t u position d h v store inner more turn target evaluated accepted rest ih =>
    have progress := evaluated.progress
    obtain ⟨added, deferred, -⟩ := progress.waiting
    have inside := (List.getElem?_eq_some_iff.1 turn).1
    refine .next turn settled progress (ih (progress.settled settled) ?_)
    change position + 1 ≤ t.deferred.length
    have longer : t.deferred = s.deferred ++ added := deferred
    rw [longer, List.length_append]
    omega

end Metamorph
