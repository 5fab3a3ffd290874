import Metamorph.Proofs.Reach

/-! What a run leaves alone. It writes to objects that it made itself, in target models, and to no
others; whatever was there before can be read as before, also when the run fails or is broken off. -/
namespace Metamorph

/-- Bindings are worked on for the engine's own objects, and only those are assigned. -/
def Event.Proper (s : Engine) : Event → Prop
  | .assignment occasion work stored _ =>
    occasion ≠ .statement ∨ stored.isSome = true → s.Owns work.target
  | .unowned _ _ => False
  | _ => True

theorem Event.Proper.grow {t : Transformation} {s u : Engine} {event : Event}
    (proper : event.Proper s) (growth : Growth t s u) : event.Proper u := by
  cases event with
  | assignment occasion work stored inner => exact fun done => growth.owns (proper done)
  | unowned target feature => exact proper
  | _ => trivial

/-- What the engine owned when an event ended it owns from then on. -/
theorem proper_append {t : Transformation} {s u : Engine} {events more : List Event}
    (before : ∀ activity ∈ activitiesAmong events, activity.Proper s) (growth : Growth t s u)
    (behind : ∀ activity ∈ activitiesAmong more, activity.Proper u) :
    ∀ activity ∈ activitiesAmong (events ++ more), activity.Proper u := by
  intro activity member
  rw [activitiesAmong_append] at member
  rcases List.mem_append.1 member with early | late
  · exact (before activity early).grow growth
  · exact behind activity late

theorem Store.readFeature_object {store next : Store} {g : Handle}
    (same : next.entities[g]? = store.entities[g]?) (feature : String) :
    next.readFeature (.object g) feature = store.readFeature (.object g) feature := by
  simp only [readFeature, same]

namespace Engine
variable {setting : Setting} {t : Transformation} {s u : Engine} {done : List Event}

theorem Trail.proper (trail : Trail setting t done s u) :
    ∀ activity ∈ activitiesAmong done, activity.Proper u := by
  induction trail with
  | idle _ | counted _ | made _ | write _ _ _ | deferring _ => simp [activitiesAmong]
  | trans _ rest before behind => exact proper_append before rest.growth behind
  | @assignment s u occasion work stored inner bound worked assigned nested =>
    -- A binding has its target from the start, a statement passes a check before it assigns.
    have own : Event.Proper u (.assignment occasion work stored inner) := by
      rintro (binding | done)
      · exact worked.growth.owns (bound binding)
      · exact assigned done
    simpa [activitiesAmong, Event.activities, or_imp, forall_and] using ⟨nested, own⟩
  | application _ nested | called _ nested =>
    simpa [activitiesAmong, Event.activities, or_imp, forall_and] using ⟨nested, trivial⟩
  | replayed | hit _ _ | unmade _ _ _ =>
    simp [activitiesAmong, Event.activities, Event.Proper]
  | broken _ _ _ _ _ _ nested | filled _ _ _ _ _ _ _ _ nested =>
    simpa [activitiesAmong, Event.activities, or_imp, forall_and] using ⟨nested, trivial, trivial⟩

theorem Career.proper (career : Career setting t done s u) :
    ∀ activity ∈ activitiesAmong done, activity.Proper u := by
  induction career with
  | trail trail => exact trail.proper
  | trans _ rest before behind => exact proper_append before rest.growth behind
  | advanced | planned _ | matched _ _ _ _ => simp [activitiesAmong]

end Engine

section
variable {setting : Setting} {t : Transformation} {store : Store} {log : List LogRecord}
  {u : Engine}

/-- The value is an object that came into a target model after the run had begun. -/
def OwnTarget (t : Transformation) (store : Store) (u : Engine) (target : Value) : Prop :=
  ∃ h name provider, target = .object h ∧ u.ownerOf? target = some provider ∧
    (name, provider) ∈ t.targets ∧ store.entities.size ≤ h ∧ h ∈ u.store.members provider.model

theorem Growth.ownTarget (growth : Growth t { store, log } u) {target : Value}
    (owns : u.Owns target) : OwnTarget t store u target := by
  obtain ⟨h, rfl⟩ := owns.object
  obtain ⟨provider, owned⟩ := Option.isSome_iff_exists.1 owns
  rcases growth.made h provider owned with before | ⟨new, listed, name, target⟩
  · cases before
  · exact ⟨h, name, provider, rfl, owned, target, new, listed⟩

/-- Every binding is worked on for an object that the engine made, and nothing is assigned to any
other. Objects that were there before the run can be read as before, models lose none, and those the
transformation does not make objects in gain none. -/
theorem own_objects_written (given : setting.transformation = some t)
    (reaches : Engine.Reaches setting t store log u) :
    (∀ e ∈ evaluations u.history, e.occasion ≠ .statement ∨ e.stored.isSome = true →
        OwnTarget t store u e.work.target) ∧
      (∀ target feature, .unowned target feature ∉ activitiesAmong u.history) ∧
      (∀ g, g < store.entities.size → u.store.entities[g]? = store.entities[g]? ∧
        ∀ feature, u.store.readFeature (.object g) feature = store.readFeature (.object g) feature) ∧
      (∀ model, store.members model <+: u.store.members model) ∧
      ∀ model, ¬ t.HasTarget model → u.store.members model = store.members model := by
  obtain ⟨⟨done, career⟩, -⟩ := reaches.career given
  have growth := career.growth
  obtain rfl : u.history = done := career.history
  refine ⟨?_, ?_, ?_, growth.members, growth.elsewhere⟩
  · intro e member written
    obtain ⟨event, activity, evaluated⟩ := List.mem_filterMap.1 member
    have proper := career.proper event activity
    cases event with
    | assignment occasion work stored inner =>
      obtain rfl := Option.some.inj evaluated
      exact growth.ownTarget (proper written)
    | _ => cases evaluated
  · intro target feature member
    exact career.proper _ member
  · intro g inside
    have same := growth.others g inside (by simp [Engine.Owns, Engine.ownerOf?])
    exact ⟨same, Store.readFeature_object same⟩

theorem own_objects_written_direct :
    ∃ u, Engine.Reaches (Looping.settingOf Looping.direct) Looping.direct Looping.objects [] u ∧
      (∃ e ∈ evaluations u.history, OwnTarget Looping.direct Looping.objects u e.work.target) ∧
      u.store.readFeature (.object 0) "f" = Looping.objects.readFeature (.object 0) "f" := by
  obtain ⟨s, u, completes, calls, tested⟩ := Looping.completes_then_calls Looping.direct
    (fun u => (evaluations u.history).any (·.stored.isSome)) (by decide +kernel)
  obtain ⟨e, member, stored⟩ := List.any_eq_true.1 tested
  have reaches := calls.reaches completes.reaches
  obtain ⟨own, -, kept, -⟩ := own_objects_written rfl reaches
  exact ⟨u, reaches, ⟨e, member, own e member (.inr stored)⟩, (kept 0 (by decide)).2 "f"⟩

end

end Metamorph
