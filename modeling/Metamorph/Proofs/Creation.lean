import Mathlib.Data.List.Nodup
import Metamorph.Proofs.Trail

/-! What was created for the schedule: each scheduled application has a link of its own in the trace,
and outputs that are no other application's. Later registrations and assignments leave that as it
is. -/
namespace Metamorph

/-- Lists that have no item twice, also not between them, have each item at one place. -/
theorem place_unique_of_nodup {α : Type} {a : α} {lists : List (List α)}
    (nodup : lists.flatten.Nodup) {i j : Nat} {items others : List α} (here : lists[i]? = some items) (there : lists[j]? = some others)
    (member : a ∈ items) (present : a ∈ others) : i = j := by
  have apart {i j : Nat} {items others : List α} (before : i < j) (here : lists[i]? = some items)
      (there : lists[j]? = some others) : items.Disjoint others := by
    obtain ⟨inside, rfl⟩ := List.getElem?_eq_some_iff.1 here
    obtain ⟨within, rfl⟩ := List.getElem?_eq_some_iff.1 there
    exact List.pairwise_iff_getElem.1 (List.nodup_flatten.1 nodup).2 i j inside within before
  rcases Nat.lt_trichotomy i j with before | same | behind
  · exact absurd present (apart before here there member)
  · exact same
  · exact absurd member (apart behind there here present)

/-- Links with equal pairs are of one rule and one source. -/
def TraceLink.pair (link : TraceLink) : String × Key := (link.rule, link.source.key)

theorem TraceLink.isFor_iff {link : TraceLink} {source : Value} :
    link.isFor source = true ↔ link.source.key = source.key :=
  Value.same_iff

namespace Trace

/-- No rule was applied to a source twice. -/
def Unique (trace : Trace) : Prop := (trace.links.map (·.pair)).Nodup

theorem not_registered {trace : Trace} {rule : String} {source : Value}
    (missing : trace.lookup? rule source = none) :
    (rule, source.key) ∉ trace.links.map (·.pair) := by
  intro known
  obtain ⟨link, member, same⟩ := List.mem_map.1 known
  obtain ⟨named, keyed⟩ := Prod.mk.inj same
  have refused := List.find?_eq_none.1 missing link member
  simp [named, TraceLink.isFor_iff.2 keyed] at refused

theorem Unique.register {trace next : Trace} {store : Store} {rule : String} {source : Value}
    {outputs : Outputs} {kind : LinkKind} {link : TraceLink} (unique : trace.Unique)
    (registered : trace.register store rule source outputs kind = .ok (link, next)) :
    next.Unique := by
  obtain ⟨missing, links, rfl, rfl, -⟩ := register_eq_ok registered
  have longer := List.Nodup.concat (not_registered missing) unique
  rw [List.concat_eq_append] at longer
  rw [Unique, links, List.map_append]
  exact longer

/-- Two links that are one rule's for one source are one link. -/
theorem Unique.eq_of_pair {trace : Trace} (unique : trace.Unique) {link other : TraceLink}
    (member : link ∈ trace.links) (present : other ∈ trace.links) (same : link.pair = other.pair) :
    link = other :=
  List.inj_on_of_nodup_map unique member present same

end Trace

namespace Engine

/-- Outputs that were just made are no objects that were there before. -/
theorem Fresh.distinct_append {patterns : List OutPattern} {outputs old : Outputs} {before : Store}
    {u : Engine} (fresh : Fresh patterns outputs before u) (distinct : (old.map (·.2)).Nodup)
    (inside : ∀ output ∈ old, ∃ h, output.2 = .object h ∧ h < before.entities.size) :
    ((old ++ outputs).map (·.2)).Nodup := by
  rw [List.map_append, List.nodup_append]
  refine ⟨distinct, List.pairwise_map.2 fresh.distinct, ?_⟩
  rintro v early w late rfl
  obtain ⟨output, member, rfl⟩ := List.mem_map.1 early
  obtain ⟨other, present, same⟩ := List.mem_map.1 late
  obtain ⟨h, object, earlier⟩ := inside output member
  obtain ⟨g, -, made, later, -⟩ := fresh.made other present
  rw [object, made] at same
  cases same
  exact Nat.not_lt.2 later earlier

/-- The outputs created for the schedule are linked to its applications, they are objects of the
engine's own, each made for one output, and have no values before a binding is evaluated. -/
structure Recorded (s : Engine) : Prop where
  linked : ∀ (i : Nat) outputs, s.created[i]? = some outputs → ∃ e : Application,
    (scheduled s)[i]? = some e ∧ outputs.names = e.rule.outputs.map (·.name) ∧
      ∃ link ∈ s.trace.links, link.rule = e.rule.name ∧ link.source = e.source ∧
        link.outputs = outputs
  objects : ∀ output ∈ s.created.flatten, ∃ h cls, output.2 = .object h ∧
    h < s.store.entities.size ∧ s.Owns (.object h) ∧
      (s.bindingsEvaluated = 0 → s.store.entities[h]? = some (.instance cls []))
  distinct : (s.created.flatten.map (·.2)).Nodup
  unique : s.trace.Unique

namespace Recorded
variable {t : Transformation} {s u : Engine}

/-- What was created for a place of the schedule is linked to the application at that place. -/
theorem linkedAt (recorded : Recorded s) {place : Nat} {e : Application} {outputs : Outputs}
    (turn : (scheduled s)[place]? = some e) (known : s.created[place]? = some outputs) :
    outputs.names = e.rule.outputs.map (·.name) ∧
      ∃ link ∈ s.trace.links, link.rule = e.rule.name ∧ link.source = e.source ∧
        link.outputs = outputs := by
  obtain ⟨other, next, linked⟩ := recorded.linked place outputs known
  obtain rfl := Option.some.inj (next.symm.trans turn)
  exact linked

theorem grow (recorded : Recorded s) (growth : Growth t s u) (created : u.created = s.created)
    (schedule : u.schedule = s.schedule) (unique : u.trace.Unique) : Recorded u where
  linked i outputs known := by
    obtain ⟨e, next, names, link, member, same⟩ := recorded.linked i outputs (created ▸ known)
    refine ⟨e, ?_, names, link, growth.trace.subset member, same⟩
    rw [scheduled, schedule]
    exact next
  objects output member := by
    obtain ⟨h, cls, object, inside, owns, empty⟩ := recorded.objects output (created ▸ member)
    refine ⟨h, cls, object, Nat.lt_of_lt_of_le inside growth.size, growth.owns owns, ?_⟩
    intro none
    rw [growth.unwritten none h inside]
    exact empty (Nat.eq_zero_of_le_zero (none ▸ growth.counted))
  distinct := created ▸ recorded.distinct
  unique

/-- The next scheduled application gets its outputs and its link. -/
theorem next {e : Application} {outputs : Outputs} {link : TraceLink} {trace : Trace}
    (recorded : Recorded s) (turn : (scheduled s)[s.created.length]? = some e)
    (makes : Makes t s u) (fresh : Fresh e.rule.outputs outputs s.store u)
    (registered :
      u.trace.register u.store e.rule.name e.source outputs .matched = .ok (link, trace)) :
    Recorded { u with trace, created := u.created ++ [outputs] } := by
  obtain ⟨-, links, named, sourced, linked⟩ := Trace.register_eq_ok registered
  have same : u.created = s.created := makes.others.created
  have plan : u.schedule = s.schedule := makes.others.schedule
  have unique : u.trace.Unique := by rw [makes.others.trace]; exact recorded.unique
  have before := recorded.grow makes.growth same plan unique
  have flat : (u.created ++ [outputs]).flatten = u.created.flatten ++ outputs := by simp
  exact {
    linked := by
      intro i found known
      change (u.created ++ [outputs])[i]? = some found at known
      rw [List.getElem?_append] at known
      split at known
      · obtain ⟨e, next, names, link, member, rest⟩ := before.linked i found known
        refine ⟨e, next, names, link, ?_, rest⟩
        rw [links]
        exact List.mem_append_left _ member
      · rename_i later
        obtain ⟨last, rfl⟩ : i - u.created.length = 0 ∧ outputs = found := by
          cases position : i - u.created.length with
          | zero => simpa [position] using known
          | succ n => simp [position] at known
        have here : i = s.created.length := by
          rw [← same]
          omega
        refine ⟨e, ?_, fresh.names, link, ?_, named, sourced, linked⟩
        · rw [here, scheduled]
          change ((u.schedule.map (·.applications)).getD [])[_]? = _
          rw [plan]
          exact turn
        · rw [links]
          exact List.mem_append_right _ (List.mem_singleton_self _)
    objects := by
      intro output member
      change output ∈ (u.created ++ [outputs]).flatten at member
      rw [flat, List.mem_append] at member
      rcases member with old | new
      · exact before.objects output old
      · obtain ⟨h, cls, object, -, owns, empty⟩ := fresh.made output new
        exact ⟨h, cls, object, (Array.getElem?_eq_some_iff.1 empty).1, owns, fun _ => empty⟩
    distinct := by
      change ((u.created ++ [outputs]).flatten.map (·.2)).Nodup
      rw [flat]
      refine fresh.distinct_append before.distinct fun output member => ?_
      obtain ⟨h, -, object, inside, -⟩ := recorded.objects output (same ▸ member)
      exact ⟨h, object, inside⟩
    unique := unique.register registered }

theorem alike (recorded : Recorded s) (alike : Growth.Alike s u) (created : u.created = s.created)
    (schedule : u.schedule = s.schedule) : Recorded u := by
  obtain ⟨store, owners, trace, counted, -⟩ := alike
  exact {
    linked := by simpa only [scheduled, created, schedule, trace] using recorded.linked
    objects := by simpa only [Owns, ownerOf?, created, store, owners, counted] using recorded.objects
    distinct := created ▸ recorded.distinct
    unique := trace ▸ recorded.unique }

theorem inPhase (recorded : Recorded s) (phase : Phase) : Recorded (s.enterPhase phase) :=
  recorded.alike ⟨rfl, rfl, rfl, rfl, rfl⟩ rfl rfl

theorem quiet (recorded : Recorded s) (quiet : Quiet s u) : Recorded u := by
  obtain ⟨_, _, _, _, _, _, _, _, _, rfl⟩ := quiet
  exact recorded.alike ⟨rfl, rfl, rfl, rfl, rfl⟩ rfl rfl

theorem fresh {store : Store} {log : List LogRecord} : Recorded { store, log } where
  linked := by simp
  objects := by simp
  distinct := .nil
  unique := .nil

/-- Nothing is created yet. -/
theorem planned {schedule : Option Schedule} (recorded : Recorded s) (nothing : s.created = []) :
    Recorded { s with schedule } where
  linked i outputs known := by
    change s.created[i]? = _ at known
    simp [nothing] at known
  objects := recorded.objects
  distinct := recorded.distinct
  unique := recorded.unique

end Recorded

theorem Trail.unique {setting : Setting} {t : Transformation} {s u : Engine} {done : List Event}
    (trail : Trail setting t done s u) (unique : s.trace.Unique) : u.trace.Unique := by
  induction trail with
  | idle idle => rwa [idle.trace]
  | trans _ _ first rest => exact rest (first unique)
  | made makes | unmade _ _ makes =>
    have same := makes.others.trace
    exact same ▸ unique
  | counted _ | write _ _ _ | deferring _ | replayed | hit _ _ => exact unique
  | assignment _ _ _ inner | application _ inner | called _ inner => exact inner unique
  | broken _ _ makes _ registered _ inner | filled _ _ makes _ registered _ _ _ inner =>
    have before : Trace.Unique _ := makes.others.trace ▸ unique
    exact inner (before.register registered)

theorem Trail.recorded {setting : Setting} {t : Transformation} {s u : Engine} {done : List Event}
    (trail : Trail setting t done s u) (recorded : Recorded s) : Recorded u := by
  obtain ⟨schedule, created, -⟩ := trail.fixed
  exact recorded.grow trail.growth created schedule (trail.unique recorded.unique)

end Engine

end Metamorph
