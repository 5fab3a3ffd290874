import Metamorph.Proofs.LaterCalls
import Metamorph.Proofs.PhaseUpholding

/-! The trace and the memory of lazy rules tell the same. Each application of a lazy rule is linked and
remembered, each application of the schedule is linked as its outputs are made, and nothing else is: so
the two never drift apart, and no rule is ever recorded twice for a source. -/
namespace Metamorph

@[simp]
theorem Fault.isDuplicate_locate (span : Span) (fault : Fault) :
    (fault.locate span).isDuplicate = fault.isDuplicate := by
  cases fault with
  | diagnosed d =>
    simp only [locate, Diagnostic.locate]
    split <;> rfl
  | number | foreignNode | host => rfl

/-- A norm that asks nothing of values. -/
def Norm.permitting (allowed : Fault → Prop)
    (ordinary : ∀ {fault : Fault}, fault.isDuplicate = false → allowed fault)
    (located : ∀ {fault : Fault} span, allowed fault → allowed (fault.locate span)) : Norm where
  asked _ := True
  allowed
  sublist _ _ := trivial
  perm _ _ := trivial
  front _ _ := trivial
  distinct _ := trivial
  ordinary
  located

/-- It allows any fault, too. -/
def Norm.lenient : Norm := .permitting (fun _ => True) (fun _ => trivial) fun _ _ => trivial

mutual

theorem Value.meets_of_asked {norm : Norm} (asked : ∀ items, norm.asked items) :
    ∀ v : Value, v.Meets norm
  | .collection _ items => ⟨fun _ => asked items, allMeet_of_asked asked items⟩
  | .tuple fields => fieldsMeet_of_asked asked fields
  | .list _ items => allMeet_of_asked asked items
  | .undefined | .boolean _ | .integer _ | .real _ | .complex _ _ _ | .string _ | .type _
  | .object _ | .thisModule _ => trivial

theorem allMeet_of_asked {norm : Norm} (asked : ∀ items, norm.asked items) :
    ∀ items : List Value, AllMeet norm items
  | [] => trivial
  | v :: rest => ⟨v.meets_of_asked asked, allMeet_of_asked asked rest⟩

theorem fieldsMeet_of_asked {norm : Norm} (asked : ∀ items, norm.asked items) :
    ∀ fields : List (String × Value), FieldsMeet norm fields
  | [] => trivial
  | (_, v) :: rest => ⟨v.meets_of_asked asked, fieldsMeet_of_asked asked rest⟩

end

/-- The rule, what it was applied to and what came of it. -/
def TraceLink.application (link : TraceLink) : String × Value × Outputs :=
  (link.rule, link.source, link.outputs)

/-- The links of one kind, in the order in which they were registered. -/
def Trace.linksOf (kind : LinkKind) (trace : Trace) : List TraceLink :=
  trace.links.filter (·.kind == kind)

namespace Trace
variable {trace next : Trace} {store : Store} {rule : String} {source : Value} {outputs : Outputs}
  {kind : LinkKind} {link : TraceLink}

theorem links_of_register (registered :
    trace.register store rule source outputs kind = .ok (link, next)) :
    next.links = trace.links ++ [⟨rule, source, store.typeTag source, outputs, kind⟩] := by
  unfold register at registered
  split at registered
  · cases cited : store.cite source <;> rw [cited] at registered <;> cases registered
  · cases registered
    rfl

/-- Only a rule that was recorded for the source already is refused. -/
theorem lookup?_of_register {fault : Fault}
    (refused : trace.register store rule source outputs kind = .error fault) :
    ∃ link ∈ trace.links, link.rule = rule ∧ link.source.key = source.key := by
  unfold register at refused
  split at refused
  · rename_i link known
    have fits := List.find?_some known
    simp only [Bool.and_eq_true, beq_iff_eq] at fits
    exact ⟨link, List.mem_of_find?_eq_some known, fits.1, TraceLink.isFor_iff.1 fits.2⟩
  · cases refused

end Trace

namespace Module

/-- No two rules of a sound module have one name, of whatever kinds they are. -/
theorem rules_nodup {m : Module} (sound : m.fault? = none) : (m.rules.map Rule.name).Nodup := by
  have unrepeated : firstRepeat? Rule.name [] m.rules = none := by
    unfold fault? at sound
    cases found : firstRepeat? Rule.name [] m.rules with
    | none => rfl
    | some r =>
      rw [found] at sound
      cases sound
  exact (firstRepeat?_eq_none _ _ _ unrepeated).1

theorem matched_ne_lazy {m : Module} (sound : m.fault? = none) {matched : MatchedRule}
    {lazy : LazyRule} (declared : matched ∈ m.matched) (known : lazy ∈ m.lazy) :
    matched.name ≠ lazy.name := by
  have apart := rules_nodup sound
  rw [rules, List.map_append, List.map_append] at apart
  have first := (List.nodup_append.1 (List.nodup_append.1 apart).1).2.2
  refine first _ (List.mem_map_of_mem (List.mem_map_of_mem declared)) _ ?_
  exact List.mem_map_of_mem (f := Rule.name) (List.mem_map_of_mem known)

theorem lazyRule?_mem {m : Module} {name : String} {rule : LazyRule}
    (known : m.lazyRule? name = some rule) : rule ∈ m.lazy :=
  List.mem_of_find?_eq_some known

end Module

/-- The scheduled application with what was made for it. -/
def Application.made (item : Application × Outputs) : String × Value × Outputs :=
  (item.1.rule.name, item.1.source, item.2)

theorem zip_append_next {α β : Type} {xs : List α} {ys : List β} {x : α} (y : β)
    (turn : xs[ys.length]? = some x) : xs.zip (ys ++ [y]) = xs.zip ys ++ [(x, y)] := by
  induction ys generalizing xs with
  | nil =>
    cases xs with
    | nil => cases turn
    | cons first rest =>
      cases turn
      simp
  | cons z ys ih =>
    cases xs with
    | nil => cases turn
    | cons first rest =>
      have later : rest[ys.length]? = some x := by simpa using turn
      simp [ih later]

namespace Record

def applications (r : Record) : List Application := (r.schedule.map (·.applications)).getD []

/-- The matched links are of what was created for the schedule, in its order, and what is scheduled comes
from certain objects. -/
structure Linked (known : Handle → Prop) (r : Record) : Prop where
  matched : (r.links.filter (·.kind == .matched)).map TraceLink.application =
    (r.applications.zip r.created).map Application.made
  within : r.created.length ≤ r.applications.length
  sources : ∀ a ∈ r.applications, ∃ h, a.source = .object h ∧ known h

namespace Linked
variable {known : Handle → Prop} {r : Record} {link : TraceLink}

theorem nothing : Linked known ⟨[], [], none, [], 0, 0, [.ready]⟩ where
  matched := rfl
  within := Nat.le_refl _
  sources := List.forall_mem_nil _

theorem plan {schedule : Schedule} (linked : r.Linked known) (nothing : r.created = [])
    (sources : ∀ a ∈ schedule.applications, ∃ h, a.source = .object h ∧ known h) :
    Linked known { r with schedule := some schedule } where
  matched := by
    have before := linked.matched
    rw [nothing, List.zip_nil_right] at before
    simpa [nothing] using before
  within := by
    rw [nothing]
    exact Nat.zero_le _
  sources

/-- The next application of the schedule is linked and its outputs are kept. -/
theorem create {a : Application} {outputs : Outputs} (linked : r.Linked known)
    (turn : r.applications[r.created.length]? = some a) (kind : link.kind = .matched)
    (made : link.application = Application.made (a, outputs)) :
    Linked known { r with
      links := r.links ++ [link]
      created := r.created ++ [outputs]
      matched := r.matched + 1 } where
  matched := by
    have own : [link].filter (·.kind == .matched) = [link] := by simp [kind]
    rw [List.filter_append, own, List.map_append]
    change _ = (r.applications.zip (r.created ++ [outputs])).map _
    rw [zip_append_next outputs turn, List.map_append]
    exact congr (congrArg _ linked.matched) (congrArg ([·]) made)
  within := by
    rw [List.length_append]
    exact (List.getElem?_eq_some_iff.1 turn).1
  sources := linked.sources

/-- Another link concerns neither the schedule nor what was created for it. -/
theorem begin (linked : r.Linked known) (kind : link.kind = .lazy) :
    Linked known { r with
      links := r.links ++ [link]
      remembered := r.remembered ++ [link.application]
      lazies := r.lazies + 1 } :=
  { linked with
    matched := by
      have others : [link].filter (·.kind == .matched) = [] := by simp [kind]
      rw [List.filter_append, others, List.append_nil]
      exact linked.matched }

end Linked

/-- Links and memory tell the same: the lazy links are of what is remembered, the matched ones of what
was created for the schedule, in the same orders, and there are no other links. -/
structure Coupled (m : Module) (r : Record) : Prop extends Linked (fun _ => True) r where
  kinds : ∀ link ∈ r.links, link.kind = .matched ∨ link.kind = .lazy
  remembered :
    (r.links.filter (·.kind == .lazy)).map TraceLink.application = r.remembered
  lazyCount : r.lazies = r.remembered.length
  matchedCount : r.matched = r.created.length
  finished : .initialization ∈ r.visited → r.created.length = r.applications.length
  declared : ∀ a ∈ r.applications, a.rule ∈ m.matched
  apart : (r.applications.map (·.source.key)).Nodup
  named : ∀ entry ∈ r.remembered, ∃ rule ∈ m.lazy, rule.name = entry.1

namespace Coupled
variable {m : Module} {r : Record} {link : TraceLink}

/-- A link is of something that was created for the schedule, or of something that is remembered. -/
theorem origin (coupled : r.Coupled m) (member : link ∈ r.links) :
    (∃ i a, r.applications[i]? = some a ∧ i < r.created.length ∧ link.rule = a.rule.name ∧
        link.source = a.source) ∨
      link.application ∈ r.remembered := by
  rcases coupled.kinds link member with matched | lazy
  · have listed : link ∈ r.links.filter (·.kind == .matched) :=
      List.mem_filter.2 ⟨member, by simp [matched]⟩
    have made := List.mem_map_of_mem (f := TraceLink.application) listed
    rw [coupled.matched] at made
    obtain ⟨⟨a, outputs⟩, item, same⟩ := List.mem_map.1 made
    obtain ⟨i, place⟩ := List.mem_iff_getElem?.1 item
    obtain ⟨turn, known⟩ := List.getElem?_zip_eq_some.1 place
    obtain ⟨rule, source, -⟩ : a.rule.name = link.rule ∧ a.source = link.source ∧ _ := by
      simpa [Application.made, TraceLink.application] using same
    exact .inl ⟨i, a, turn, (List.getElem?_eq_some_iff.1 known).1, rule.symm, source.symm⟩
  · have listed : link ∈ r.links.filter (·.kind == .lazy) :=
      List.mem_filter.2 ⟨member, by simp [lazy]⟩
    exact .inr (coupled.remembered ▸ List.mem_map_of_mem listed)

/-- Every link counts. -/
theorem size (coupled : r.Coupled m) : r.links.length = r.matched + r.lazies := by
  have matched : (r.links.filter (·.kind == .matched)).length = r.matched := by
    have made := congrArg List.length coupled.matched
    rw [List.length_map, List.length_map, List.length_zip, Nat.min_eq_right coupled.within] at made
    exact made.trans coupled.matchedCount.symm
  have lazy : (r.links.filter (·.kind == .lazy)).length = r.lazies := by
    have known := congrArg List.length coupled.remembered
    rw [List.length_map] at known
    exact known.trans coupled.lazyCount.symm
  have others : r.links.filter (·.kind == .lazy) = r.links.filter fun link => !link.kind == .matched := by
    refine List.filter_congr fun link member => ?_
    rcases coupled.kinds link member with kind | kind <;> simp [kind]
  rw [← matched, ← lazy, others]
  exact List.length_eq_length_filter_add _

/-- What comes next in the schedule is recorded for no link: not for what was created before, since no
source is scheduled twice, and not for what is remembered, since rules of two kinds have two names. -/
theorem not_linked (coupled : r.Coupled m) (sound : m.fault? = none) {a : Application}
    (turn : r.applications[r.created.length]? = some a) (member : link ∈ r.links)
    (named : link.rule = a.rule.name) : link.source.key ≠ a.source.key := by
  intro same
  obtain ⟨i, before, place, created, -, source⟩ | known := coupled.origin member
  · have keyed (j : Nat) (e : Application) (found : r.applications[j]? = some e) :
        (r.applications.map (·.source.key))[j]? = some e.source.key := by
      rw [List.getElem?_map, found]
      rfl
    have inside : i < (r.applications.map (·.source.key)).length := by
      rw [List.length_map]
      exact Nat.lt_of_lt_of_le created coupled.within
    have twice : i = r.created.length := by
      refine (List.getElem?_inj inside coupled.apart).1 ?_
      rw [keyed i before place, keyed _ a turn, ← source, same]
    exact Nat.ne_of_lt created twice
  · obtain ⟨rule, declared, name⟩ := coupled.named _ known
    have scheduled : a.rule ∈ m.matched := coupled.declared a (List.mem_of_getElem? turn)
    exact m.matched_ne_lazy sound scheduled declared (named.symm.trans name.symm)

/-- The links of a lazy rule are of what is remembered. -/
theorem remembered_of_lazy (coupled : r.Coupled m) (sound : m.fault? = none) {rule : LazyRule}
    (declared : rule ∈ m.lazy) (member : link ∈ r.links) (named : link.rule = rule.name) :
    link.application ∈ r.remembered := by
  obtain ⟨i, a, place, -, matched, -⟩ | known := coupled.origin member
  · have scheduled : a.rule ∈ m.matched := coupled.declared a (List.mem_of_getElem? place)
    exact absurd (matched.symm.trans named) (m.matched_ne_lazy sound scheduled declared)
  · exact known

theorem nothing : Coupled m ⟨[], [], none, [], 0, 0, [.ready]⟩ where
  toLinked := .nothing
  kinds := List.forall_mem_nil _
  remembered := rfl
  lazyCount := rfl
  matchedCount := rfl
  finished _ := rfl
  declared := List.forall_mem_nil _
  apart := .nil
  named := List.forall_mem_nil _

theorem enter {phase : Phase} (coupled : r.Coupled m)
    (created : phase = .initialization → r.created.length = r.applications.length) :
    Coupled m { r with visited := r.visited ++ [phase] } :=
  { coupled with
    finished := fun entered => by
      rcases List.mem_append.1 entered with before | now
      · exact coupled.finished before
      · exact created (List.mem_singleton.1 now).symm }

theorem plan {schedule : Schedule} (coupled : r.Coupled m) (nothing : r.created = [])
    (early : .initialization ∉ r.visited) (declared : schedule.Declared m)
    (sources : ∀ a ∈ schedule.applications, ∃ h, a.source = .object h)
    (apart : (schedule.applications.map (·.source.key)).Nodup) :
    Coupled m { r with schedule := some schedule } :=
  { coupled with
    toLinked := coupled.toLinked.plan nothing fun a member =>
      (sources a member).imp fun _ object => ⟨object, trivial⟩
    finished := fun entered => absurd entered early
    declared
    apart }

theorem create {a : Application} {outputs : Outputs} (coupled : r.Coupled m)
    (turn : r.applications[r.created.length]? = some a) (kind : link.kind = .matched)
    (made : link.application = Application.made (a, outputs)) :
    Coupled m { r with
      links := r.links ++ [link]
      created := r.created ++ [outputs]
      matched := r.matched + 1 } :=
  { coupled with
    toLinked := coupled.toLinked.create turn kind made
    kinds := List.forall_mem_append.2
      ⟨coupled.kinds, List.forall_mem_singleton.2 (.inl kind)⟩
    remembered := by
      have others : [link].filter (·.kind == .lazy) = [] := by simp [kind]
      rw [List.filter_append, others, List.append_nil]
      exact coupled.remembered
    matchedCount := by
      rw [List.length_append]
      exact congrArg (· + 1) coupled.matchedCount
    finished := fun entered => by
      have all := coupled.finished entered
      have inside := (List.getElem?_eq_some_iff.1 turn).1
      omega }

/-- A lazy rule is applied to something: that is linked and remembered. -/
theorem begin {rule : LazyRule} (coupled : r.Coupled m) (declared : rule ∈ m.lazy)
    (named : rule.name = link.rule) (kind : link.kind = .lazy) :
    Coupled m { r with
      links := r.links ++ [link]
      remembered := r.remembered ++ [link.application]
      lazies := r.lazies + 1 } :=
  { coupled with
    toLinked := coupled.toLinked.begin kind
    kinds := List.forall_mem_append.2
      ⟨coupled.kinds, List.forall_mem_singleton.2 (.inr kind)⟩
    remembered := by
      have own : [link].filter (·.kind == .lazy) = [link] := by simp [kind]
      rw [List.filter_append, own, List.map_append]
      exact congrArg (· ++ _) coupled.remembered
    lazyCount := by
      rw [List.length_append]
      exact congrArg (· + 1) coupled.lazyCount
    named := List.forall_mem_append.2
      ⟨coupled.named, List.forall_mem_singleton.2 ⟨rule, declared, named⟩⟩ }

end Coupled

end Record

namespace Engine
variable {setting : Setting} {t : Transformation} {s u : Engine}

theorem sources_apart {schedule : Schedule} {store : Store} (once : (t.sourceObjects store).Nodup)
    (planned : Planned t store schedule) :
    (schedule.applications.map (·.source.key)).Nodup := by
  have injective : Function.Injective fun h : Handle => (Value.object h).key := by
    intro g h same
    simpa [Value.key] using same
  have keys := planned.sources.map Value.key
  rw [List.map_map, List.map_map] at keys
  exact keys.nodup (once.map injective)

/-- Links and memory are to tell the same. -/
def Bookkeeping.coupled (norm : Norm) (given : setting.transformation = some t)
    (sound : t.module.fault? = none) : Bookkeeping setting norm where
  holds r := r.Coupled t.module
  lists t store := (t.sourceObjects store).Nodup
  enters coupled created := coupled.enter created
  plans known coupled nothing early once planned := by
    obtain rfl := Option.some.inj (given.symm.trans known)
    refine coupled.plan nothing early planned.declared (fun a member => ?_)
      (sources_apart once planned)
    obtain ⟨h, object, -⟩ := planned.sourced member
    exact ⟨h, object⟩
  creates {_ s a outputs _ trace} _ coupled turn registered := by
    rw [Trace.links_of_register registered]
    exact coupled.create turn rfl rfl
  rejects {_ s a outputs fault} _ coupled turn refused := by
    obtain ⟨link, member, named, same⟩ := Trace.lookup?_of_register refused
    exact absurd same (coupled.not_linked sound turn member named)
  begins {_ rule s argument outputs _ trace} known coupled _ registered := by
    obtain rfl := Option.some.inj (given.symm.trans known.1)
    rw [Trace.links_of_register registered]
    exact coupled.begin (Module.lazyRule?_mem known.2) rfl rfl
  refuses {_ rule s argument outputs fault} known coupled missing refused := by
    obtain rfl := Option.some.inj (given.symm.trans known.1)
    obtain ⟨link, member, named, same⟩ := Trace.lookup?_of_register refused
    have remembered := coupled.remembered_of_lazy sound (Module.lazyRule?_mem known.2) member named
    obtain ⟨entry, listed, applied⟩ := List.mem_map.1 remembered
    have other := List.find?_eq_none.1 missing entry listed
    have rule : entry.rule = link.rule := congrArg (·.1) applied
    have source : entry.source = link.source := congrArg (·.2.1) applied
    simp [LazyEntry.isFor, Value.same_eq_key, rule, source, named, same] at other

/-- Links are to tell what was created for objects that are known. -/
def Bookkeeping.linked (known : Handle → Prop) : Bookkeeping setting .lenient where
  holds r := r.Linked known
  lists t store := ∀ h ∈ t.sourceObjects store, known h
  enters linked _ := { linked with }
  plans _ linked nothing _ listed planned := linked.plan nothing fun a member => by
    obtain ⟨h, object, source⟩ := planned.sourced member
    exact ⟨h, object, listed h source⟩
  creates {_ s a outputs _ trace} _ linked turn registered := by
    rw [Trace.links_of_register registered]
    exact linked.create turn rfl rfl
  rejects _ _ _ _ := trivial
  begins {_ rule s argument outputs _ trace} _ linked _ registered := by
    rw [Trace.links_of_register registered]
    exact linked.begin rfl
  refuses _ _ _ _ := trivial

/-- Where nothing is asked of values only the models of the state's own objects matter. -/
theorem meets_of_asked {norm : Norm} (asked : ∀ items, norm.asked items)
    (owners : ∀ entry ∈ s.owners, entry.2.refusals.Allowed norm) : s.Meets norm := by
  have meets (v : Value) : v.Meets norm := v.meets_of_asked asked
  have table (entries : Named Value) : norm.Table entries := fun _ _ => meets _
  have cls (cls : Metaclass) : cls.Meets norm := fun _ _ _ => meets _
  exact {
    store := {
      entity := fun {h entity} _ => by
        cases entity with
        | «instance» c values => exact ⟨cls c, table values⟩
        | host object => exact table _
      model := fun _ _ _ _ => cls _ }
    owners
    attributes := table _
    trace := fun _ _ => table _
    cache := fun _ _ => table _
    scheduled := fun _ _ => meets _
    created := fun _ _ => table _
    deferred := fun _ _ => ⟨table _, fun _ _ => meets _⟩
    frames := fun _ _ => ⟨fun _ _ => meets _, fun _ _ => meets _⟩
    told := fun _ _ _ _ => meets _ }

/-- The engine's own objects came from target models. -/
def Supplied (t : Transformation) (s : Engine) : Prop :=
  ∀ entry ∈ s.owners, ∃ name, (name, entry.2) ∈ t.targets

theorem Makes.supplied (makes : Makes t s u) (supplied : Supplied t s) : Supplied t u := by
  induction makes with
  | idle idle => exact fun entry member => supplied entry (idle.owners ▸ member)
  | trans _ _ first rest => exact rest (first supplied)
  | make chosen _ => exact List.forall_mem_cons.2 ⟨targetProvider_mem chosen, supplied⟩

theorem Trail.supplied {done : List Event} (trail : Trail setting t done s u)
    (supplied : Supplied t s) : Supplied t u := by
  induction trail with
  | idle idle => exact fun entry member => supplied entry (idle.owners ▸ member)
  | trans _ _ first rest => exact rest (first supplied)
  | made makes => exact makes.supplied supplied
  | unmade _ _ makes => exact makes.supplied (s := asking _) supplied
  | counted _ | write _ _ _ | deferring _ | replayed | hit _ _ => exact supplied
  | assignment _ _ _ inner | application _ inner | called _ inner => exact inner supplied
  | broken _ _ makes _ _ _ inner | filled _ _ makes _ _ _ _ _ inner =>
    exact inner (makes.supplied (s := asking _) supplied)

theorem Career.supplied {done : List Event} (career : Career setting t done s u)
    (supplied : Supplied t s) : Supplied t u := by
  induction career with
  | trail trail => exact trail.supplied supplied
  | trans _ _ first rest => exact rest (first supplied)
  | advanced | planned _ => exact supplied
  | matched _ makes _ _ => exact makes.supplied supplied

/-- Every value is up to it. -/
def Standard.asking {norm : Norm} (asked : ∀ items, norm.asked items)
    (books : Bookkeeping setting norm) (given : setting.transformation = some t)
    (natives : ∀ {name native}, setting.helpers.natives.get? name = some native →
      ∀ (store : Store) args fault, native.run store.cite args = .error fault → norm.allowed fault)
    (models : ∀ entry ∈ t.models, entry.2.refusals.Allowed norm) : Standard setting where
  norm
  books
  natives {name native} known store args _ := by
    cases answered : native.run store.cite args with
    | ok v => exact .ok (v.meets_of_asked asked)
    | error fault => exact .refused (natives known store args fault answered)
  models known := by
    obtain rfl := Option.some.inj (given.symm.trans known)
    exact models

/-- However a run and the calls after it end, the applications of rules are as is asked. -/
theorem Reaches.booked {store : Store} {log : List LogRecord} (books : Bookkeeping setting .lenient)
    (given : setting.transformation = some t) (listed : books.lists t store)
    (begun : books.holds (record { store, log })) (reaches : Reaches setting t store log u) :
    books.holds (record u) := by
  have asked (items : List Value) : Norm.lenient.asked items := trivial
  let std : Standard setting := .asking asked books given (fun _ _ _ _ _ => trivial)
    (fun _ _ _ _ => trivial)
  have state : std.State { store, log } := ⟨meets_of_asked asked (List.forall_mem_nil _), begun⟩
  have handed : ReachesWith (·.Meets std.norm) setting t store log u :=
    reaches.with fun v => v.meets_of_asked asked
  exact (ReachesWith.state given (fun _ => trivial) listed state handed).books

theorem coupled_setUp {m : Module} {store : Store} {log : List LogRecord} :
    (record { store, log }).Coupled m := Record.Coupled.nothing

theorem Reaches.coupled {store : Store} {log : List LogRecord}
    (given : setting.transformation = some t) (sound : t.module.fault? = none)
    (once : (t.sourceObjects store).Nodup) (reaches : Reaches setting t store log u) :
    (record u).Coupled t.module :=
  reaches.booked (.coupled _ given sound) given once coupled_setUp

theorem Reaches.linked {store : Store} {log : List LogRecord} {known : Handle → Prop}
    (given : setting.transformation = some t) (listed : ∀ h ∈ t.sourceObjects store, known h)
    (reaches : Reaches setting t store log u) : (record u).Linked known :=
  reaches.booked (.linked known) given listed Record.Linked.nothing

theorem Reaches.supplied {store : Store} {log : List LogRecord}
    (given : setting.transformation = some t) (reaches : Reaches setting t store log u) :
    Supplied t u := by
  obtain ⟨⟨_, career⟩, -⟩ := reaches.career given
  exact career.supplied (List.forall_mem_nil _)

/-- Runs that add links and leave those that there are. -/
def linking : Conduct Engine :=
  .both (fun s u => s.trace.links <+: u.trace.links) (fun _ => List.prefix_rfl) List.IsPrefix.trans

theorem createAll_linking (left : List Application) : Run.Keeps linking (createAll t left) := by
  induction left with
  | nil => exact .pure _
  | cons a rest ih =>
    refine .bind (.modify fun _ => List.prefix_rfl) fun _ => ?_
    have made : Run.Keeps linking (makeTargets t a.rule.outputs) :=
      (makeTargets_keeps a.rule.outputs).imp (fun makes => makes.growth.trace)
        (fun makes => makes.growth.trace) id
    refine .bind made fun outputs => .bind (fun s => ?_) fun _ =>
      .bind (.modify fun _ => List.prefix_rfl) fun _ => ih
    cases linked : registerLink a.rule.name a.source outputs .matched s with
    | value _ u =>
      obtain ⟨link, trace, registered, rfl⟩ := registerLink_eq_value linked
      exact ⟨[link], (Trace.register_eq_ok registered).2.1.symm⟩
    | failure fault u =>
      obtain rfl := registerLink_eq_failure linked
      exact List.prefix_rfl
    | exhausted => trivial

end Engine

/-- No code that the transformation is handed claims that a rule was recorded twice: no native
operation, no model, and nobody who breaks evaluation off. -/
structure HostsOrdinary (setting : Setting) (t : Transformation) (stop : Interruption) : Prop where
  natives : ∀ name native, setting.helpers.natives.get? name = some native →
    ∀ (store : Store) args fault, native.run store.cite args = .error fault →
      fault.isDuplicate = false
  models : ∀ entry ∈ t.models, ∀ fault, entry.2.refusals.objects = some fault ∨
    entry.2.refusals.create = some fault ∨ entry.2.refusals.assign = some fault →
      fault.isDuplicate = false
  before : ∀ env e s fault, stop.before env e s = some fault → fault.isDuplicate = false
  after : ∀ env e v s fault, stop.after env e v s = some fault → fault.isDuplicate = false

theorem Looping.hosts_ordinary (t : Transformation)
    (willing : ∀ entry ∈ t.models, entry.2.refusals = {}) :
    HostsOrdinary (settingOf t) t .never where
  natives name native known := by cases known
  models entry member fault refused := by
    rw [willing entry member] at refused
    rcases refused with none | none | none <;> cases none
  before _ _ _ _ broken := by cases broken
  after _ _ _ _ _ broken := by cases broken

end Metamorph
