import Mathlib
import Metamorph.Proofs.Resolution
import Metamorph.Proofs.Success
import Metamorph.Proofs.Walk

/-! When the walk over the bindings that wait ends. It does if its turns begin only so many applications
of lazy rules, and rules may well begin one more at every turn: the nesting of rules is back to nothing
between two turns, so no limit of it keeps them from that. -/
namespace Metamorph

namespace Engine
open Run
variable {setting : Setting} {self : Evaluator} {s : Engine}

/-- A walk whose every turn leaves another binding waiting and begins another application. -/
structure Renewing (evaluator : Evaluator) (setting : Setting) (Ready : Nat → Engine → Prop) :
    Prop where
  turn : ∀ {position s}, Ready position s → ∃ d u, s.deferred[position]? = some d ∧
    resolveDeferred evaluator setting d s = .value () u ∧
    s.cache.entries.length < u.cache.entries.length ∧ Ready (position + 1) u

namespace Renewing
variable {Ready : Nat → Engine → Prop} {position : Nat}

/-- Any number of its turns is made. -/
theorem goes_on (renewing : Renewing self setting Ready) (n : Nat) (ready : Ready position s) :
    ∃ u, turns self setting n position s = .value () u ∧ Ready (position + n) u ∧
      s.cache.entries.length + n ≤ u.cache.entries.length := by
  induction n generalizing position s with
  | zero => exact ⟨s, rfl, ready, Nat.le_refl _⟩
  | succ n ih =>
    obtain ⟨d, u, turn, ended, begun, next⟩ := renewing.turn ready
    obtain ⟨w, gone, later, more⟩ := ih next
    refine ⟨w, ?_, ?_, by omega⟩
    · rw [turns_next turn]
      exact bind_eq_value.2 ⟨(), u, ended, gone⟩
    · rwa [Nat.add_right_comm, Nat.add_assoc] at later

theorem unbounded (renewing : Renewing self setting Ready) (ready : Ready position s) :
    ¬ ∃ most, Bounded self setting most position s := by
  rintro ⟨most, bounded⟩
  obtain ⟨u, gone, -, begun⟩ := renewing.goes_on (most + 1) ready
  have few := bounded (most + 1) u gone
  omega

/-- Whatever the bound, the walk goes past it. -/
theorem endless (renewing : Renewing self setting Ready) (ready : Ready position s) (bound : Nat) :
    resolveFrom self setting bound position s = .exhausted := by
  by_contra certain
  exact renewing.unbounded ready (bounded_of_resolveFrom certain)

end Renewing

end Engine

/-- Whatever rules do, a number of turns ends. The walk and with it the run end if only so many
applications of lazy rules are begun in it, and in no other case. -/
theorem walk_ends_iff {setting : Setting} {t : Transformation} {settings : Settings}
    {navigator : Navigator} {store : Store} {log : List LogRecord}
    (helperless : t.module.helpers = [])
    (prepared : Engine.prepare t settings navigator = .ok setting) :
    ∃ enough, ∀ depth, enough ≤ depth → ∀ s,
      Engine.prepareWalk (Engine.evaluateWithin setting depth) setting t { store, log } =
        .value () s →
      (∀ n, Engine.turns (Engine.evaluateWithin setting depth) setting n 0
        (Engine.enterPhase .resolution s) ≠ .exhausted) ∧
      ((∃ walk, ∀ longer, walk ≤ longer →
          Engine.runWith (Engine.evaluateWithin setting depth) longer setting t { store, log } ≠
            .exhausted) ↔
        ∃ most, Engine.Bounded (Engine.evaluateWithin setting depth) setting most 0
          (Engine.enterPhase .resolution s)) := by
  obtain ⟨given, free⟩ := Engine.prepare_helperless helperless prepared
  refine ⟨Engine.walkDepth setting t.module, fun depth enough s ended => ?_⟩
  have turning := Engine.evaluateWithin_turning given free enough
  obtain ⟨here, walking⟩ := Engine.prepareWalk_walking given ended
  have upToWalk := Engine.runWith_eq_exhausted here ended
  refine ⟨fun n => turning.turns_end n 0 walking, ?_, ?_⟩
  · rintro ⟨walk, certain⟩
    exact Engine.bounded_of_resolveFrom fun cut => certain walk (Nat.le_refl _) ((upToWalk walk).2 cut)
  · rintro ⟨most, bounded⟩
    obtain ⟨walk, outcome, certain, same⟩ := turning.halts 0 _ walking bounded
    refine ⟨walk, fun longer further cut => certain ?_⟩
    rw [← same (longer - walk), Nat.add_sub_cancel' further]
    exact (upToWalk longer).1 cut

set_option maxRecDepth 4000 in
theorem walk_ends_iff_direct : ∃ depth s most,
    Engine.prepareWalk (Engine.evaluateWithin (Looping.settingOf Looping.direct) depth)
        (Looping.settingOf Looping.direct) Looping.direct { store := Looping.objects } =
      .value () s ∧
    Engine.Bounded (Engine.evaluateWithin (Looping.settingOf Looping.direct) depth)
      (Looping.settingOf Looping.direct) most 0 (Engine.enterPhase .resolution s) := by
  have begins (k : Nat) : Looping.passes (fun _ => true) (Engine.prepareWalk
      (Engine.evaluateWithin (Looping.settingOf Looping.direct) (k + 8))
      (Looping.settingOf Looping.direct) Looping.direct { store := Looping.objects }) = true := by
    cbv
  have runs (k j : Nat) : Looping.passes (fun _ => true) (Engine.runWith
      (Engine.evaluateWithin (Looping.settingOf Looping.direct) (k + 8)) (j + 2)
      (Looping.settingOf Looping.direct) Looping.direct { store := Looping.objects }) = true := by
    cbv
  have prepared : Engine.prepare Looping.direct {} .full =
      .ok (Looping.settingOf Looping.direct) := rfl
  obtain ⟨enough, ends⟩ : ∃ enough, ∀ depth, enough ≤ depth → ∀ s,
      Engine.prepareWalk (Engine.evaluateWithin (Looping.settingOf Looping.direct) depth)
        (Looping.settingOf Looping.direct) Looping.direct { store := Looping.objects } =
          .value () s → _ := walk_ends_iff rfl prepared
  obtain ⟨_, s, begun, -⟩ := Looping.of_passes (begins enough)
  have stops : ∀ longer, 2 ≤ longer → Engine.runWith
      (Engine.evaluateWithin (Looping.settingOf Looping.direct) (enough + 8)) longer
      (Looping.settingOf Looping.direct) Looping.direct { store := Looping.objects } ≠
        .exhausted := by
    intro longer further cut
    have passed := runs enough (longer - 2)
    rw [Nat.sub_add_cancel further, cut] at passed
    cases passed
  obtain ⟨most, bounded⟩ := (ends _ (Nat.le_add_right _ 8) s begun).2.1 ⟨2, stops⟩
  exact ⟨_, s, most, begun, bounded⟩

namespace Looping
open Run Engine

/-- The first evaluation meets the rule's own result; the second one asks for that of the object it
made. -/
def onward : Expr := .conditional marked (.call "L" [.variable "o" {}] {}) (call "L") {}

def done : Expr := .literal (.boolean true) {}

def endless : Transformation :=
  transformation [⟨"g", call "L"⟩] [⟨"f", onward⟩, ⟨"g", done⟩] [] []

def onwardRule : LazyRule :=
  { name := "L", parameter := { name := "x" }
    outputs := [{ name := "o", type := "T", bindings := [⟨"f", onward⟩, ⟨"g", done⟩] }]
    loc := {}, productive := by simp, distinct := by simp }

theorem onwardRule_known : endless.module.lazyRule? "L" = some onwardRule := rfl

/-- The variables of the application to an object. -/
def own (source made : Handle) : Environment :=
  (settingOf endless).rootEnvironment [("x", .object source), ("o", .object made)]

/-- What the application to an object leaves waiting. -/
def left (source made : Handle) : DeferredBinding :=
  (⟨.object made, "f", onward, (own source made).snapshot⟩ : Assignment).deferral "L" []

section
variable {s u : Engine} {source made : Handle} {k : Nat} {store : Store}

theorem same_object (g h : Handle) : (Value.object g).same (.object h) = decide (g = h) := by
  rw [Value.same_eq_key, Bool.eq_iff_iff]
  simp [Value.key]

/-- Whatever objects the model of the targets lists. -/
def Growing (store : Store) : Prop :=
  ∃ members, store.models[1]? = some ⟨"target", .ofClasses "M" [cls], members⟩

theorem set_single {values : Named Value} {h : Handle} {f : String} {v : Value}
    (known : store.entities[h]? = some (.instance cls values)) (kept : Store.stored cls f v = .ok v) :
    ∃ next, store.set h f v = .ok next ∧
      next.entities[h]? = some (.instance cls (values.set f v)) ∧
      (∀ g, h ≠ g → next.entities[g]? = store.entities[g]?) ∧
      next.entities.size = store.entities.size ∧ next.models = store.models := by
  obtain ⟨next, accepted⟩ : ∃ next, store.set h f v = .ok next := by
    unfold Store.set
    simp only [known, kept, Except.map]
    exact ⟨_, rfl⟩
  obtain ⟨_, _, w, found, stored, changed, others⟩ := Store.entities_set accepted
  rw [known] at found
  cases found
  rw [kept] at stored
  cases stored
  obtain ⟨_, _, _, _, _, _, models⟩ := Store.set_eq_ok accepted
  exact ⟨next, accepted, changed, others, Store.size_set accepted, models⟩

theorem create_single (growing : Growing store) :
    ∃ next, store.create 1 "T" = .ok (store.entities.size, next) ∧
      next.entities[store.entities.size]? = some (.instance cls []) ∧
      (∀ g, g < store.entities.size → next.entities[g]? = store.entities[g]?) ∧
      next.entities.size = store.entities.size + 1 ∧ Growing next := by
  obtain ⟨members, known⟩ := growing
  have creatable : Store.creatable ⟨"target", .ofClasses "M" [cls], members⟩ "T" = .ok cls := by
    with_unfolding_all rfl
  have created : store.create 1 "T" = .ok (store.entities.size,
      { entities := store.entities.push (.instance cls [])
        models := store.models.set! 1
          ⟨"target", .ofClasses "M" [cls], members ++ [store.entities.size]⟩ }) := by
    unfold Store.create
    simp only [known, creatable, Except.map]
    rfl
  obtain ⟨inside, -⟩ := Array.getElem?_eq_some_iff.1 known
  refine ⟨_, created, by simp, fun g earlier => ?_, by simp, members ++ [store.entities.size], ?_⟩
  · rw [Array.getElem?_push, if_neg (Nat.ne_of_lt earlier)]
  · simp [inside]

/-- The states differ only in what the evaluation of a binding changes. -/
structure Same (s u : Engine) : Prop where
  phase : u.phase = s.phase
  depth : u.depth = s.depth
  owners : u.owners = s.owners
  trace : u.trace = s.trace
  entries : u.cache.entries = s.cache.entries

/-- The rule asks for its own result while that is filled in. -/
theorem own_result {env : Environment} (known : env.get? "x" = some (.object source))
    (begun : s.phase ≠ .matching) (shallow : s.depth < 200)
    (asked : s.cache.lookup? "L" (.object source) =
      some ⟨"L", .object source, [("o", .object made)], false⟩) :
    ∃ u, evaluateWithin (settingOf endless) (k + 2) env (call "L") s = .value (.object made) u ∧
      u.store = s.store ∧ u.deferred = s.deferred ∧
      u.frames = s.frames.modifyHead (fun frame => { frame with sawIncomplete := true }) ∧
      Same s u := by
  have limit : ¬ (settingOf endless).settings.depthLimit ≤ s.depth := by
    change ¬ (200 : Int) ≤ s.depth
    omega
  have incomplete : s.cache.hit.isComplete "L" (.object source) = false := by
    change (s.cache.lookup? "L" (.object source)).any (·.complete) = false
    rw [asked]
    rfl
  have invoked : invokeLazy (evaluateWithin (settingOf endless) (k + 1)) (settingOf endless) endless
      onwardRule (.object source) s = _ :=
    invokeLazy_of_request begun limit rfl (request_hit asked) incomplete
  exact ⟨_, evaluate_lazy rfl rfl onwardRule_known known invoked, rfl, rfl, rfl,
    rfl, rfl, rfl, rfl, rfl⟩

theorem first_binding (begun : s.phase ≠ .matching) (shallow : s.depth < 200)
    (asked : s.cache.lookup? "L" (.object source) =
      some ⟨"L", .object source, [("o", .object made)], false⟩)
    (unset : s.store.navigate (.object made) "g" = .ok .undefined)
    (owned : s.owners.lookup made = some { model := 1 })
    (unlinked : s.trace.replacement (.object made) = .ok (.object made))
    (accepted : s.store.set made "f" (.object made) = .ok store) :
    ∃ u, applyBinding (evaluateWithin (settingOf endless) (k + 3)) (settingOf endless) "L"
        (.object made) ⟨"f", onward⟩ (own source made) true [] s = .value () u ∧
      u.store = store ∧ u.deferred = s.deferred ++ [left source made] ∧ Same s u := by
  have looked : evaluateWithin (settingOf endless) (k + 2) (own source made) marked (opened {} s) =
      .value .undefined { opened {} s with navigations := s.navigations + 1 } :=
    evaluate_feature rfl rfl unset
  obtain ⟨u, called, kept, waiting, frames, same⟩ :
      ∃ u, evaluateWithin (settingOf endless) (k + 2) (own source made) (call "L")
          { opened {} s with navigations := s.navigations + 1 } = .value (.object made) u ∧ _ :=
    own_result rfl begun shallow asked
  have evaluated : evaluateWithin (settingOf endless) (k + 3) (own source made) onward
      (opened {} s) = .value (.object made) u :=
    evaluateWithin_eq_value (bind_eq_value.2 ⟨_, _, looked, called⟩)
  have owner : u.ownerOf? (.object made) = some { model := 1 } := by
    rw [ownerOf?, same.owners]
    exact owned
  have resolved : (if (settingOf endless).settings.implicitResolution then
      implicitTarget u.trace (.object made) else .ok (.object made)) = .ok (.object made) := by
    rw [same.trace]
    exact unlinked
  have accepted : Provider.assign { model := 1 } u.store made "f" (.object made) = .ok store := by
    rw [show u.store = s.store from kept]
    exact accepted
  have met : u.frames.head? = some { sawIncomplete := true } := by
    rw [frames]
    rfl
  have applied : applyBinding (evaluateWithin (settingOf endless) (k + 3)) (settingOf endless) "L"
      (.object made) ⟨"f", onward⟩ (own source made) true [] s = _ :=
    applyBinding_value evaluated owner resolved accepted
  rw [met] at applied
  refine ⟨_, applied, rfl, ?_, same.phase, same.depth, same.owners, same.trace, same.entries⟩
  change u.deferred ++ _ = _
  rw [waiting]
  rfl

theorem second_binding (owned : s.owners.lookup made = some { model := 1 })
    (accepted : s.store.set made "g" (.boolean true) = .ok store) :
    ∃ u, applyBinding (evaluateWithin (settingOf endless) (k + 3)) (settingOf endless) "L"
        (.object made) ⟨"g", done⟩ (own source made) true [] s =
          .value () u ∧
      u.store = store ∧ u.deferred = s.deferred ∧ Same s u := by
  have applied : applyBinding (evaluateWithin (settingOf endless) (k + 3)) (settingOf endless) "L"
      (.object made) ⟨"g", done⟩ (own source made) true [] s = _ :=
    applyBinding_value rfl owned rfl accepted
  exact ⟨_, applied, rfl, rfl, rfl, rfl, rfl, rfl, rfl⟩

theorem not_same_later {first h : Handle} {v : Value} (earlier : ∃ g, v = .object g ∧ g < first)
    (later : first ≤ h) : v.same (.object h) = false := by
  obtain ⟨g, rfl, earlier⟩ := earlier
  rw [same_object, decide_eq_false_iff_not]
  exact Nat.ne_of_lt (Nat.lt_of_lt_of_le earlier later)

/-- The trace and the memory know nothing of the objects from this one on. -/
structure Unasked (first : Handle) (s : Engine) : Prop where
  links : ∀ link ∈ s.trace.links, ∃ g, link.source = .object g ∧ g < first
  entries : ∀ entry ∈ s.cache.entries, ∃ g, entry.source = .object g ∧ g < first

namespace Unasked
variable {first h : Handle}

theorem untraced (unasked : Unasked first s) (later : first ≤ h) (name : String) :
    s.trace.lookup? name (.object h) = none := by
  unfold Trace.lookup?
  rw [List.find?_eq_none]
  intro link member
  simp [TraceLink.isFor, not_same_later (unasked.links link member) later]

theorem missing (unasked : Unasked first s) (later : first ≤ h) (name : String) :
    s.cache.lookup? name (.object h) = none := by
  unfold LazyCache.lookup?
  rw [List.find?_eq_none]
  intro entry member
  simp [LazyEntry.isFor, not_same_later (unasked.entries entry member) later]

theorem unlinked (unasked : Unasked first s) (later : first ≤ h) :
    s.trace.replacement (.object h) = .ok (.object h) := by
  have none : s.trace.linksFor (.object h) = [] := by
    rw [Trace.linksFor_eq, List.filter_eq_nil_iff]
    intro link member
    simp [TraceLink.isFor, not_same_later (unasked.links link member) later]
  unfold Trace.replacement Trace.matchedLink?
  rw [none]
  rfl

theorem earlier_append {α : Type} {place : α → Value} {xs : List α} {x : α}
    (before : ∀ y ∈ xs, ∃ g, place y = .object g ∧ g < source) (own : place x = .object source)
    (later : source < first) : ∀ y ∈ xs ++ [x], ∃ g, place y = .object g ∧ g < first := by
  intro y member
  rcases List.mem_append.1 member with old | new
  · obtain ⟨g, known, earlier⟩ := before y old
    exact ⟨g, known, Nat.lt_trans earlier later⟩
  · obtain rfl := List.mem_singleton.1 new
    exact ⟨source, own, later⟩

theorem extend (unasked : Unasked source s) (later : source < first) {link : TraceLink}
    {entry : LazyEntry} (linked : link.source = .object source)
    (links : u.trace.links = s.trace.links ++ [link]) (asked : entry.source = .object source)
    (entries : u.cache.entries = s.cache.entries ++ [entry]) : Unasked first u where
  links := links ▸ earlier_append unasked.links linked later
  entries := entries ▸ earlier_append unasked.entries asked later

end Unasked

/-- One more object, made of another. -/
structure Extended (source made : Handle) (s u : Engine) : Prop where
  phase : u.phase = s.phase
  depth : u.depth = s.depth
  owners : u.owners = (made, { model := 1 }) :: s.owners
  link : ∃ link : TraceLink, link.source = .object source ∧ u.trace.links = s.trace.links ++ [link]
  earlier : ∀ g, g < made → u.store.entities[g]? = s.store.entities[g]?
  size : u.store.entities.size = made + 1
  growing : Growing u.store

theorem new_object (growing : Growing s.store) (whole : s.store.entities.size = made)
    (untraced : s.trace.lookup? "L" (.object source) = none) :
    ∃ u, createLazy endless onwardRule (.object source) s = .value [("o", .object made)] u ∧
      u.cache = s.cache ∧ u.deferred = s.deferred ∧
      u.store.entities[made]? = some (.instance cls []) ∧ Extended source made s u := by
  subst whole
  obtain ⟨next, created, empty, earlier, size, still⟩ := create_single growing
  let w := owning s.store.entities.size { model := 1 } next (noteRule "L" s)
  have making : makeTarget endless
      ⟨"o", "T", [⟨"f", onward⟩, ⟨"g", done⟩], {}⟩ (noteRule "L" s) =
        .value (.object s.store.entities.size) w := by
    refine bind_eq_value.2 ⟨{ model := 1 }, _, ofResult_eq_value.2 ⟨rfl, rfl⟩, ?_⟩
    refine bind_eq_value.2 ⟨_, _, rfl, bind_eq_value.2 ⟨(s.store.entities.size, next),
      noteRule "L" s, collaborate_eq_value.2 ⟨created, rfl⟩, rfl⟩⟩
  have targets : makeTargets endless onwardRule.outputs (noteRule "L" s) =
      .value [("o", .object s.store.entities.size)] w :=
    bind_eq_value.2 ⟨_, _, making, rfl⟩
  obtain ⟨link, linked, registered⟩ : ∃ link : TraceLink, link.source = .object source ∧
      s.trace.register next "L" (.object source) [("o", .object s.store.entities.size)] .lazy =
        .ok (link, s.trace.push link) := by
    unfold Trace.register
    rw [untraced]
    exact ⟨_, rfl, rfl⟩
  have recorded : registerLink "L" (.object source) [("o", .object s.store.entities.size)] .lazy w =
      .value () { w with trace := s.trace.push link } :=
    bind_eq_value.2 ⟨w, w, rfl, bind_eq_value.2 ⟨_, w, ofResult_eq_value.2 ⟨registered, rfl⟩, rfl⟩⟩
  have all : createLazy endless onwardRule (.object source) s =
      .value [("o", .object s.store.entities.size)]
        { w with trace := s.trace.push link, lazyApplied := w.lazyApplied + 1 } :=
    bind_eq_value.2 ⟨(), _, rfl, bind_eq_value.2 ⟨_, w, targets, bind_eq_value.2 ⟨(), _, recorded, rfl⟩⟩⟩
  exact ⟨_, all, rfl, rfl, empty,
    { phase := rfl, depth := rfl, owners := rfl, link := ⟨link, linked, rfl⟩
      earlier, size, growing := still }⟩

theorem navigate_single {values : Named Value} {h : Handle} {v : Value}
    (known : store.entities[h]? = some (.instance cls values))
    (read : Store.read cls values "g" = .ok v) :
    store.navigate (.object h) "g" = .ok (asSequence v) := by
  unfold Store.navigate Store.readFeature
  simp only [known, read]
  rfl

/-- The object that was made is filled in, which leaves one more binding waiting. -/
theorem fill_new (begun : s.phase ≠ .matching) (shallow : s.depth < 200)
    (empty : s.store.entities[made]? = some (.instance cls []))
    (asked : s.cache.lookup? "L" (.object source) =
      some ⟨"L", .object source, [("o", .object made)], false⟩)
    (owned : s.owners.lookup made = some { model := 1 })
    (unlinked : s.trace.replacement (.object made) = .ok (.object made)) :
    ∃ u, fillLazy (evaluateWithin (settingOf endless) (k + 3)) (settingOf endless) onwardRule
        (.object source) [("o", .object made)] s = .value () u ∧
      u.store.entities[made]? =
        some (.instance cls [("f", .object made), ("g", .boolean true)]) ∧
      (∀ g, made ≠ g → u.store.entities[g]? = s.store.entities[g]?) ∧
      u.store.entities.size = s.store.entities.size ∧ u.store.models = s.store.models ∧
      u.deferred = s.deferred ++ [left source made] ∧ Same s u := by
  have unset : s.store.navigate (.object made) "g" = .ok .undefined := navigate_single empty rfl
  obtain ⟨a, accepted, once, others, size, models⟩ :
      ∃ a, s.store.set made "f" (.object made) = .ok a ∧ _ := set_single empty rfl
  obtain ⟨b, again, twice, others', size', models'⟩ :
      ∃ b, a.set made "g" (.boolean true) = .ok b ∧ _ := set_single once rfl
  obtain ⟨v, first, kept, waiting, same⟩ :
      ∃ v, applyBinding (evaluateWithin (settingOf endless) (k + 3)) (settingOf endless) "L"
        (.object made) ⟨"f", onward⟩ (own source made) true []
        (noteRule "L" { s with history := [] }) = .value () v ∧ _ :=
    first_binding begun shallow asked unset owned unlinked accepted
  subst kept
  have mine : v.owners.lookup made = some { model := 1 } := by
    rw [same.owners]
    exact owned
  obtain ⟨w, second, rfl, after, same'⟩ :
      ∃ w, applyBinding (evaluateWithin (settingOf endless) (k + 3)) (settingOf endless) "L"
        (.object made) ⟨"g", done⟩ (own source made) true [] v = .value () w ∧ _ :=
    second_binding mine again
  have filled : fillApplication (evaluateWithin (settingOf endless) (k + 3)) (settingOf endless)
      "L" onwardRule.outputs [("o", .object made)] [("x", .object source)]
      { s with history := [] } = .value () w := by
    refine bind_eq_value.2 ⟨(), _, rfl, bind_eq_value.2 ⟨(), w, ?_, rfl⟩⟩
    exact bind_eq_value.2 ⟨(), v, first, bind_eq_value.2 ⟨(), w, second, rfl⟩⟩
  refine ⟨_, applying_eq_value.2 ⟨w, filled, rfl⟩, twice, fun g other => ?_, ?_, ?_, ?_, ?_⟩
  · exact (others' g other).trans (others g other)
  · exact size'.trans size
  · exact models'.trans models
  · exact after.trans waiting
  · exact {
      phase := same'.phase.trans same.phase
      depth := same'.depth.trans same.depth
      owners := same'.owners.trans same.owners
      trace := same'.trace.trans same.trace
      entries := same'.entries.trans same.entries }

theorem lookup?_start {cache : LazyCache} {outputs : Outputs}
    (missing : cache.lookup? "L" (.object source) = none) :
    (cache.start "L" (.object source) outputs).lookup? "L" (.object source) =
      some ⟨"L", .object source, outputs, false⟩ := by
  have own : (⟨"L", .object source, outputs, false⟩ : LazyEntry).isFor "L" (.object source) = true := by
    simp [LazyEntry.isFor, same_object]
  unfold LazyCache.lookup? at missing ⊢
  rw [LazyCache.start, List.find?_append, missing]
  simp [own]

/-- The object is made and the application remembered, but not filled in. -/
structure Started (source made : Handle) (s u : Engine) : Prop where
  extended : Extended source made s u
  empty : u.store.entities[made]? = some (.instance cls [])
  asked : u.cache.lookup? "L" (.object source) =
    some ⟨"L", .object source, [("o", .object made)], false⟩
  entries : u.cache.entries =
    s.cache.entries ++ [⟨"L", .object source, [("o", .object made)], false⟩]
  deferred : u.deferred = s.deferred
  unlinked : u.trace.replacement (.object made) = .ok (.object made)

theorem start_new (growing : Growing s.store) (whole : s.store.entities.size = made)
    (present : source < made) (unasked : Unasked source s) :
    ∃ u started, createLazy endless onwardRule (.object source)
        { s.enter with history := [], cache := s.cache.miss } = .value [("o", .object made)] u ∧
      { u with cache := u.cache.start "L" (.object source) [("o", .object made)] } = started ∧
      Started source made s.enter started := by
  have missing := unasked.missing (Nat.le_refl _) "L"
  obtain ⟨u, created, remembered, waiting, empty, extended⟩ :
      ∃ u, createLazy endless onwardRule (.object source)
        { s.enter with history := [], cache := s.cache.miss } = .value [("o", .object made)] u ∧ _ :=
    new_object growing whole (unasked.untraced (Nat.le_refl _) "L")
  let started : Engine := { u with
    cache := u.cache.start "L" (.object source) [("o", .object made)] }
  have entries : started.cache.entries =
      s.cache.entries ++ [⟨"L", .object source, [("o", .object made)], false⟩] := by
    change u.cache.entries ++ _ = _
    rw [remembered]
    rfl
  have asked : started.cache.lookup? "L" (.object source) =
      some ⟨"L", .object source, [("o", .object made)], false⟩ := by
    change (u.cache.start "L" (.object source) [("o", .object made)]).lookup? "L" _ = _
    rw [remembered]
    exact lookup?_start missing
  obtain ⟨link, linked, links⟩ := extended.link
  have later : Unasked made started := unasked.extend present linked links rfl entries
  exact ⟨u, started, created, rfl,
    { extended := { extended with }, empty, asked, entries, deferred := waiting
      unlinked := later.unlinked (Nat.le_refl made) }⟩

/-- An application to an object that the rule was not applied to before. -/
theorem new_application {env : Environment} (known : env.get? "o" = some (.object source))
    (begun : s.phase ≠ .matching) (shallow : s.depth = 0) (growing : Growing s.store)
    (whole : s.store.entities.size = made) (present : source < made)
    (unasked : Unasked source s) :
    ∃ u, evaluateWithin (settingOf endless) (k + 4) env (.call "L" [.variable "o" {}] {}) s =
        .value (.object made) u ∧
      u.store.entities[made]? =
        some (.instance cls [("f", .object made), ("g", .boolean true)]) ∧
      u.deferred = s.deferred ++ [left source made] ∧
      (∃ entry : LazyEntry, entry.source = .object source ∧
        u.cache.entries = s.cache.entries ++ [entry]) ∧
      Extended source made s u := by
  obtain ⟨v, e, created, remembered, started⟩ := start_new growing whole present unasked
  have extended := started.extended
  have begun' : e.phase ≠ .matching := by
    rw [extended.phase]
    exact begun
  have depth : e.depth = s.depth + 1 := extended.depth
  have owned : e.owners.lookup made = some { model := 1 } := by
    rw [extended.owners]
    exact List.lookup_cons_self
  obtain ⟨w, filled, full, others, size, models, after, same⟩ :=
    fill_new (k := k) begun' (by omega) started.empty started.asked owned started.unlinked
  rw [← remembered] at filled
  have limit : ¬ (settingOf endless).settings.depthLimit ≤ s.depth := by
    change ¬ (200 : Int) ≤ s.depth
    omega
  have missing := unasked.missing (Nat.le_refl _) "L"
  have apart : ∀ entry ∈ s.cache.entries, entry.isFor "L" (.object source) = false ∨
      entry.complete = true :=
    fun entry member => .inl (LazyCache.not_isFor_of_missing missing member)
  have entries : w.cache.entries =
      s.cache.entries ++ [⟨"L", .object source, [("o", .object made)], false⟩] :=
    same.entries.trans started.entries
  have complete := LazyCache.isComplete_finish entries apart (by simp)
  have invoked : invokeLazy (evaluateWithin (settingOf endless) (k + 3)) (settingOf endless) endless
      onwardRule (.object source) s = _ :=
    invokeLazy_of_request begun limit rfl (request_miss missing created filled) complete
  refine ⟨_, evaluate_lazy rfl rfl onwardRule_known known invoked, full, ?_, ?_, ?_⟩
  · exact after.trans (congrArg (· ++ [left source made]) started.deferred)
  · exact ⟨_, rfl, LazyCache.finish_started entries apart (by simp)⟩
  · obtain ⟨link, linked, links⟩ := extended.link
    obtain ⟨members, targets⟩ := extended.growing
    exact {
      phase := same.phase.trans extended.phase
      depth := by
        change w.depth - 1 = s.depth
        rw [same.depth]
        exact Nat.sub_eq_of_eq_add depth
      owners := same.owners.trans extended.owners
      link := ⟨link, linked, (congrArg Trace.links same.trace).trans links⟩
      earlier := fun g earlier => (others g (Nat.ne_of_gt earlier)).trans (extended.earlier g earlier)
      size := size.trans extended.size
      growing := ⟨members, (congrArg (·[1]?) models).trans targets⟩ }

/-- A binding of an object waits to which the rule was not applied yet. -/
structure Ready (h : Handle) (s : Engine) : Prop where
  begun : s.phase ≠ .matching
  shallow : s.depth = 0
  growing : Growing s.store
  size : s.store.entities.size = h + 1
  filled : ∃ v, s.store.entities[h]? = some (.instance cls [("f", v), ("g", .boolean true)])
  owned : s.owners.lookup h = some { model := 1 }
  unasked : Unasked h s

/-- The turn makes one more such object. -/
theorem turn_onward {h : Handle} (ready : Ready h s) :
    ∃ u, resolveDeferred (evaluateWithin (settingOf endless) (k + 5)) (settingOf endless)
        (left source h) s = .value () u ∧
      u.deferred = s.deferred ++ [left h (h + 1)] ∧
      u.cache.entries.length = s.cache.entries.length + 1 ∧ Ready (h + 1) u := by
  obtain ⟨v, full⟩ := ready.filled
  have set : s.store.navigate (.object h) "g" = .ok (.boolean true) := navigate_single full rfl
  -- The object is marked by now, so the rule is asked for its application to the object itself.
  let before : Engine := { opened {} s with navigations := s.navigations + 1 }
  have looked : evaluateWithin (settingOf endless) (k + 4) (own source h) marked (opened {} s) =
      .value (.boolean true) before :=
    evaluate_feature rfl rfl set
  obtain ⟨u, applied, made, waiting, ⟨entry, asked, entries⟩, extended⟩ :
      ∃ u, evaluateWithin (settingOf endless) (k + 4) (own source h)
        (.call "L" [.variable "o" {}] {}) before = .value (.object (h + 1)) u ∧ _ :=
    new_application rfl ready.begun ready.shallow ready.growing ready.size (Nat.lt_succ_self h)
      ⟨ready.unasked.links, ready.unasked.entries⟩
  have evaluated : evaluateWithin (settingOf endless) (k + 5) (own source h) onward
      (opened {} s) = .value (.object (h + 1)) u :=
    evaluateWithin_eq_value (bind_eq_value.2 ⟨_, _, looked, applied⟩)
  obtain ⟨link, linked, links⟩ := extended.link
  have unasked : Unasked (h + 1) u :=
    ready.unasked.extend (Nat.lt_succ_self h) linked links asked entries
  have others : u.owners = (h + 1, { model := 1 }) :: s.owners := extended.owners
  -- What it made is stored, and is not a source object that a matched rule replaced.
  have owner : u.ownerOf? (.object h) = some { model := 1 } := by
    have other : (h == h + 1) = false := beq_eq_false_iff_ne.2 (Nat.ne_of_lt (Nat.lt_succ_self h))
    simp only [ownerOf?, others, List.lookup_cons, other]
    exact ready.owned
  have resolved : (if (settingOf endless).settings.implicitResolution then
      implicitTarget u.trace (.object (h + 1)) else .ok (.object (h + 1))) =
        .ok (.object (h + 1)) :=
    unasked.unlinked (Nat.le_refl _)
  have still : u.store.entities[h]? = some (.instance cls [("f", v), ("g", .boolean true)]) := by
    rw [extended.earlier h (Nat.lt_succ_self h)]
    exact full
  obtain ⟨store, accepted, changed, apart, size, models⟩ :
      ∃ store, u.store.set h "f" (.object (h + 1)) = .ok store ∧ _ := set_single still rfl
  have redone : applyBinding (evaluateWithin (settingOf endless) (k + 5)) (settingOf endless) "L"
      (.object h) ⟨"f", onward⟩ (own source h) false [] s = _ :=
    applyBinding_value evaluated owner resolved accepted
  rw [Bool.and_false] at redone
  refine ⟨_, bind_eq_value.2 ⟨(), _, redone, rfl⟩, ?_, ?_, ?_⟩
  · exact waiting
  · change u.cache.entries.length = _
    rw [entries, List.length_append]
    rfl
  · exact {
      begun := by
        change u.phase ≠ _
        rw [extended.phase]
        exact ready.begun
      shallow := extended.depth.trans ready.shallow
      growing := by
        obtain ⟨members, known⟩ := extended.growing
        exact ⟨members, (congrArg (·[1]?) models).trans known⟩
      size := size.trans extended.size
      filled := ⟨_, (apart (h + 1) (Nat.ne_of_lt (Nat.lt_succ_self h))).trans made⟩
      owned := by
        change u.owners.lookup (h + 1) = _
        rw [others]
        exact List.lookup_cons_self
      unasked := ⟨unasked.links, unasked.entries⟩ }

/-- The walk is at the last binding that waits, and that is such a one. -/
def Lasting (position : Nat) (s : Engine) : Prop :=
  ∃ source h, s.deferred[position]? = some (left source h) ∧ s.deferred.length = position + 1 ∧
    Ready h s

theorem renewing (k : Nat) :
    Renewing (evaluateWithin (settingOf endless) (k + 5)) (settingOf endless) Lasting where
  turn := by
    rintro position s ⟨source, h, waits, last, ready⟩
    obtain ⟨u, ended, added, begun, next⟩ :
        ∃ u, resolveDeferred (evaluateWithin (settingOf endless) (k + 5)) (settingOf endless)
          (left source h) s = .value () u ∧ _ := turn_onward ready
    refine ⟨_, u, waits, ended, by omega, h, h + 1, ?_, ?_, next⟩
    · rw [added, ← last, List.getElem?_concat_length]
    · rw [added, List.length_append, last]
      rfl

/-- What a state has to say about the walk it may begin. -/
def outlook (s : Engine) : Nat × Store × List (Handle × Provider) × List Value × List Value ×
    List DeferredBinding :=
  (s.depth, s.store, s.owners, s.trace.links.map (·.source), s.cache.entries.map (·.source),
    s.deferred)

def final? {α : Type} : Outcome Engine α → Option Engine
  | .value _ s => some s
  | _ => none

set_option maxRecDepth 4000 in
/-- The rule was applied to the source object, and what that made is an object to apply it to. -/
theorem outlook_endless (k : Nat) :
    (final? (prepareWalk (evaluateWithin (settingOf endless) (k + 8)) (settingOf endless) endless
      { store := objects })).map outlook = some (0,
        { entities := #[.instance cls [], .instance cls [("g", .object 2)],
            .instance cls [("f", .object 2), ("g", .boolean true)]]
          models := #[⟨"source", .ofClasses "M" [cls], [0]⟩,
            ⟨"target", .ofClasses "M" [cls], [1, 2]⟩] },
        [(2, { model := 1 }), (1, { model := 1 })], [.object 0, .object 0], [.object 0],
        [left 0 2]) := by
  cbv

theorem lasting_endless (k : Nat) : ∃ s,
    prepareWalk (evaluateWithin (settingOf endless) (k + 8)) (settingOf endless) endless
      { store := objects } = .value () s ∧ Lasting 0 (enterPhase .resolution s) := by
  have seen := outlook_endless k
  cases ended : prepareWalk (evaluateWithin (settingOf endless) (k + 8)) (settingOf endless) endless
      { store := objects } with
  | value _ s =>
    rw [ended] at seen
    simp only [final?, Option.map_some, Option.some.injEq, outlook, Prod.mk.injEq] at seen
    obtain ⟨depth, store, owners, linked, asked, waiting⟩ := seen
    refine ⟨s, rfl, 0, 2, ?_, ?_, ?_⟩
    · change s.deferred[0]? = _
      rw [waiting]
      rfl
    · change s.deferred.length = _
      rw [waiting]
      rfl
    · exact {
        begun := nofun
        shallow := depth
        growing := ⟨[1, 2], by change s.store.models[1]? = _; rw [store]; rfl⟩
        size := by change s.store.entities.size = _; rw [store]; rfl
        filled := ⟨.object 2, by change s.store.entities[2]? = _; rw [store]; rfl⟩
        owned := by change s.owners.lookup 2 = _; rw [owners]; rfl
        unasked := {
          links := fun link member => by
            have among : link.source ∈ s.trace.links.map (·.source) := List.mem_map_of_mem member
            exact ⟨0, by simpa [linked] using among, by decide⟩
          entries := fun entry member => by
            have among : entry.source ∈ s.cache.entries.map (·.source) := List.mem_map_of_mem member
            exact ⟨0, by simpa [asked] using among, by decide⟩ } }
  | failure fault s => simp [ended, final?] at seen
  | exhausted => simp [ended, final?] at seen

end

end Looping

/-- The nesting of rules has no part in it: every turn begins one more application, so the walk is never
at its end and no run ends. -/
theorem walk_endless :
    Looping.endless.module.helpers = [] ∧
      Engine.prepare Looping.endless {} .full = .ok (Looping.settingOf Looping.endless) ∧
      ∀ depth, 8 ≤ depth → ∃ s,
        Engine.prepareWalk (Engine.evaluateWithin (Looping.settingOf Looping.endless) depth)
          (Looping.settingOf Looping.endless) Looping.endless { store := Looping.objects } =
            .value () s ∧
        (∀ n, ∃ u, Engine.turns (Engine.evaluateWithin (Looping.settingOf Looping.endless) depth)
          (Looping.settingOf Looping.endless) n 0 (Engine.enterPhase .resolution s) = .value () u ∧
            u.deferred.length = n + 1) ∧
        ∀ walk, Engine.runWith
          (Engine.evaluateWithin (Looping.settingOf Looping.endless) depth) walk
          (Looping.settingOf Looping.endless) Looping.endless { store := Looping.objects } =
            .exhausted := by
  refine ⟨rfl, rfl, fun depth deep => ?_⟩
  obtain ⟨k, rfl⟩ : ∃ k, depth = k + 8 := ⟨depth - 8, by omega⟩
  obtain ⟨s, begun, lasting⟩ := Looping.lasting_endless k
  have renewing := Looping.renewing (k + 3)
  obtain ⟨here, -⟩ := Engine.prepareWalk_walking rfl begun
  refine ⟨s, begun, fun n => ?_, fun walk => ?_⟩
  · obtain ⟨u, gone, ⟨_, _, -, waiting, -⟩, -⟩ := renewing.goes_on n lasting
    exact ⟨u, gone, by omega⟩
  · exact (Engine.runWith_eq_exhausted here begun walk).2 (renewing.endless lasting walk)

end Metamorph
