import Metamorph.Proofs.Filling

/-! Models that list their objects in another order. Where no rule is called, and nothing is found out about
target objects, a transformation completes whatever that order is, or for none; it applies the same rules to
the same objects, and the target objects correspond. -/
namespace Metamorph

/-- The stores have the same objects, and models that list the same, each in an order of its own. -/
structure Store.Rearranged (store other : Store) : Prop where
  entities : other.entities = store.entities
  models : store.SameModels other
  members : ∀ n, (other.members n).Perm (store.members n)

theorem Store.Rearranged.symm {store other : Store} (rearranged : store.Rearranged other) :
    other.Rearranged store :=
  ⟨rearranged.entities.symm, rearranged.models.symm, fun n => (rearranged.members n).symm⟩

/-- There is everything that the models list and that the objects hold. -/
structure Store.Whole (store : Store) (made : Identity) : Prop where
  members : ∀ {n h}, h ∈ store.members n → h < store.entities.size
  closed : ∀ {h feature v}, store.readFeature (.object h) feature = .ok v →
    v.ClosedBelow made store.entities.size

theorem Store.Whole.rearranged {store other : Store} {made : Identity} (whole : store.Whole made)
    (rearranged : store.Rearranged other) : other.Whole made where
  members listed := by
    rw [rearranged.entities]
    exact whole.members ((rearranged.members _).mem_iff.1 listed)
  closed {h feature v} read := by
    have same : store.readFeature (.object h) feature = other.readFeature (.object h) feature :=
      Engine.readFeature_congr (by rw [rearranged.entities])
    rw [rearranged.entities]
    exact whole.closed (same.trans read)

namespace Engine
open Run
variable {setting : Setting} {T : Transformation} {base m : Identity} {core s t u a b c : Engine}
  {entries : List Entry} {w : World}

/-! The start. -/

/-- Nothing is done yet. -/
structure Pristine (base : Identity) (s : Engine) : Prop where
  phase : s.phase = .ready
  attributes : s.attributes = []
  made : s.made = base
  owners : s.owners = []
  trace : s.trace = {}
  created : s.created = []
  deferred : s.deferred = []

theorem pristine_setUp (store : Store) (log : List LogRecord) (base : Identity) :
    Pristine base { store, log, made := base } := ⟨rfl, rfl, rfl, rfl, rfl, rfl, rfl⟩

theorem Pristine.unowned (pristine : Pristine base s) {h : Handle} : s.ownerOf? (.object h) = none := by
  rw [ownerOf?, pristine.owners]
  rfl

theorem Pristine.untold (pristine : Pristine base s) {source v : Value} {output : String}
    {rule : Option String} : s.trace.resolve s.store source output rule ≠ .ok v := by
  have nothing : Trace.candidates {} source output rule = [] := rfl
  rw [pristine.trace, Trace.resolve, nothing]
  intro told
  cases text : s.store.cite source with
  | error fault =>
    rw [text] at told
    cases told
  | ok shown =>
    rw [text] at told
    cases told

theorem Pristine.beside (first : Pristine base core) (pristine : Pristine base s)
    (sound : ClosedStore base core) (same : s.store.entities = core.store.entities) (low : base ≤ m)
    (above : ∀ e ∈ entries, base ≤ e.lo) : Beside core entries m (.below base core.size) s where
  shows := {
    scene := {
      oneToOne := World.below_oneToOne
      object := by
        rintro h _ ⟨rfl, -⟩
        exact .inl ⟨rfl, first.unowned, pristine.unowned, by rw [same], sound first.unowned⟩
      resolve := fun told => absurd told first.untold }
    backdrop := ⟨rfl, rfl, fun _ => rfl, fun found => ⟨_, found⟩⟩
    held := rfl
    inside := fun corresponds => corresponds.2
    told := rfl
    toLagging := .start le_rfl (fun corresponds => Nat.lt_of_lt_of_le corresponds.2 low)
      (fun corresponds => by
        rw [pristine.made, ← corresponds.1]
        exact corresponds.2)
      (fun _ read => by
        rw [pristine.attributes] at read
        cases read)
      fun member corresponds less _ =>
        absurd corresponds.2 (Nat.not_lt_of_le (Nat.le_trans (above _ member) less)) }
  familiar known := by
    rw [pristine.attributes] at known
    cases known
  resolves told := absurd told pristine.untold

/-! What is listed. -/

theorem enumeration_objects (T : Transformation) (store : Store) :
    (enumeration T store T.module.sources.names).map (·.2) = T.sourceObjects store := by
  unfold Transformation.sourceObjects
  induction T.module.sources.names with
  | nil => rfl
  | cons name rest ih =>
    have split : enumeration T store (name :: rest) =
        enumeration T store [name] ++ enumeration T store rest := by
      simp [enumeration]
    rw [split, List.map_append, ih, List.filterMap_cons]
    cases known : T.sources.get? name with
    | none => simp [enumeration, known]
    | some provider => simp [enumeration, known, Function.comp_def]

theorem enumeration_inside {store : Store} (whole : store.Whole base) :
    ∀ item ∈ enumeration T store T.module.sources.names, item.2 < store.entities.size := by
  intro item listed
  have member : item.2 ∈ T.sourceObjects store := by
    rw [← enumeration_objects]
    exact List.mem_map_of_mem listed
  obtain ⟨provider, -, listed⟩ := List.mem_flatMap.1 member
  exact whole.members listed

theorem enumeration_rearranged {store other : Store} (rearranged : store.Rearranged other)
    (names : List String) : (enumeration T other names).Perm (enumeration T store names) := by
  refine .flatMap_left _ fun name _ => ?_
  cases T.sources.get? name with
  | none => exact .nil
  | some provider => exact (rearranged.members provider.model).map _

theorem once_rearranged {store other : Store} (rearranged : store.Rearranged other)
    (once : (T.sourceObjects store).Nodup) : (T.sourceObjects other).Nodup := by
  rw [← enumeration_objects] at once ⊢
  exact ((enumeration_rearranged rearranged _).map _).nodup_iff.2 once

/-! Matching. -/

theorem Deep.agrees {α : Type} {runs : Nat → Run Engine α} {x y : α} {n : Nat}
    (deep : Deep fun n => runs n s = .value x t)
    (further : ∀ {n k}, n ≤ k → Run.Below (runs n) (runs k)) (ended : runs n s = .value y u) :
    y = x ∧ u = t := by
  obtain ⟨enough, goes⟩ := deep
  have same := ((further (Nat.le_max_left n enough)).value ended).symm.trans
    (goes _ (Nat.le_max_right n enough))
  cases same
  exact ⟨rfl, rfl⟩

/-- After matching there is a schedule, and nothing was done but evaluations. -/
structure Arranged (schedule : Schedule) (s a : Engine) : Prop where
  schedule : a.schedule = some schedule
  phase : a.phase = s.phase
  store : a.store = s.store
  trace : a.trace = s.trace
  created : a.created = s.created
  owners : a.owners = s.owners
  deferred : a.deferred = s.deferred

theorem Quiet.arranged (quiet : Quiet s t) (schedule : Schedule) :
    Arranged schedule s { t with schedule := some schedule } := by
  obtain ⟨_, _, _, _, _, _, _, _, _, rfl⟩ := quiet
  exact ⟨rfl, rfl, rfl, rfl, rfl, rfl, rfl⟩

/-- The schedule when rules are picked for what the source models list. -/
def planFor (T : Transformation) (pick : String × Handle → Option MatchedRule) (store : Store) :
    Schedule :=
  planning pick {} (enumeration T store T.module.sources.names)

theorem planFor_pairs (pick : String × Handle → Option MatchedRule) (store : Store) :
    (planFor T pick store).applications.map pairOf =
      pairs pick (enumeration T store T.module.sources.names) := planning_pairs _ _ _

theorem planFor_rearranged {store other : Store} (pick : String × Handle → Option MatchedRule)
    (rearranged : store.Rearranged other) : ((planFor T pick other).applications.map pairOf).Perm
      ((planFor T pick store).applications.map pairOf) := by
  rw [planFor_pairs, planFor_pairs]
  exact (enumeration_rearranged rearranged _).filterMap _

/-- Sources are different objects that there were before. -/
structure Sourced (size : Nat) (apps : List Application) : Prop where
  apart : (apps.map (·.source.key)).Nodup
  given : ∀ a ∈ apps, ∃ h < size, a.source = .object h

theorem pairs_apart (pick : String × Handle → Option MatchedRule) {items : List (String × Handle)}
    (once : (items.map (·.2)).Nodup) : ((pairs pick items).map (·.2.key)).Nodup := by
  induction items with
  | nil => exact .nil
  | cons item rest ih =>
    obtain ⟨new, once⟩ := List.nodup_cons.1 once
    unfold pairs at ih ⊢
    rw [List.filterMap_cons]
    cases pick item with
    | none => exact ih once
    | some rule =>
      refine List.nodup_cons.2 ⟨fun member => ?_, ih once⟩
      obtain ⟨pair, listed, key⟩ := List.mem_map.1 member
      obtain ⟨item', other, picked⟩ := List.mem_filterMap.1 listed
      obtain ⟨rule', -, rfl⟩ := Option.map_eq_some_iff.1 picked
      have object : Value.object item'.2 = .object item.2 := Value.eq_of_key_object key
      have same : item'.2 = item.2 := by injection object
      exact new (List.mem_map.2 ⟨item', other, same⟩)

theorem planFor_sourced {store : Store} (pick : String × Handle → Option MatchedRule)
    (whole : store.Whole base) (once : (T.sourceObjects store).Nodup) :
    Sourced store.entities.size (planFor T pick store).applications where
  apart := by
    rw [← enumeration_objects] at once
    have apart := pairs_apart pick once
    rw [← planFor_pairs, List.map_map] at apart
    exact apart
  given a member := by
    have listed : pairOf a ∈ pairs pick (enumeration T store T.module.sources.names) :=
      planFor_pairs (T := T) pick store ▸ List.mem_map_of_mem member
    obtain ⟨item, other, picked⟩ := List.mem_filterMap.1 listed
    obtain ⟨rule, -, made⟩ := Option.map_eq_some_iff.1 picked
    exact ⟨item.2, enumeration_inside whole item other, (congrArg Prod.snd made).symm⟩

section
variable (basis : Basis setting base core entries m)
include basis

theorem Basis.matches_sources (beside : Beside core entries m w s)
    (listed : ∀ item ∈ enumeration T s.store T.module.sources.names, w.handles item.2 item.2) {n : Nat}
    (ended : matchSources (watchedWithin setting n) setting T s = .value () a) :
    Listing T T.module.sources.names ∧ ∀ item ∈ enumeration T s.store T.module.sources.names,
      ∃ rule, Chosen setting core entries m T.module item rule := by
  obtain ⟨schedule, u, built, -⟩ := bind_eq_value.1 ended
  obtain ⟨willing, chosen, -⟩ := basis.chosen_models beside rfl listed built
  exact ⟨willing, chosen⟩

theorem Basis.match_goes {pick : String × Handle → Option MatchedRule}
    (beside : Beside core entries m w s) (willing : Listing T T.module.sources.names)
    (listed : ∀ item ∈ enumeration T s.store T.module.sources.names, w.handles item.2 item.2)
    (chosen : ∀ item ∈ enumeration T s.store T.module.sources.names,
      Chosen setting core entries m T.module item (pick item)) :
    ∃ a w', Onward core entries m w w' s a ∧
      Arranged (planFor T pick s.store) s a ∧
      Deep fun n => matchSources (watchedWithin setting n) setting T s = .value () a := by
  obtain ⟨t, w', onward, goes⟩ := basis.chooses_models {} beside rfl willing listed chosen
  obtain ⟨n, ended⟩ := goes.exists
  have quiet : Quiet s t :=
    ((basis.innocent.watched_guards n T.module).matchModels _ _ _).value ended
  refine ⟨{ t with schedule := some (planFor T pick s.store) },
    w', ⟨onward.beside.still ⟨rfl, rfl, rfl, rfl, rfl⟩, onward.within, onward.handles⟩,
    quiet.arranged _, goes.imp fun n built => bind_eq_value.2 ⟨_, t, built, rfl⟩⟩

end

/-- An engine that has matched, beside a table from before that. -/
structure Prepared (T : Transformation) (base : Identity) (core : Engine) (entries : List Entry)
    (m : Identity) (pick : String × Handle → Option MatchedRule) (s a : Engine) (w : World) : Prop where
  beside : Beside core entries m w a
  within : (World.below base core.size).Within w
  handles : w.handles = (World.below base core.size).handles
  arranged : Arranged (planFor T pick s.store) (enterPhase .matching s) a

/-- Whatever order objects are listed in, the rules that are picked for them are those of the table. -/
theorem Basis.prepares {s' : Engine} {n : Nat} (basis : Basis setting base s entries m)
    (above : ∀ e ∈ entries, base ≤ e.lo) (first : Pristine base s) (second : Pristine base s')
    (rearranged : s.store.Rearranged s'.store) (whole : s.store.Whole base)
    (ended : matchSources (watchedWithin setting n) setting T (enterPhase .matching s) = .value () a) :
    ∃ pick w, Prepared T base s entries m pick s a w ∧
      ∃ a' w', Prepared T base s entries m pick s' a' w' ∧ Deep fun n =>
        matchSources (watchedWithin setting n) setting T (enterPhase .matching s') = .value () a' := by
  have start {s' : Engine} (pristine : Pristine base s') (same : s'.store.entities = s.store.entities) :
      Beside s entries m (.below base s.size) (enterPhase .matching s') :=
    (first.beside pristine basis.closed same basis.table.start_le above).still ⟨rfl, rfl, rfl, rfl, rfl⟩
  have listed : ∀ item ∈ enumeration T s.store T.module.sources.names,
      (World.below base s.size).handles item.2 item.2 :=
    fun item member => ⟨rfl, enumeration_inside whole item member⟩
  have beside := start first rfl
  obtain ⟨willing, chosen⟩ := basis.matches_sources beside listed ended
  choose! pick chosen using chosen
  obtain ⟨a₁, w, onward, arranged, goes⟩ := basis.match_goes beside willing listed chosen
  obtain ⟨-, rfl⟩ := goes.agrees (fun more =>
    (watchedWithin_mono setting more).heeds.matchSources.below) ended
  have order := enumeration_rearranged (T := T) rearranged T.module.sources.names
  obtain ⟨a', w', onward', arranged', goes'⟩ := basis.match_goes (start second rearranged.entities) willing
    (fun item member => listed item (order.mem_iff.1 member))
    (fun item member => chosen item (order.mem_iff.1 member))
  exact ⟨pick, w, ⟨onward.beside, onward.within, onward.handles, arranged⟩, a', w',
    ⟨onward'.beside, onward'.within, onward'.handles, arranged'⟩, goes'⟩

/-! Creation. -/

/-- Creation is about to start for the applications, and nothing was done but matching. -/
structure Poised (s : Engine) (apps : List Application) (x : Engine) : Prop where
  store : x.store = s.store
  scheduled : scheduled x = apps
  owners : x.owners = []
  trace : x.trace = {}
  created : x.created = []
  deferred : x.deferred = []
  phase : x.phase = .creation

theorem Arranged.poised {schedule : Schedule} (arranged : Arranged schedule (enterPhase .matching s) a)
    (pristine : Pristine base s) : Poised s schedule.applications (creating setting a) := by
  have still : Still a (closing setting .matching a) := closing_still .matching
  have settled : Settled a (closing setting .matching a) := closing_settled .matching
  exact {
    store := still.store.trans arranged.store
    scheduled := by
      rw [scheduled_creating, scheduled, arranged.schedule]
      rfl
    owners := (still.owners.trans arranged.owners).trans pristine.owners
    trace := (still.trace.trans arranged.trace).trans pristine.trace
    created := (settled.created.trans arranged.created).trans pristine.created
    deferred := (settled.deferred.trans arranged.deferred).trans pristine.deferred
    phase := rfl }

namespace Poised
variable {s' x x' : Engine} {apps apps' : List Application}

theorem size (poised : Poised s apps x) : x.size = s.size := by
  unfold Engine.size
  rw [poised.store]

theorem unowned (poised : Poised s apps x) {h : Handle} : x.ownerOf? (.object h) = none := by
  rw [ownerOf?, poised.owners]
  rfl

/-- What is created for the applications is the foundation of what follows. -/
theorem foundation (poised : Poised s apps x) (sourced : Sourced s.size apps)
    (ended : createAll T apps x = .value () b) :
    Foundation T x b ∧ (creations b).map (·.1) = apps := by
  obtain ⟨more, rfl, founded⟩ := (Founded.start x poised.trace poised.created).createAll ended
  have scheduled : Engine.scheduled b = more.map (·.1) := by
    rw [← poised.scheduled, Engine.scheduled, founded.enlarged.schedule]
    rfl
  have all : creations b = more := by
    rw [creations, scheduled, founded.created, List.nil_append]
    exact (List.zip_of_prod rfl rfl).symm
  rw [List.nil_append] at founded
  have apart := sourced.apart
  rw [List.map_map] at apart
  refine ⟨⟨by rw [all]; exact founded, by rw [all, scheduled], by rw [all]; exact apart, ?_,
    poised.unowned⟩, by rw [all]⟩
  intro c member
  rw [poised.size]
  exact sourced.given _ (List.mem_map_of_mem (all ▸ member))

/-- What was created for applications in one order can be created for them in another one. -/
theorem creates (poised : Poised s apps x) (foundation : Foundation T x' t)
    (models : x'.store.SameModels x.store) (sourced : Sourced s.size apps)
    (listed : ∀ a ∈ apps, ∃ c ∈ creations t, pairOf c.1 = pairOf a) :
    ∃ b, createAll T apps x = .value () b := by
  refine (Founded.start x poised.trace poised.created).createAll_goes (fun a member out declared => ?_)
    (by simpa using sourced.apart)
  obtain ⟨c, member, same⟩ := listed a member
  have rules : c.1.rule = a.rule := congrArg Prod.fst same
  rw [← rules] at declared
  obtain ⟨_, -, -, _, provider, cls, -, -, supplies, -⟩ :=
    forall₂_left (foundation.founded.supplied c member) declared
  exact ⟨provider, cls, supplies.congr models⟩

end Poised

theorem Foundation.itself {x : Engine} (foundation : Foundation T x b) : Paired T x b x b :=
  ⟨foundation, foundation, rfl, .refl _, fun _ => rfl, .refl _⟩

namespace Prepared
variable {pick : String × Handle → Option MatchedRule} {s' a' : Engine} {w' : World}

/-- What was created after matching the objects in one order can be created after matching them in another
one, and it is paired with that. -/
theorem creates (prepared : Prepared T base core entries m pick s a w)
    (prepared' : Prepared T base core entries m pick s' a' w') (first : Pristine base s)
    (second : Pristine base s') (rearranged : s.store.Rearranged s'.store) (whole : s.store.Whole base)
    (once : (T.sourceObjects s.store).Nodup)
    (ended : createAll T (scheduled a) (creating setting a) = .value () b) :
    ∃ b', createAll T (scheduled a') (creating setting a') = .value () b' ∧
      Foundation T (creating setting a) b ∧
      Paired T (creating setting a) b (creating setting a') b' := by
  have poised : Poised s _ (creating setting a) := prepared.arranged.poised first
  have poised' : Poised s' _ (creating setting a') := prepared'.arranged.poised second
  have same {a : Engine} : scheduled (creating setting a) = scheduled a := scheduled_creating
  rw [← same, poised.scheduled] at ended
  rw [← same, poised'.scheduled]
  obtain ⟨foundation, apps⟩ := poised.foundation (planFor_sourced pick whole once) ended
  have sourced := planFor_sourced pick (whole.rearranged rearranged) (once_rearranged rearranged once)
  have order := planFor_rearranged (T := T) pick rearranged
  rw [← apps, List.map_map] at order
  have models : (creating setting a).store.SameModels (creating setting a').store := by
    rw [poised.store, poised'.store]
    exact rearranged.models
  obtain ⟨b', ended'⟩ := poised'.creates foundation models sourced fun app member => by
    obtain ⟨c, listed, same⟩ := List.mem_map.1 (order.mem_iff.1 (List.mem_map_of_mem member))
    exact ⟨c, listed, same⟩
  obtain ⟨foundation', apps'⟩ := poised'.foundation sourced ended'
  rw [← apps', List.map_map] at order
  refine ⟨b', ended', foundation, ⟨foundation, foundation', ?_, models, fun _ => ?_, order⟩⟩
  · rw [poised.size, poised'.size, Engine.size, Engine.size, rearranged.entities]
  · rw [poised.store, poised'.store, rearranged.entities]

end Prepared

end Engine
end Metamorph
