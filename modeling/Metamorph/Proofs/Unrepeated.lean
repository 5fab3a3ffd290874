import Metamorph.Proofs.PhaseUpholding
import Metamorph.Proofs.Resolution

/-! Sets and ordered sets have no two equal items. Whoever hands in none that do gets none: not from an
expression, not in a variable on the way, and not in a feature that a transformation assigns. -/
namespace Metamorph

/-- Any fault is allowed. -/
def Norm.unrepeated : Norm where
  asked := List.Pairwise fun v w => v.same w = false
  allowed _ := True
  sublist apart part := apart.sublist part
  perm apart same := (same.pairwise_iff fun {v w} => (Value.same_comm v w ▸ ·)).1 apart
  front apart other := List.pairwise_cons.2 ⟨fun u member => by
    rw [Value.same_eq_key]
    exact beq_false_of_ne (other u member).symm, apart⟩
  distinct items := (Value.unseen_pairwise ∅ items).1
  ordinary _ := trivial
  located _ _ := trivial

/-- No set and no ordered set in the value has two equal items, at whatever depth. -/
abbrev Value.Unrepeated (v : Value) : Prop := v.Meets .unrepeated

theorem Value.unrepeated_collection {kind : CollectionKind} {items : List Value} :
    (collection kind items).Unrepeated ↔
      (kind.unique = true → items.Pairwise fun v w => v.same w = false) ∧
        ∀ v ∈ items, v.Unrepeated := by
  rw [Unrepeated, Meets, allMeet_iff]
  rfl

abbrev Environment.Unrepeated (env : Environment) : Prop := env.Meets .unrepeated

abbrev Store.Unrepeated (store : Store) : Prop := store.Meets .unrepeated

abbrev Engine.Unrepeated (s : Engine) : Prop := s.Meets .unrepeated

/-- Native operations answer without repeats if their arguments have none. -/
def HelperTable.Unrepeated (helpers : HelperTable) : Prop :=
  ∀ name native, helpers.natives.get? name = some native →
    ∀ (store : Store) args, (∀ v ∈ args, v.Unrepeated) → ∀ v,
      native.run store.cite args = .ok v → v.Unrepeated

/-- Evaluation is broken off only where something repeated is bound, came out or is in the state. -/
structure Interruption.AtRepeats (watch : Interruption) : Prop where
  before : ∀ env e s, env.Unrepeated → s.Unrepeated → watch.before env e s = none
  after : ∀ env e v s, env.Unrepeated → v.Unrepeated → s.Unrepeated → watch.after env e v s = none

namespace Engine
variable {setting : Setting}

/-- Nothing is asked of the applications of rules. -/
def Bookkeeping.lenient {norm : Norm} (allowed : ∀ fault, norm.allowed fault) :
    Bookkeeping setting norm where
  holds _ := True
  lists _ _ := True
  enters _ _ := trivial
  plans _ _ _ _ _ _ := trivial
  creates _ _ _ _ := trivial
  rejects _ _ _ _ := allowed _
  begins _ _ _ _ := trivial
  refuses _ _ _ _ := allowed _

def Standard.unrepeated (natives : setting.helpers.Unrepeated) : Standard setting where
  norm := .unrepeated
  books := .lenient fun _ => trivial
  natives {name native} known store args own := by
    cases answered : native.run store.cite args with
    | ok v => exact .ok (natives name native known store args own v answered)
    | error fault => exact .refused trivial
  models _ _ _ _ _ := trivial

theorem Standard.state_unrepeated (natives : setting.helpers.Unrepeated) {s : Engine} :
    (Standard.unrepeated natives).State s ↔ s.Unrepeated :=
  ⟨fun state => state.meets, fun meets => ⟨meets, trivial⟩⟩

theorem Standard.unseen_unrepeated (natives : setting.helpers.Unrepeated) {watch : Interruption}
    (atRepeats : watch.AtRepeats) : Unseen (Standard.unrepeated natives) .never watch where
  before bound state := ⟨atRepeats.before _ _ _ bound state.meets, fun _ _ => trivial⟩
  after bound own state := ⟨atRepeats.after _ _ _ _ bound own state.meets, fun _ _ => trivial⟩

theorem Standard.any_unrepeated (natives : setting.helpers.Unrepeated) (stop : Interruption) :
    Unseen (Standard.unrepeated natives) stop stop where
  before _ _ := ⟨rfl, fun _ _ => trivial⟩
  after _ _ _ := ⟨rfl, fun _ _ => trivial⟩

theorem unrepeated_setUp {store : Store} {log : List LogRecord} (own : store.Unrepeated) :
    Engine.Unrepeated { store, log } where
  store := own
  owners := List.forall_mem_nil _
  attributes := List.forall_mem_nil _
  trace := List.forall_mem_nil _
  cache := List.forall_mem_nil _
  scheduled := List.forall_mem_nil _
  created := List.forall_mem_nil _
  deferred := List.forall_mem_nil _
  frames := List.forall_mem_nil _
  told := .nil

end Engine

open Engine in
/-- What an evaluation, a run or a later call of a called rule comes to has no repeats if nothing that
it was given has: variables, models, answers of native operations, arguments. Watching for repeats in
variables, results and states on the way makes no difference. -/
theorem unique_collections_unrepeated {setting : Setting} (natives : setting.helpers.Unrepeated) :
    (∀ stop depth env e s, env.Unrepeated → s.Unrepeated →
      (∀ v u, evaluateUntil stop setting depth env e s = .value v u → v.Unrepeated) ∧
      ∀ u, (evaluateUntil stop setting depth env e s).state? = some u → u.Unrepeated) ∧
    (∀ t store log, setting.transformation = some t → store.Unrepeated →
      ∀ u, ReachesWith Value.Unrepeated setting t store log u →
        u.Unrepeated ∧
        (∀ e ∈ evaluations u.history, ∀ v, e.stored = some v → v.Unrepeated) ∧
        ∀ object feature v, u.store.readFeature object feature = .ok v → v.Unrepeated) ∧
    ∀ watch : Interruption, watch.AtRepeats → ∀ depth,
      (∀ env e s, env.Unrepeated → s.Unrepeated →
        evaluateUntil watch setting depth env e s = evaluateWithin setting depth env e s) ∧
      ∀ t, setting.transformation = some t →
        (∀ bound store log, store.Unrepeated →
          runWith (evaluateUntil watch setting depth) bound setting t { store, log } =
            runWith (evaluateWithin setting depth) bound setting t { store, log }) ∧
        ∀ name args s, (∀ v ∈ args, v.Unrepeated) → s.Unrepeated →
          callRuleWith (evaluateUntil watch setting depth) setting t name args s =
            callRuleWith (evaluateWithin setting depth) setting t name args s := by
  let std := Standard.unrepeated natives
  have state {s : Engine} (meets : s.Unrepeated) : std.State s :=
    (Standard.state_unrepeated natives).2 meets
  refine ⟨?_, ?_, ?_⟩
  · intro stop depth env e s bound meets
    have evaluated := (Standard.evaluateUntil_agrees (Standard.any_unrepeated natives stop) depth
      (e := e) bound s (state meets)).admits
    exact ⟨fun v u ended => (evaluated.ended ended).1, fun u left => (evaluated.left left).meets⟩
  · intro t store log given own u reaches
    have kept : std.State u :=
      ReachesWith.state given (fun _ => trivial) trivial (state (unrepeated_setUp own)) reaches
    refine ⟨kept.meets, kept.meets.told, fun object feature v read => ?_⟩
    have reading : Norm.unrepeated.Yields (u.store.readFeature object feature) :=
      kept.meets.store.readFeature
    rw [read] at reading
    cases reading with
    | ok holds => exact holds
  · intro watch atRepeats depth
    have agrees := Standard.evaluateUntil_agrees (Standard.unseen_unrepeated natives atRepeats) depth
    rw [evaluateUntil_never] at agrees
    refine ⟨fun env e s bound meets => (agrees bound s (state meets)).same, fun t given => ⟨?_, ?_⟩⟩
    · intro bound store log own
      have guarded := evaluateUntil_guarding .never setting depth
      rw [evaluateUntil_never] at guarded
      exact (agrees.runWith_at bound given guarded trivial (state (unrepeated_setUp own))).same
    · intro name args s each meets
      exact (agrees.callRuleWith given name each s (state meets)).same

namespace Looping
variable {norm : Norm}

theorem cls_meets : cls.Meets norm := by
  intro name f declared
  rw [cls, Metaclass.feature?, Metaclass.inherited?, Option.or_none] at declared
  have listed := List.mem_of_find?_eq_some declared
  simp only [List.mem_reverse, List.mem_cons, List.not_mem_nil, or_false] at listed
  obtain rfl | rfl := listed <;> trivial

theorem objects_meet : objects.Meets norm where
  entity {h entity} known := by
    obtain rfl := Array.mem_singleton.1 (Array.mem_of_getElem? known)
    exact ⟨cls_meets, List.forall_mem_nil _⟩
  model {i m} known name found declared := by
    have classes : m.metamodel = .ofClasses "M" [cls] := by
      have listed := Array.mem_of_getElem? known
      simp only [objects, List.mem_toArray, List.mem_cons, List.not_mem_nil, or_false] at listed
      obtain rfl | rfl := listed <;> rfl
    rw [classes] at declared
    obtain rfl : cls = found := by
      have entry := Named.mem_of_get? declared
      exact (congrArg Prod.snd (List.mem_singleton.1 entry)).symm
    exact cls_meets

/-- A native operation hands back what it is given. -/
def borrowing : Setting :=
  { transformation := some direct, helpers := { natives := [("first", .first)] } }

theorem borrowing_unrepeated : borrowing.helpers.Unrepeated := by
  intro name native known store args own v answered
  obtain rfl : native = .first :=
    congrArg Prod.snd (List.mem_singleton.1 (Named.mem_of_get? known))
  unfold Native.first at answered
  cases args with
  | nil => cases answered
  | cons w rest =>
    cases answered
    exact own _ List.mem_cons_self

def pair (first second : Int) : Value := .collection .orderedSet [.integer first, .integer second]

/-- A pair is handed back, and its second item is put in front. -/
def reordered : Expr :=
  .arrow (.call "first" [.variable "x" {}] {}) (.combination .prepend) none
    (some (.literal (.integer 2) {})) {}

end Looping

theorem unique_collections_unrepeated_reordered :
    (∃ u, Engine.evaluateUntil .never Looping.borrowing 5 (.ofRoot [("x", Looping.pair 1 2)])
        Looping.reordered {} = .value (Looping.pair 2 1) u ∧ (Looping.pair 2 1).Unrepeated) ∧
      ∃ u, Engine.ReachesWith Value.Unrepeated Looping.borrowing Looping.direct Looping.objects [] u ∧
        u.phase = .complete ∧ u.Unrepeated := by
  obtain ⟨evaluations, states, -⟩ := unique_collections_unrepeated Looping.borrowing_unrepeated
  constructor
  · have bound : (Environment.ofRoot [("x", Looping.pair 1 2)]).Unrepeated := by
      refine .ofRoot (List.forall_mem_singleton.2 (Value.unrepeated_collection.2 ⟨fun _ => ?_, ?_⟩))
      · decide
      · simp
    have ended : Engine.evaluateUntil .never Looping.borrowing 5 (.ofRoot [("x", Looping.pair 1 2)])
        Looping.reordered {} = .value (Looping.pair 2 1) _ := rfl
    have begun : Engine.Unrepeated {} := Engine.unrepeated_setUp ⟨by simp, by simp⟩
    exact ⟨_, ended, (evaluations _ _ _ _ _ bound begun).1 _ _ ended⟩
  · have passed : Looping.passes (fun u => decide (u.phase = .complete))
        (Engine.run Looping.borrowing Looping.direct { store := Looping.objects }) = true := by
      decide +kernel
    obtain ⟨_, u, ended, complete⟩ := Looping.of_passes passed
    have reaches : Engine.ReachesWith Value.Unrepeated Looping.borrowing Looping.direct
        Looping.objects [] u := by
      refine @Engine.ReachesWith.ran _ _ _ _ _ .never Engine.nestingBound Engine.nestingBound u ?_
      rw [Engine.evaluateUntil_never]
      exact Outcome.state?_value ended
    exact ⟨u, reaches, of_decide_eq_true complete,
      (states _ _ _ rfl Looping.objects_meet u reaches).1⟩

end Metamorph
