import Metamorph.Proofs.Discretion
import Metamorph.Proofs.Interruption
import Metamorph.Proofs.SafeEvaluation

/-! How evaluation fails. What a native operation or the reading of an object raises ends the evaluation
that comes to it: a failure of the host as one of the collaborator that was asked, an error of the engine
as it is but for its place. In the language without Reals nothing else ends it but other errors of the
engine. -/
namespace Metamorph

/-- The fault with another place, if it has one. -/
def Fault.placed (span : Span) : Fault → Fault
  | .diagnosed d => .diagnosed { d with span }
  | other => other

/-- The second fault is the first one but for its place. -/
def Fault.Elsewhere (fault other : Fault) : Prop := ∃ span, other = fault.placed span

namespace Fault.Elsewhere
variable {fault other : Fault}

theorem refl (fault : Fault) : fault.Elsewhere fault := by
  cases fault with
  | diagnosed d => exact ⟨d.span, rfl⟩
  | _ => exact ⟨.unknown, rfl⟩

theorem locate (span : Span) (elsewhere : fault.Elsewhere other) :
    fault.Elsewhere (other.locate span) := by
  obtain ⟨place, rfl⟩ := elsewhere
  cases fault with
  | diagnosed d =>
    simp only [placed, Fault.locate, Diagnostic.locate]
    split
    · exact ⟨span, rfl⟩
    · exact ⟨place, rfl⟩
  | _ => exact ⟨place, rfl⟩

end Fault.Elsewhere

namespace Engine
open Run
variable {setting : Setting} {self : Evaluator} {env : Environment} {e : Expr} {s u : Engine}
  {target : String} {fault : Fault}

/-- Neither a helper nor a rule of the module has the name. -/
structure BeyondModule (setting : Setting) (name : String) : Prop where
  helper : setting.helpers.module.get? name = none
  lazy : ∀ {t}, setting.transformation = some t → t.module.lazyRule? name = none
  called : ∀ {t}, setting.transformation = some t → t.module.calledRule? name = none
  lookup : setting.transformation.isSome = true → name ≠ "resolveTemp"

/-- No helper has the name for the value, and no operation that the value has of itself. -/
structure BeyondValue (setting : Setting) (v : Value) (name : String) (args : List Value)
    (s : Engine) : Prop where
  module : ∀ title, v ≠ .thisModule title
  collection : ∀ kind items op, v = .collection kind items →
    CollectionOperation.named? name ≠ some op
  helper : contextHelper? setting v name none s = .value none s
  universal : Universal.named? name = none
  own : (ownOperation? setting v name args).isNone = true
  native : setting.helpers.natives.has name = true

/-- The value is one whose features are read from outside. -/
structure Foreign (v : Value) : Prop where
  own : v.builtinType? = none
  module : ∀ title, v ≠ .thisModule title

/-- Evaluating the node, given its parts, asks a collaborator for something, and that raises a fault. -/
inductive Raises (setting : Setting) (self : Evaluator) :
    Environment → Expr → Engine → String → Fault → Prop
  | call {env name args span s given u fault}
      (evaluated : evaluateAll self env args s = .value given u)
      (beyond : BeyondModule setting name)
      (raised : nativeAnswer setting u.store name given = .error fault) :
      Raises setting self env (.call name args span) s name fault
  | onModule {env receiver title name args span s u given w fault}
      (received : self env receiver s = .value (.thisModule title) u)
      (evaluated : evaluateAll self env args u = .value given w)
      (beyond : BeyondModule setting name)
      (raised : nativeAnswer setting w.store name given = .error fault) :
      Raises setting self env (.method receiver name args span) s name fault
  | onValue {env receiver v name args span s u given w fault}
      (received : self env receiver s = .value v u)
      (evaluated : evaluateAll self env args u = .value given w)
      (beyond : BeyondValue setting v name given w)
      (raised : nativeAnswer setting w.store name (v :: given) = .error fault) :
      Raises setting self env (.method receiver name args span) s name fault
  | reading {env source v feature span s u fault}
      (received : self env source s = .value v u) (foreign : Foreign v)
      (plain : contextHelper? setting v feature (some true) u = .value none u)
      (raised : u.store.navigate v feature = .error fault) :
      Raises setting self env (.navigation source feature span) s feature fault
  | probing {env source v feature helper span s u fault}
      (received : self env source s = .value v u) (foreign : Foreign v)
      (full : setting.navigator = .full)
      (hidden : contextHelper? setting v feature (some true) u = .value (some helper) u)
      (raised : u.store.hasFeature v feature = .error fault) :
      Raises setting self env (.navigation source feature span) s feature fault

theorem collaborate_failure {α : Type} {answer : Result α} (raised : answer = .error fault) :
    collaborate target answer s = .failure (fault.ofCollaborator target) s := by
  rw [raised]
  rfl

theorem callNative_failure {name : String} {args : List Value}
    (raised : nativeAnswer setting s.store name args = .error fault) :
    ∃ u, callNative setting name args s = .failure (fault.ofCollaborator name) u := by
  let asking := noteHelper name { s with helperInvocations := s.helperInvocations + 1 }
  have failed : collaborate name (nativeAnswer setting asking.store name args) asking = _ :=
    collaborate_failure raised
  exact ⟨asking, failed⟩

theorem navigate_failure {v : Value} {feature : String}
    (raised : s.store.navigate v feature = .error fault) :
    ∃ u, navigate v feature s = .failure (fault.ofCollaborator feature) u := by
  let asking := { s with navigations := s.navigations + 1 }
  have failed : collaborate feature (asking.store.navigate v feature) asking = _ :=
    collaborate_failure raised
  exact ⟨asking, failed⟩

theorem hasFeature_failure {v : Value} {feature : String} (full : setting.navigator = .full)
    (raised : s.store.hasFeature v feature = .error fault) :
    ∃ u, hasFeature setting v feature s = .failure (fault.ofCollaborator feature) u := by
  refine ⟨s, ?_⟩
  unfold hasFeature
  rw [full]
  exact collaborate_failure raised

theorem BeyondModule.callModule {name : String} (beyond : BeyondModule setting name)
    (args : List Value) : callModule self setting name args = callNative setting name args := by
  unfold Engine.callModule
  rw [beyond.helper]
  cases given : setting.transformation with
  | none => rfl
  | some t =>
    have lookup := beyond.lookup (by rw [given]; rfl)
    simp only [Option.bind_some, ruleCall?, beyond.lazy given, beyond.called given, lookup, if_false]

theorem BeyondValue.method {v : Value} {name : String} {args : List Expr} {given : List Value}
    (beyond : BeyondValue setting v name given u)
    (evaluated : evaluateAll self env args s = .value given u) :
    method self setting env v name args s = callNative setting name (v :: given) u := by
  have called : callOn self setting v name given u = callNative setting name (v :: given) u := by
    unfold callOn
    rw [bind_of_value beyond.helper]
    simp only [beyond.universal, Option.isNone_iff_eq_none.1 beyond.own, beyond.native, if_true]
  rw [method_on beyond.module beyond.collection, bind_of_value evaluated]
  exact called

theorem Foreign.navigation {v : Value} (foreign : Foreign v) (feature : String) :
    navigation self setting v feature =
      (contextHelper? setting v feature (some true) >>= fun found =>
        found.elim (navigate v feature) fun helper =>
          hasFeature setting v feature >>= fun has =>
            if has then navigate v feature else invokeHelper self setting helper v []) := by
  unfold Engine.navigation
  split
  · cases foreign.own
  · exact (foreign.module _ rfl).elim
  · cases foreign.own
  · simp only [foreign.own, Option.isNone_none, if_true, Bool.true_and]
    refine congrArg (_ >>= ·) (funext fun found => ?_)
    cases found <;> rfl

theorem Raises.step (raises : Raises setting self env e s target fault) :
    ∃ u, step setting self env e s = .failure (fault.ofCollaborator target) u := by
  cases raises with
  | call evaluated beyond raised =>
    obtain ⟨w, failed⟩ := callNative_failure raised
    refine ⟨w, ?_⟩
    change (evaluateAll self env _ >>= callModule self setting _) s = _
    rw [bind_of_value evaluated, beyond.callModule]
    exact failed
  | onModule received evaluated beyond raised =>
    obtain ⟨w, failed⟩ := callNative_failure raised
    refine ⟨w, ?_⟩
    change (self env _ >>= fun v => method self setting env v _ _) s = _
    rw [bind_of_value received]
    change (evaluateAll self env _ >>= callModule self setting _) _ = _
    rw [bind_of_value evaluated, beyond.callModule]
    exact failed
  | onValue received evaluated beyond raised =>
    obtain ⟨w, failed⟩ := callNative_failure raised
    refine ⟨w, ?_⟩
    change (self env _ >>= fun v => method self setting env v _ _) s = _
    rw [bind_of_value received, beyond.method evaluated]
    exact failed
  | reading received foreign plain raised =>
    obtain ⟨w, failed⟩ := navigate_failure raised
    refine ⟨w, ?_⟩
    change (self env _ >>= fun v => navigation self setting v target) s = _
    rw [bind_of_value received, foreign.navigation, bind_of_value plain]
    exact failed
  | probing received foreign full hidden raised =>
    obtain ⟨w, failed⟩ := hasFeature_failure full raised
    refine ⟨w, ?_⟩
    change (self env _ >>= fun v => navigation self setting v target) s = _
    rw [bind_of_value received, foreign.navigation, bind_of_value hidden]
    exact bind_of_failure failed

theorem Raises.stops {d : Nat}
    (raises : Raises setting (evaluateWithin setting d) env e s target fault) (depth : Nat) :
    (evaluateWithin setting depth env e s).Stops (fault.ofCollaborator target).Elsewhere := by
  obtain ⟨u, failed⟩ := raises.step
  have ended : evaluateWithin setting (d + 1) env e s =
      .failure ((fault.ofCollaborator target).locate e.span) u := by
    simp only [evaluateWithin, mapFault, failed]
  have arrives : (fault.ofCollaborator target).Elsewhere
      ((fault.ofCollaborator target).locate e.span) :=
    (Fault.Elsewhere.refl _).locate e.span
  -- Going less deep, evaluation is cut off or ends the same way; going deeper, it ends the same way.
  rcases Nat.le_total depth (d + 1) with less | more
  · cases outcome : evaluateWithin setting depth env e s with
    | exhausted => trivial
    | value a w =>
      have same := (evaluateWithin_approximates setting less env e).value outcome
      rw [ended] at same
      cases same
    | failure other w =>
      have same := (evaluateWithin_approximates setting less env e).failure outcome
      rw [ended] at same
      cases same
      exact arrives
  · rw [(evaluateWithin_approximates setting more env e).failure ended]
    exact arrives

theorem evaluateUntil_unbroken {before : Environment → Expr → Engine → Option Fault}
    (unbroken : before env e s = none) (bound : Nat) :
    evaluateUntil ⟨before, fun _ _ _ _ => none⟩ setting (bound + 1) env e s =
      mapFault (Fault.locate e.span)
        (step setting (evaluateUntil ⟨before, fun _ _ _ _ => none⟩ setting bound) env e) s := by
  have passed : breakOff (before env e) s = .value () s := by
    simp [breakOff, state_bind, unbroken]
  have ran : evaluateUntil ⟨before, fun _ _ _ _ => none⟩ setting (bound + 1) env e s = _ :=
    bind_of_value passed
  rw [ran]
  exact congrFun (bind_pure (mapFault (Fault.locate e.span) _)) s

/-- Broken off only where it would stop anyhow, evaluation is the same unless it stops. -/
theorem evaluateWithin_heeds {halts : Fault → Prop}
    (closed : ∀ span fault, halts fault → halts (fault.locate span))
    {before : Environment → Expr → Engine → Option Fault}
    (stops : ∀ env e s fault, before env e s = some fault →
      ∀ depth, (evaluateWithin setting depth env e s).Stops halts) (bound : Nat) :
    Heeds halts (evaluateWithin setting bound)
      (evaluateUntil ⟨before, fun _ _ _ _ => none⟩ setting bound) := by
  induction bound with
  | zero => exact fun _ _ => .cutOff _
  | succ bound ih =>
    intro env e s
    -- A node where it is broken off stops at any depth; elsewhere both take the same step.
    cases broken : before env e s with
    | some fault => exact .inl (stops env e s fault broken _)
    | none =>
      rw [evaluateUntil_unbroken broken]
      exact Unless.mapFault (closed e.span) (ih.step env e) s

/-- Evaluation comes to one of the places: to break it off there would make a difference. -/
def ComesTo (setting : Setting) (bound : Nat) (places : Environment → Expr → Engine → Prop)
    (env : Environment) (e : Expr) (s : Engine) : Prop :=
  ∃ before : Environment → Expr → Engine → Option Fault,
    (∀ env e s fault, before env e s = some fault → places env e s) ∧
      evaluateUntil ⟨before, fun _ _ _ _ => none⟩ setting bound env e s ≠
        evaluateWithin setting bound env e s

/-- Evaluation that comes to a collaborator which raises a fault ends with it, if it ends. -/
theorem ComesTo.arrives {bound : Nat}
    (comes : ComesTo setting bound
      (fun env e s => ∃ d, Raises setting (evaluateWithin setting d) env e s target fault) env e s)
    (enough : evaluateWithin setting bound env e s ≠ .exhausted) :
    ∃ span u, evaluateWithin setting bound env e s =
      .failure ((fault.ofCollaborator target).placed span) u := by
  obtain ⟨before, places, differs⟩ := comes
  have heeds : Heeds (fault.ofCollaborator target).Elsewhere (evaluateWithin setting bound)
      (evaluateUntil ⟨before, fun _ _ _ _ => none⟩ setting bound) := by
    refine evaluateWithin_heeds (fun span _ elsewhere => elsewhere.locate span) ?_ bound
    intro env e s other broken
    obtain ⟨d, raises⟩ := places env e s other broken
    exact raises.stops
  have stops := (heeds env e s).resolve_right differs
  cases outcome : evaluateWithin setting bound env e s with
  | exhausted => exact (enough outcome).elim
  | value a u => rw [outcome] at stops; exact stops.elim
  | failure other u =>
    rw [outcome] at stops
    obtain ⟨span, rfl⟩ := stops
    exact ⟨span, u, rfl⟩

end Engine

namespace Exploding

/-- A helper that calls a native operation which fails. -/
def risky : Helper where
  name := "risky"
  body := .call "explode" [] {}

def setting : Setting where
  helpers := { module := [("risky", risky)], natives := [("explode", .explode)] }

/-- One more than what the helper gives. -/
def sum : Expr := .binary .add (.literal (.integer 1) {}) (.call "risky" [] {}) {}

theorem setting_realFree : setting.RealFree where
  natives known := by
    obtain ⟨-, rfl⟩ := Prod.mk.injEq .. ▸ List.mem_singleton.1 (Named.mem_of_get? known)
    exact fun _ _ _ => .error rfl
  helpers known := by
    rcases known with ⟨name, known⟩ | ⟨name, helpers, known, -⟩
    · obtain ⟨-, rfl⟩ := Prod.mk.injEq .. ▸ List.mem_singleton.1 (Named.mem_of_get? known)
      exact .node rfl nofun
    · cases known
  rules given := by cases given
  models given := by cases given

theorem sum_realFree : sum.RealFree := by
  refine .node rfl (List.forall_mem_cons.2 ⟨.node rfl nofun, List.forall_mem_singleton.2 ?_⟩)
  exact .node rfl nofun

theorem start_realFree : Engine.RealFree {} :=
  .start ⟨fun known => by simp at known, fun known => by simp at known⟩

/-- Breaks evaluation off where the native operation would be called. -/
def before : Environment → Expr → Engine → Option Fault
  | _, .call name [] _, _ => if name = "explode" then some (.foreignNode "") else none
  | _, _, _ => none

def failure : HostFailure := ⟨"RuntimeError", "disk on fire"⟩

theorem sum_fails : ∃ d u,
    Engine.evaluateWithin setting 4 (.ofRoot []) sum {} = .failure (.diagnosed d) u :=
  ⟨_, _, rfl⟩

theorem sum_comesTo : Engine.ComesTo setting 4
    (fun env e s =>
      ∃ d, Engine.Raises setting (Engine.evaluateWithin setting d) env e s "explode" (.host failure))
    (.ofRoot []) sum {} := by
  refine ⟨before, fun env e s fault broken => ⟨0, ?_⟩, fun same => ?_⟩
  · unfold before at broken
    split at broken
    · split at broken
      · rename_i called
        subst called
        have beyond : Engine.BeyondModule setting "explode" := ⟨rfl, nofun, nofun, nofun⟩
        exact .call rfl beyond rfl
      · cases broken
    · cases broken
  · obtain ⟨u, stopped⟩ : ∃ u, Engine.evaluateUntil ⟨before, fun _ _ _ _ => none⟩ setting 4
        (.ofRoot []) sum {} = .failure (.foreignNode "") u := ⟨_, rfl⟩
    obtain ⟨d, w, failed⟩ := sum_fails
    rw [stopped, failed] at same
    cases same

end Exploding

end Metamorph
