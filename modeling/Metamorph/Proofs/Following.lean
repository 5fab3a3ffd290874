import Metamorph.Proofs.Leading
import Metamorph.Proofs.Sight

/-! Evaluations that follow one another. Where evaluators follow one for the parts of an expression, and
for the attributes of the module, they follow it for the expression: matching operands give matching
results, and nothing is asked of the objects that were made but their classes. -/
namespace Metamorph.Engine
open Run

/-- All rules are matched rules, and native operations are pure. -/
structure Innocent (setting : Setting) : Prop where
  lazy : ∀ {t}, setting.transformation = some t → t.module.lazy = []
  called : ∀ {t}, setting.transformation = some t → t.module.called = []
  natives : ∀ {name native}, setting.helpers.natives.get? name = some native → native.Pure

variable {R : World → Engine → Engine → Prop} {setting setting' : Setting} {self : Evaluator}
  {family : Nat → Evaluator} {w : World} {s t : Engine} {v v' : Value} {env env' : Environment}

theorem ancestry_total (setting : Setting) (s : Engine) (v : Value) :
    ∃ found, ancestry setting v s = .value found s := by
  unfold ancestry
  rw [state_bind]
  cases v.builtinAncestry? with
  | some found => exact ⟨found, rfl⟩
  | none =>
    cases setting.navigator with
    | full => exact ⟨_, rfl⟩
    | bare =>
      cases v with
      | object h =>
        dsimp only
        cases s.store.entities[h]? with
        | none => exact ⟨_, rfl⟩
        | some entity => cases entity <;> exact ⟨_, rfl⟩
      | _ => exact ⟨_, rfl⟩

namespace SamePlan
variable (plan : SamePlan setting setting')
include plan

theorem ancestry (kindred : Kindred w s.store t.store) (found : v.Matches w v') : ∃ names,
    ancestry setting v s = .value names s ∧ Engine.ancestry setting' v' t = .value names t := by
  unfold Engine.ancestry
  simp only [state_bind, plan.navigator]
  cases found using Value.Matches.cases with
  | object h k paired =>
    have plain (h : Handle) : Value.builtinAncestry? (.object h) = none := rfl
    rw [plain, plain]
    cases setting.navigator with
    | full => exact ⟨_, rfl, congrArg (Outcome.value · t) (kindred.ancestry paired)⟩
    | bare =>
      dsimp only
      rcases kindred paired with same | ⟨cls, values, values', entity, entity'⟩
      · rw [same]
        rcases s.store.entities[h]? with _ | (_ | _) <;> exact ⟨_, rfl, rfl⟩
      · rw [entity, entity']
        exact ⟨_, rfl, rfl⟩
  | _ => cases setting.navigator <;> exact ⟨_, rfl, rfl⟩

theorem contextHelper? (kindred : Kindred w s.store t.store) (found : v.Matches w v') (name : String)
    (isAttribute : Option Bool) : ∃ helper, contextHelper? setting v name isAttribute s =
      .value helper s ∧ Engine.contextHelper? setting' v' name isAttribute t = .value helper t := by
  unfold Engine.contextHelper?
  rw [plan.has]
  split
  · obtain ⟨names, here, there⟩ := plan.ancestry kindred found
    rw [bind_of_value here, bind_of_value there]
    unfold HelperTable.lookup
    rw [plan.contextual]
    exact ⟨_, rfl, rfl⟩
  · exact ⟨_, rfl, rfl⟩

theorem hasFeature (kindred : Kindred w s.store t.store) (found : v.Matches w v') {feature : String} {known : Bool}
    {s' : Engine} (ended : hasFeature setting v feature s = .value known s') :
    s' = s ∧ Engine.hasFeature setting' v' feature t = .value known t := by
  unfold Engine.hasFeature at ended ⊢
  rw [plan.navigator]
  cases navigator : setting.navigator with
  | bare =>
    rw [navigator] at ended
    obtain ⟨rfl, rfl⟩ := pure_eq_value.1 ended
    exact ⟨rfl, rfl⟩
  | full =>
    rw [navigator] at ended
    obtain ⟨known', rfl⟩ := ofResult_eq_value.1 (mapFault_eq_value.1 ended)
    refine ⟨rfl, mapFault_eq_value.2 (ofResult_eq_value.2 ⟨?_, rfl⟩)⟩
    rw [kindred.hasFeature found, known']

theorem innocent (innocent : Innocent setting) : Innocent setting' where
  lazy known := innocent.lazy (plan.transformation ▸ known)
  called known := innocent.called (plan.transformation ▸ known)
  natives known := innocent.natives (plan.natives ▸ known)

end SamePlan

/-- What a call on the module looks up in the trace. -/
def lookUp : List Value → Run Engine Value
  | [source, output] => ruleCall?.resolveTemp source output none
  | [source, output, rule] => ruleCall?.resolveTemp source output (some rule)
  | args => Run.fail (.arity "resolveTemp" 2 args.length)

/-- No rule can be called, so a call that is none of the helpers' asks the trace or a native operation.
-/
theorem Innocent.callModule (innocent : Innocent setting) {name : String}
    (none : setting.helpers.module.get? name = none) (self : Evaluator) (args : List Value) :
    moduleCallPeeks self setting name args = (fun s =>
      !(setting.transformation.isSome && name == "resolveTemp") && nativePeeks setting name args s) ∧
    callModule self setting name args =
      if setting.transformation.isSome && name == "resolveTemp" then lookUp args
      else callNative setting name args := by
  unfold moduleCallPeeks Engine.callModule
  rw [none]
  cases given : setting.transformation with
  | none => exact ⟨rfl, rfl⟩
  | some t =>
    have lazy : t.module.lazyRule? name = .none := by
      simp [Module.lazyRule?, innocent.lazy given]
    have called : t.module.calledRule? name = .none := by
      simp [Module.calledRule?, innocent.called given]
    simp only [Option.bind_some, ruleCall?, lazy, called]
    by_cases resolve : name = "resolveTemp"
    · subst resolve
      simp only [if_true]
      constructor
      · funext s
        simp
      · rfl
    · have other : (name == "resolveTemp") = false := beq_eq_false_iff_ne.2 resolve
      simp [resolve, other]

def unknownCall (v : Value) (name : String) : Run Engine Value := do
  Run.fail (.of (.unresolvedHelper name (some ((← Run.state).typeName v))))

/-- A call with a receiver that no helper answers. -/
def unhelpedCall (setting : Setting) (v : Value) (name : String) (args : List Value) :
    Run Engine Value :=
  match Universal.named? name with
  | some op => universal setting op v args
  | none =>
    match ownOperation? setting v name args with
    | some run => run
    | none =>
      if setting.helpers.natives.has name then callNative setting name (v :: args)
      else unknownCall v name

theorem unknownCall_tracks {name : String} {runs : Nat → Run Engine Value} :
    TracksAt R alike w s t (unknownCall v name) runs :=
  .of_failure fun s => ⟨_, s, rfl⟩

theorem onType_none {type name : String} {args : List Value}
    (none : onType setting type name args = none) (setting' : Setting) (args' : List Value) :
    onType setting' type name args' = .none := by
  unfold onType at none ⊢
  split at none
  · cases none
  · rw [if_neg ‹_›]

/-- A navigation from a value that neither is the module nor has fields. -/
def plainNavigation (self : Evaluator) (setting : Setting) (v : Value) (feature : String) :
    Run Engine Value := do
  let own := v.builtinType?.isNone
  match ← contextHelper? setting v feature (some true) with
  | some helper =>
    if own && (← hasFeature setting v feature) then navigate v feature
    else invokeHelper self setting helper v []
  | none =>
    if own then navigate v feature
    else mismatch "model object" v ("navigation '." ++ feature ++ "'")

/-- Evaluators that follow another one in evaluating expressions. -/
structure Guided (R : World → Engine → Engine → Prop) (setting setting' : Setting)
    (leader : Evaluator) (family : Nat → Evaluator) : Prop where
  twin : Twins R
  plan : SamePlan setting setting'
  innocent : Innocent setting
  expression : ∀ {w env env'} e, env.Matches w env' →
    Tracks R alike w (leader env e) fun n => family n env' e

/-- Evaluators that follow another one, in reading attributes of the module, too. -/
structure Following (R : World → Engine → Engine → Prop) (setting setting' : Setting)
    (leader : Evaluator) (family : Nat → Evaluator) : Prop
    extends Guided R setting setting' leader family where
  ofModule : ∀ {w} name, Tracks R alike w (moduleAttribute leader setting name) fun n =>
    moduleAttribute (family n) setting' name

namespace Guided
variable (following : Guided R setting setting' self family)
include following

theorem scene (twins : R w s t) : Scene w s t := following.twin.scene twins

/-- It leads through the parts of expressions. -/
theorem led : Led R setting setting' self family where
  apart twins := (following.scene twins).oneToOne
  unmoved twins left right := following.twin.still twins left.toStill right.toStill
  plan := following.plan
  expression := following.expression

end Guided

namespace Following
variable (following : Following R setting setting' self family)
include following

/-- A native operation that answers twins without peeking answers them alike. -/
theorem nativeAnswer (twins : R w s t) {name : String} {args args' : List Value}
    (found : Value.Alike w args args') (discreet : nativePeeks setting name args s = false) :
    Brings (Value.Matches w) (nativeAnswer setting s.store name args)
      (Engine.nativeAnswer setting' t.store name args') ∧
      ((Engine.nativeAnswer setting s.store name args).isOk = true →
        nativePeeks setting' name args' t = false) := by
  unfold Engine.nativeAnswer nativePeeks at *
  rw [following.plan.navigator, following.plan.natives]
  cases navigator : setting.navigator with
  | bare => exact ⟨.ok (by simp [found.length_eq]), fun _ => rfl⟩
  | full =>
    cases known : setting.helpers.natives.get? name with
    | none => exact ⟨.error, fun _ => rfl⟩
    | some native =>
      have pure := following.innocent.natives known
      have scene := following.scene twins
      simp only [navigator, known] at discreet
      have open' (s : Engine) (u : Value) (text : String) (shown : s.citeGiven u = .ok text) :
          s.store.cite u = .ok text := by
        unfold Engine.citeGiven at shown
        split at shown
        · cases shown
        · exact shown
      have answered {a : Value} (ended : native.run s.store.cite args = .ok a) :
          ∃ b, native.run t.citeGiven args' = .ok b ∧ a.Matches w b := by
        cases given : native.run s.citeGiven args with
        | error => simp [ended, given, Except.isOk, Except.toBool] at discreet
        | ok u =>
          have same := pure.same (open' s) given
          rw [ended] at same
          cases same
          exact pure.answers scene.oneToOne (fun shown => scene.citeGiven shown) found _ given
      constructor
      · have brings : Brings (Value.Matches w) (native.run s.store.cite args)
            (native.run t.store.cite args') := fun a ended => by
          obtain ⟨b, given, matched⟩ := answered ended
          exact ⟨b, pure.same (open' t) given, matched⟩
        exact brings.map fun _ _ => asSequence_matches
      · intro ended
        cases outcome : native.run s.store.cite args with
        | error fault => simp [outcome, Except.map, Except.isOk, Except.toBool] at ended
        | ok a =>
          obtain ⟨b, given, -⟩ := answered outcome
          simp [given, Except.isOk, Except.toBool]

theorem callNative (twins : R w s t) {name : String} {args args' : List Value}
    (found : Value.Alike w args args') (discreet : nativePeeks setting name args s = false) :
    TracksAt R alike w s t (callNative setting name args) fun _ =>
      Engine.callNative setting' name args' := by
  have brings := (following.nativeAnswer twins found discreet).1
  have noted : R w (noteHelper name { s with helperInvocations := s.helperInvocations + 1 })
      (noteHelper name { t with helperInvocations := t.helperInvocations + 1 }) :=
    following.twin.still twins ⟨rfl, rfl, rfl, rfl, rfl⟩ ⟨rfl, rfl, rfl, rfl, rfl⟩
  exact Tracks.collaborate brings _ _ noted

/-- Where the call succeeds the twin of one that does not peek does not either. -/
theorem native (twins : R w s t) {name : String} {args args' : List Value} {p : Nat → Engine → Bool}
    (found : Value.Alike w args args') (discreet : nativePeeks setting name args s = false)
    (only : nativePeeks setting' name args' t = false → ∀ n, p n t = false) :
    TracksAt R alike w s t (Engine.callNative setting name args) fun n =>
      barring (p n) >>= fun _ => Engine.callNative setting' name args' := by
  intro a s' ended
  have answered : (Engine.nativeAnswer setting s.store name args).isOk = true := by
    unfold Engine.callNative at ended
    obtain ⟨_, u, noted, ended⟩ := bind_eq_value.1 ended
    obtain rfl := modify_eq_value.1 noted
    rw [state_bind] at ended
    obtain ⟨ended, -⟩ := ofResult_eq_value.1 (mapFault_eq_value.1 ended)
    change Engine.nativeAnswer setting s.store name args = _ at ended
    rw [ended]
    rfl
  have closed := (following.nativeAnswer twins found discreet).2 answered
  exact TracksAt.passing (only closed) (following.callNative twins found discreet) a s' ended

/-! Calls on the module. -/

theorem resolveTemp {source source' output output' : Value} {rule rule' : Option Value}
    (first : source.Matches w source') (second : output.Matches w output')
    (third : Option.Rel (Value.Matches w) rule rule') :
    Tracks R alike w (ruleCall?.resolveTemp source output rule) fun _ =>
      ruleCall?.resolveTemp source' output' rule' := by
  refine resolveTemp_tracks (fun output rule within => .reading fun s t twins v resolved => ?_) second third
  obtain ⟨h, g, rfl, rfl, goes⟩ := (following.scene twins).resolve resolved
  obtain ⟨k, paired, rfl⟩ := Value.matches_object.1 (first.within within)
  obtain ⟨g', found, resolved'⟩ := goes paired
  exact ⟨_, resolved', Value.matches_object.2 ⟨g', found, rfl⟩⟩

theorem lookUp {args args' : List Value} (found : Value.Alike w args args') :
    Tracks R alike w (lookUp args) fun _ => Engine.lookUp args' := by
  match args, args', found with
  | _, _, .nil => exact .fail
  | _, _, .cons _ .nil => exact .fail
  | _, _, .cons first (.cons second .nil) => exact following.resolveTemp first second .none
  | _, _, .cons first (.cons second (.cons third .nil)) =>
    exact following.resolveTemp first second (.some third)
  | _, _, .cons _ (.cons _ (.cons _ (.cons _ _))) => exact .fail

theorem callModule (name : String) {args args' : List Value} (found : Value.Alike w args args') :
    Tracks R alike w
      (barring (moduleCallPeeks self setting name args) >>= fun _ =>
        callModule self setting name args)
      fun n => barring (moduleCallPeeks (family n) setting' name args') >>= fun _ =>
        Engine.callModule (family n) setting' name args' := by
  intro s t twins
  refine .barred fun discreet => ?_
  cases known : setting.helpers.module.get? name with
  | some helper =>
    have known' : (setting'.helpers.module.get? name).isNone = false := by
      have helpers := following.plan.module name
      rw [known] at helpers
      generalize setting'.helpers.module.get? name = helper' at helpers
      cases helpers
      rfl
    refine .passing (fun n => by simp only [moduleCallPeeks, known', Bool.false_and]) ?_
    exact following.led.moduleHelper known (following.ofModule name) found s t twins
  | none =>
    have known' := following.plan.unknown known
    have innocent' : Innocent setting' := following.plan.innocent following.innocent
    obtain ⟨peeks, calls⟩ := following.innocent.callModule known self args
    have twinCall (n : Nat) := innocent'.callModule known' (family n) args'
    simp only [(twinCall _).1, (twinCall _).2, following.plan.transformation, calls]
    rw [peeks] at discreet
    cases resolves : setting.transformation.isSome && name == "resolveTemp" with
    | true =>
      refine .passing (fun n => by simp) ?_
      exact following.lookUp found _ _ twins
    | false =>
      simp only [resolves, Bool.not_false, Bool.true_and] at discreet
      exact following.native twins found discreet fun closed n => by simpa using closed

/-! Calls with a receiver. -/

theorem ancestry (found : v.Matches w v') :
    Tracks R same w (ancestry setting v) fun _ => Engine.ancestry setting' v' := by
  intro s t twins
  obtain ⟨names, here, there⟩ := following.plan.ancestry (following.scene twins).kindred found
  exact .stay twins rfl here fun _ => there

theorem display (twins : R w s t) (found : v.Matches w v') (silent : v.mentions s.owns = false) :
    Brings Eq (s.store.display v) (t.store.display v') :=
  .same fun _ shown => ((following.scene twins).textOf found silent false).trans shown

theorem universal (twins : R w s t) {op : Universal} {args args' : List Value}
    (found : v.Matches w v') (more : Value.Alike w args args')
    (silent : op = .toString ∨ op = .debug → ∀ u ∈ v :: args, u.mentions s.owns = false) :
    TracksAt R alike w s t (universal setting op v args) fun _ =>
      Engine.universal setting' op v' args' := by
  refine universal_tracks (following.led.unmoved twins) found more (following.ancestry found)
    fun shows => ?_
  exact ((List.forall₂_and_left _ _).2 ⟨silent shows, .cons found more⟩).imp fun _ _ both =>
    following.display twins both.2 both.1

theorem unhelpedCall (twins : R w s t) (name : String) (found : v.Matches w v')
    {args args' : List Value} (more : Value.Alike w args args')
    (discreet : unhelpedPeeks setting v name args s = false) :
    TracksAt R alike w s t (unhelpedCall setting v name args) fun _ =>
      barring (unhelpedPeeks setting' v' name args') >>= fun _ =>
        Engine.unhelpedCall setting' v' name args' := by
  have mentioned {u u' : Value} (found : u.Matches w u') : u'.mentions t.owns = u.mentions s.owns :=
    found.mentions fun paired => (following.scene twins).owns paired
  have all : (v' :: args').any (·.mentions t.owns) = (v :: args).any (·.mentions s.owns) := by
    have both : List.Forall₂ (Value.Matches w) (v :: args) (v' :: args') := .cons found more
    clear discreet
    generalize v :: args = us, v' :: args' = us' at both
    induction both with
    | nil => rfl
    | cons first _ ih => rw [List.any_cons, List.any_cons, ih, mentioned first]
  unfold unhelpedPeeks Engine.unhelpedCall at *
  cases known : Universal.named? name with
  | some op =>
    simp only [known] at discreet ⊢
    refine .passing (fun n => by rw [all, discreet]) (following.universal twins found more ?_)
    intro shows u member
    have silent : (v :: args).any (·.mentions s.owns) = false := by
      rcases shows with rfl | rfl <;> simpa [Universal.shows] using discreet
    simpa using List.any_eq_false.1 silent u member
  | none =>
    simp only [known] at discreet ⊢
    have others (own : Engine.ownOperation? setting v name args = none)
        (own' : Engine.ownOperation? setting' v' name args' = none) :
        TracksAt R alike w s t
          (match Engine.ownOperation? setting v name args with
            | some run => run
            | none =>
              if setting.helpers.natives.has name then Engine.callNative setting name (v :: args)
              else unknownCall v name)
          fun _ => barring (fun s => match Engine.ownOperation? setting' v' name args' with
            | some _ => v'.isType
            | none => nativePeeks setting' name (v' :: args') s) >>= fun _ =>
              match Engine.ownOperation? setting' v' name args' with
              | some run => run
              | none =>
                if setting'.helpers.natives.has name then
                  Engine.callNative setting' name (v' :: args')
                else unknownCall v' name := by
      simp only [own, own', following.plan.natives] at discreet ⊢
      split
      · exact following.native twins (.cons found more) discreet fun closed _ => closed
      · exact unknownCall_tracks
    by_cases single : ∀ type, v ≠ .type type
    · have operations : Option.Rel (fun run run' => Tracks R alike w run fun _ => run')
          (ownOperation? setting v name args) (ownOperation? setting' v' name args') :=
        ownOperation_tracks following.twin.fresh found more name single
      generalize own : Engine.ownOperation? setting v name args = run,
        own' : Engine.ownOperation? setting' v' name args' = run' at operations
      cases operations with
      | none => simpa only [own, own'] using others own own'
      | some goes =>
        have plain : v'.isType = false := by
          have same : v'.isType = v.isType := by apply found.form <;> intros <;> rfl
          rw [same]
          cases v <;> first | rfl | exact absurd rfl (single _)
        exact .passing (fun _ => plain) (goes s t twins)
    · simp only [not_forall, not_not] at single
      obtain ⟨type, rfl⟩ := single
      obtain rfl := Value.matches_type.1 found
      have known (setting : Setting) (args : List Value) :
          Engine.ownOperation? setting (.type type) name args = onType setting type name args := rfl
      rw [known] at discreet
      cases own : onType setting type name args with
      | some run => simp [own, Value.isType] at discreet
      | none => exact others own (onType_none own _ _)

theorem callOn (name : String) (found : v.Matches w v') {args args' : List Value}
    (more : Value.Alike w args args') :
    Tracks R alike w
      (barring (callPeeks setting v name args) >>= fun _ => callOn self setting v name args)
      fun n => barring (callPeeks setting' v' name args') >>= fun _ =>
        Engine.callOn (family n) setting' v' name args' := by
  intro s t twins
  refine .barred fun discreet => ?_
  obtain ⟨helper, here, there⟩ := following.plan.contextHelper? (following.scene twins).kindred found name none
  have looked : answer? (Engine.contextHelper? setting v name none) s = some helper := by
    simp [answer?, here]
  have looked' : answer? (Engine.contextHelper? setting' v' name none) t = some helper := by
    simp [answer?, there]
  unfold callPeeks at discreet ⊢
  simp only [looked] at discreet
  cases helper with
  | some helper =>
    refine .passing (fun n => by simp only [looked']) ?_
    refine .congr (bind_of_value here) (fun n => bind_of_value there) ?_
    exact following.led.invokeHelper helper found more _ _ twins
  | none =>
    have goes := following.unhelpedCall twins name found more discreet
    refine .congr (bind_of_value here) (fun n => ?_) goes
    change Run.bind _ _ t = Run.bind _ _ t
    unfold Run.bind barring
    simp only [looked']
    cases unhelpedPeeks setting' v' name args' t with
    | true => rfl
    | false => exact bind_of_value there

theorem navigate (twins : R w s t) (found : v.Matches w v') (unowned : s.ownerOf? v = none)
    (feature : String) :
    TracksAt R alike w s t (navigate v feature) fun _ => Engine.navigate v' feature := by
  have counted : R w { s with navigations := s.navigations + 1 }
      { t with navigations := t.navigations + 1 } :=
    following.twin.still twins ⟨rfl, rfl, rfl, rfl, rfl⟩ ⟨rfl, rfl, rfl, rfl, rfl⟩
  have brings : Brings (Value.Matches w) (s.store.navigate v feature)
      (t.store.navigate v' feature) :=
    ((following.scene twins).readFeature found unowned).map fun _ _ => asSequence_matches
  exact Tracks.collaborate brings _ _ counted

theorem plainNavigation (twins : R w s t) (found : v.Matches w v') (feature : String)
    (discreet : navigationPeeks setting v feature s = false) :
    TracksAt R alike w s t (plainNavigation self setting v feature) fun n =>
      barring (navigationPeeks setting' v' feature) >>= fun _ =>
        Engine.plainNavigation (family n) setting' v' feature := by
  have scene := following.scene twins
  obtain ⟨helper, here, there⟩ := following.plan.contextHelper? scene.kindred found feature (some true)
  have looked : answer? (Engine.contextHelper? setting v feature (some true)) s = some helper := by
    simp [answer?, here]
  have looked' : answer? (Engine.contextHelper? setting' v' feature (some true)) t = some helper := by
    simp [answer?, there]
  have own : v'.builtinType?.isNone = v.builtinType?.isNone := by rw [found.builtinType?]
  have owner := scene.ownerOf? found
  cases helper with
  | none =>
    have unowned : s.ownerOf? v = none := by simpa [navigationPeeks, looked] using discreet
    refine .passing (fun _ => by simp [navigationPeeks, owner, unowned]) ?_
    refine .congr (bind_of_value here) (fun n => bind_of_value there) ?_
    dsimp only
    rw [own]
    split
    · exact following.navigate twins found unowned feature
    · exact mismatch_tracks s t twins
  | some helper =>
    intro a s' ended
    obtain ⟨known, u, asked, -⟩ := bind_eq_value.1 ((bind_of_value here).symm.trans ended)
    obtain ⟨same, asked'⟩ := following.plan.hasFeature scene.kindred found asked
    rw [same] at asked
    have knows : answer? (Engine.hasFeature setting v feature) s = some known := by
      simp [answer?, asked]
    have knows' : answer? (Engine.hasFeature setting' v' feature) t = some known := by
      simp [answer?, asked']
    have peeks : ((s.ownerOf? v).isSome && known) = false := by
      simpa [navigationPeeks, looked, knows] using discreet
    refine TracksAt.passing (fun _ => ?_) (.congr ((bind_of_value here).trans (bind_of_value asked))
      (fun n => (bind_of_value there).trans (bind_of_value asked')) ?_) a s' ended
    · simpa [navigationPeeks, looked', knows', owner] using peeks
    · rw [own]
      split
      · rename_i reads
        obtain ⟨-, rfl⟩ := Bool.and_eq_true_iff.1 reads
        exact following.navigate twins found (by simpa using peeks) feature
      · exact following.led.invokeHelper helper found .nil _ _ twins

theorem navigation (found : v.Matches w v') (feature : String) :
    Tracks R alike w
      (barring (navigationPeeks setting v feature) >>= fun _ => navigation self setting v feature)
      fun n => barring (navigationPeeks setting' v' feature) >>= fun _ =>
        Engine.navigation (family n) setting' v' feature := by
  intro s t twins
  refine .barred fun discreet => ?_
  have unpeeking (none : s.ownerOf? v = .none) : navigationPeeks setting' v' feature t = false := by
    simp [navigationPeeks, (following.scene twins).ownerOf? found, none]
  cases found using Value.Matches.cases with
  | undefined => exact .passing (fun _ => unpeeking rfl) (Tracks.pure (by simp [alike]) s t twins)
  | thisModule title => exact .passing (fun _ => unpeeking rfl) (following.ofModule feature s t twins)
  | tuple fields fields' parts =>
    exact .passing (fun _ => unpeeking rfl) (tuple_tracks parts feature s t twins)
  | _ => exact following.plainNavigation twins ‹_› feature discreet

theorem watchedModuleCall (name : String) (args : List Expr) (bound : env.Matches w env') :
    Tracks R alike w (watchedModuleCall self setting env name args) fun n =>
      Engine.watchedModuleCall (family n) setting' env' name args :=
  .bind (following.led.evaluateAll bound) fun _ found => following.callModule name found

theorem watchedMethod (name : String) (args : List Expr) (found : v.Matches w v')
    (bound : env.Matches w env') :
    Tracks R alike w (watchedMethod self setting env v name args) fun n =>
      Engine.watchedMethod (family n) setting' env' v' name args := by
  have single (v v' : Value) (found : v.Matches w v') : Tracks R alike w
      (Engine.evaluateAll self env args >>= fun args =>
        barring (callPeeks setting v name args) >>= fun _ => Engine.callOn self setting v name args)
      fun n => Engine.evaluateAll (family n) env' args >>= fun args =>
        barring (callPeeks setting' v' name args) >>= fun _ =>
          Engine.callOn (family n) setting' v' name args :=
    .bind (following.led.evaluateAll bound) fun within more =>
      following.callOn name (found.within within) more
  cases found using Value.Matches.cases with
  | thisModule title => exact following.watchedModuleCall name args bound
  | collection kind items items' alike found =>
    unfold Engine.watchedMethod
    cases CollectionOperation.named? name with
    | some op => exact following.led.collectionMethod bound alike
    | none => exact single _ _ found
  | _ => exact single _ _ ‹_›

theorem watchedStep (e : Expr) (bound : env.Matches w env') :
    Tracks R alike w (watchedStep setting self env e) fun n =>
      Engine.watchedStep setting' (family n) env' e := by
  cases e with
  | navigation source feature loc =>
    exact .bind (following.expression source bound) fun _ found => following.navigation found feature
  | method receiver name args loc =>
    exact .bind (following.expression receiver bound) fun within found =>
      following.watchedMethod name args found (bound.within within)
  | call name args loc => exact following.watchedModuleCall name args bound
  | _ =>
    simp only [Engine.watchedStep]
    exact following.led.part rfl bound

end Following

/-- Watched evaluators follow one another if, as far as they do in evaluating expressions, they do in
reading attributes of the module. -/
theorem watchedWithin_following {ι : Type} {R : ι → World → Engine → Engine → Prop}
    (twin : ∀ i, Twins (R i)) (plan : SamePlan setting setting') (innocent : Innocent setting)
    (reads : ∀ n,
      (∀ i, Guided (R i) setting setting' (watchedWithin setting n) (watchedWithin setting')) →
        ∀ i w name, Tracks (R i) alike w (moduleAttribute (watchedWithin setting n) setting name)
          fun n => moduleAttribute (watchedWithin setting' n) setting' name) (n : Nat) (i : ι) :
    Following (R i) setting setting' (watchedWithin setting n) (watchedWithin setting') := by
  have guided : ∀ n i, Guided (R i) setting setting' (watchedWithin setting n)
      (watchedWithin setting') := by
    intro n
    induction n with
    | zero => exact fun i => ⟨twin i, plan, innocent, fun _ _ => .cutOff⟩
    | succ n ih =>
      intro i
      refine ⟨twin i, plan, innocent, fun e bound => .deeper (.mapFault ?_)⟩
      exact (Following.mk (ih i) fun name => reads n ih i _ name).watchedStep e bound
  exact ⟨guided n i, fun name => reads n (guided n) i _ name⟩

end Metamorph.Engine
