import Metamorph.Proofs.Following

/-! Evaluation while rules are refused. Without a transformation there are none, and in Matching none may be
invoked: what is evaluated then changes nothing but counts, texts that were reported, and the attributes of
the module that are at hand. Two states with the same objects and the same trace answer it alike, up to the
identities of complex numbers, as far as the attributes of the module do. -/
namespace Metamorph

/-- A native operation is repeatable if it answers the same values alike, whatever identities the complex
numbers in them have. -/
structure Native.Repeatable (native : Native) : Prop where
  answers : ∀ {w : World} {cite : Value → Result String}, w.OneToOne → (∀ h, w.handles h h) →
    (∀ {u u'}, u.Matches w u' → cite u' = cite u) → ∀ {args args'}, Value.Alike w args args' →
      Brings (Value.Matches w) (native.run cite args) (native.run cite args')

namespace Native

theorem repeatable_of_fails {native : Native} (fails : ∀ cite args v, native.run cite args ≠ .ok v) :
    native.Repeatable where
  answers _ _ _ _ _ _ := fun v answer => absurd answer (fails _ _ v)

theorem repeatable_of_fixed {native : Native} {f : Nat → Value} (plain : ∀ n, (f n).isPlain = true)
    (answers : ∀ cite args, native.run cite args = .ok (f args.length)) : native.Repeatable where
  answers _ _ _ _ _ found := by
    rw [answers, answers, ← found.length_eq]
    exact .ok ((Value.matches_plain (plain _)).2 rfl)

theorem first_repeatable : first.Repeatable where
  answers _ _ _ _ _ found := by
    cases found with
    | nil => exact .error
    | cons found _ => exact .ok found

theorem shout_repeatable : shout.Repeatable where
  answers _ _ _ _ _ found := by
    unfold shout
    cases found with
    | nil => exact .error
    | @cons u _ us _ found rest =>
      cases u with
      | string text =>
        obtain rfl := Value.matches_string.1 found
        cases rest with
        | nil => exact .ok (by simp)
        | cons => exact .error
      | _ => exact .error

theorem list_repeatable : list.Repeatable where
  answers _ _ _ _ _ found := .ok (Value.matches_list.2 ⟨_, found, rfl⟩)

theorem single_repeatable : single.Repeatable where
  answers oneToOne _ _ _ _ found := by
    unfold single
    cases found with
    | nil => exact .ok (Value.collectionOf_matches oneToOne .nil)
    | @cons u _ us _ found rest =>
      cases found using Value.Matches.cases with
      | list => exact .error
      | _ => exact .ok (Value.collectionOf_matches oneToOne (.cons ‹_› .nil))

/-- The operations in the stock are repeatable. -/
theorem stock_repeatable {name : String} {native : Native} (known : stock.get? name = some native) :
    native.Repeatable := by
  have member := Named.mem_of_get? known
  have fixed : count.Repeatable ∧ nothing.Repeatable :=
    ⟨repeatable_of_fixed (f := fun n => .integer n) (fun _ => rfl) fun _ _ => rfl,
      repeatable_of_fixed (f := fun _ => .undefined) (fun _ => rfl) fun _ _ => rfl⟩
  have missing : missingKey.Repeatable := repeatable_of_fails fun cite args v answer => by
    unfold missingKey at answer
    cases failed : HostFailure.ofArguments cite "KeyError" (args.take 1) <;> simp_all [bind, Except.bind]
  simp only [stock, List.mem_cons, Prod.mk.injEq, List.not_mem_nil, or_false] at member
  rcases member with ⟨-, rfl⟩ | ⟨-, rfl⟩ | ⟨-, rfl⟩ | ⟨-, rfl⟩ | ⟨-, rfl⟩ | ⟨-, rfl⟩ | ⟨-, rfl⟩ |
    ⟨-, rfl⟩ | ⟨-, rfl⟩ | ⟨-, rfl⟩ | ⟨-, rfl⟩ | ⟨-, rfl⟩ | ⟨-, rfl⟩ | ⟨-, rfl⟩ | ⟨-, rfl⟩
  · exact shout_repeatable
  · exact first_repeatable
  · exact first_repeatable
  · exact repeatable_of_fails fun _ _ _ => nofun
  · exact fixed.1
  · exact list_repeatable
  · exact list_repeatable
  · exact single_repeatable
  · exact single_repeatable
  · exact fixed.2
  · exact repeatable_of_fails fun _ _ _ => nofun
  · exact missing
  all_goals exact repeatable_of_fails fun _ _ _ => nofun

end Native

mutual

theorem Value.mentions_nothing : ∀ v : Value, v.mentions (fun _ => false) = false
  | .object _ => rfl
  | .collection _ items | .list _ items => by rw [Value.mentions, anyMentions_nothing items]
  | .tuple fields => by rw [Value.mentions, anyFieldMentions_nothing fields]
  | .undefined | .boolean _ | .integer _ | .real _ | .complex _ _ _ | .string _ | .type _
  | .thisModule _ => rfl

theorem anyMentions_nothing : ∀ items : List Value, anyMentions (fun _ => false) items = false
  | [] => rfl
  | v :: rest => by rw [anyMentions, v.mentions_nothing, anyMentions_nothing rest]; rfl

theorem anyFieldMentions_nothing :
    ∀ fields : List (String × Value), anyFieldMentions (fun _ => false) fields = false
  | [] => rfl
  | (_, v) :: rest => by rw [anyFieldMentions, v.mentions_nothing, anyFieldMentions_nothing rest]; rfl

end

namespace Engine
open Run

/-- No rule can be invoked: there is no transformation, or it is at Matching. -/
def Refusing (setting : Setting) (s : Engine) : Prop :=
  ∀ t, setting.transformation = some t → s.phase = .matching

/-- The objects, the trace and the phase are the same. -/
structure Retained (s s' : Engine) : Prop where
  store : s'.store = s.store
  trace : s'.trace = s.trace
  phase : s'.phase = s.phase

/-- The states have the same objects and the same trace, and what occurs in these corresponds to itself. -/
structure Opposite (setting : Setting) (w : World) (s t : Engine) : Prop where
  apart : w.OneToOne
  everyone : ∀ h, w.handles h h
  store : t.store = s.store
  trace : t.trace = s.trace
  phase : t.phase = s.phase
  refusing : Refusing setting s
  features : ∀ {h feature v}, s.store.readFeature (.object h) feature = .ok v → v.Matches w v
  links : ∀ link ∈ s.trace.links,
    link.source.Matches w link.source ∧ NamedMatch w link.outputs link.outputs

variable {R : World → Engine → Engine → Prop} {setting setting' : Setting} {self : Evaluator}
  {family : Nat → Evaluator} {w w' : World} {s s' t t' : Engine} {v v' : Value}
  {env env' : Environment}

namespace Opposite
variable (opposite : Opposite setting w s t)
include opposite

theorem retained (left : Retained s s') (right : Retained t t') : Opposite setting w s' t' where
  apart := opposite.apart
  everyone := opposite.everyone
  store := by rw [left.store, right.store, opposite.store]
  trace := by rw [left.trace, right.trace, opposite.trace]
  phase := by rw [left.phase, right.phase, opposite.phase]
  refusing given known := left.phase.trans (opposite.refusing given known)
  features read := by
    rw [left.store] at read
    exact opposite.features read
  links link member := by
    rw [left.trace] at member
    exact opposite.links link member

theorem grow (apart : w'.OneToOne) (within : w.Within w') : Opposite setting w' s t where
  apart := apart
  everyone h := within.handles (opposite.everyone h)
  store := opposite.store
  trace := opposite.trace
  phase := opposite.phase
  refusing := opposite.refusing
  features read := (opposite.features read).within within
  links link member := by
    obtain ⟨source, outputs⟩ := opposite.links link member
    exact ⟨source.within within, outputs.imp fun _ _ both => ⟨both.1, both.2.within within⟩⟩

theorem flip : Opposite setting w.flip t s where
  apart := opposite.apart.flip
  everyone := opposite.everyone
  store := opposite.store.symm
  trace := opposite.trace.symm
  phase := opposite.phase.symm
  refusing given known := opposite.phase.trans (opposite.refusing given known)
  features read := by
    rw [opposite.store] at read
    exact (opposite.features read).flip
  links link member := by
    rw [opposite.trace] at member
    obtain ⟨source, outputs⟩ := opposite.links link member
    exact ⟨source.flip, (outputs.imp fun _ _ both => ⟨both.1.symm, both.2.flip⟩).flip⟩

theorem planned (plan : SamePlan setting setting') : Opposite setting' w s t :=
  { opposite with
    refusing := fun given known => opposite.refusing given (plan.transformation.symm.trans known) }

theorem handle {h k : Handle} (paired : w.handles h k) : k = h :=
  ((opposite.apart.handles (opposite.everyone h) paired).1 rfl).symm

/-! What is read of the store and of the trace. -/

/-- The text of a value does not show identities. -/
theorem textOf (found : v.Matches w v') (cited : Bool) :
    t.store.textOf cited v' = s.store.textOf cited v := by
  have shown : SameText s.store.label s.store.label (fun _ => false) v v' :=
    found.sameText fun paired _ => by rw [opposite.handle paired]
  obtain ⟨overlong, text⟩ := shown
  rw [Store.textOf, Store.textOf, opposite.store, overlong, text v.mentions_nothing]

theorem kindred : Kindred w s.store t.store := by
  intro h k paired
  rw [opposite.handle paired, opposite.store]
  exact .inl rfl

theorem readFeature (found : v.Matches w v') (feature : String) :
    Brings (Value.Matches w) (s.store.readFeature v feature) (t.store.readFeature v' feature) := by
  refine readFeature_matches (fun {h k} object paired => ?_) found
  rw [opposite.handle paired, opposite.store]
  exact fun u read => ⟨u, read, opposite.features read⟩

theorem resolve (found : v.Matches w v') (output : String) (rule : Option String) :
    Brings (Value.Matches w) (s.trace.resolve s.store v output rule)
      (t.trace.resolve t.store v' output rule) := by
  have linked : t.trace.candidates v' output rule = s.trace.candidates v output rule := by
    unfold Trace.candidates
    rw [Trace.linksFor_eq, Trace.linksFor_eq, opposite.trace, List.filter_filter, List.filter_filter]
    refine List.filter_congr fun link member => ?_
    rw [TraceLink.isFor, TraceLink.isFor, (opposite.links link member).1.same opposite.apart found]
  unfold Trace.resolve
  rw [linked]
  cases chosen : s.trace.candidates v output rule with
  | nil =>
    dsimp only
    cases s.store.cite v <;> exact .error
  | cons link rest =>
    cases rest with
    | cons => exact .error
    | nil =>
      have member : link ∈ s.trace.links := by
        have among : link ∈ s.trace.candidates v output rule := chosen ▸ List.mem_singleton_self link
        exact (Trace.mem_linksFor.1 (List.mem_of_mem_filter among)).1
      have made := (opposite.links link member).2.get? output
      refine .ok ?_
      generalize link.outputs.get? output = target at made
      cases made with
      | none => simp
      | some found => exact found

end Opposite

theorem Unmoved.retained (unmoved : Unmoved s s') : Retained s s' :=
  ⟨unmoved.store, unmoved.trace, unmoved.phase⟩

theorem Retained.refl (s : Engine) : Retained s s := ⟨rfl, rfl, rfl⟩

theorem Retained.trans {s'' : Engine} (first : Retained s s') (rest : Retained s' s'') : Retained s s'' :=
  ⟨rest.store.trans first.store, rest.trace.trans first.trace, rest.phase.trans first.phase⟩

theorem refused (rule : String) (matching : s.phase = .matching) :
    ∃ fault, refuseWhileMatching rule s = .failure fault s := by
  unfold refuseWhileMatching
  rw [state_bind, if_pos matching]
  exact ⟨_, rfl⟩

theorem filterM_tracks {α : Type} {p : α → Run Engine Bool} {q : Nat → α → Run Engine Bool}
    (body : ∀ {w'} a, w.Within w' → Tracks R same w' (p a) fun n => q n a) (items : List α) :
    Tracks R same w (items.filterM p) fun n => items.filterM (q n) := by
  have loop (items found : List α) : ∀ {w'}, w.Within w' →
      Tracks R same w' (List.filterAuxM p items found) fun n => List.filterAuxM (q n) items found := by
    induction items generalizing found with
    | nil => exact fun _ => .pure rfl
    | cons a rest ih =>
      intro w' within
      refine .bind (body a within) fun {_ holds _} further same => ?_
      subst same
      exact ih _ (within.trans further)
  exact .bind (loop items [] (.refl w)) fun _ same => .pure (by rw [same])

/-- Pairs of states that show evaluations the same, whatever is counted beside. -/
structure Facing (R : World → Engine → Engine → Prop) (setting setting' : Setting) : Prop where
  opposite : ∀ {w s t}, R w s t → Opposite setting w s t
  unmoved : ∀ {w s t s' t'}, R w s t → Unmoved s s' → Unmoved t t' → R w s' t'
  fresh : ∀ {w s t}, R w s t → R (w.pair s.made t.made) { s with made := s.made + 1 }
    { t with made := t.made + 1 }
  plan : SamePlan setting setting'
  natives : ∀ {name native}, setting.helpers.natives.get? name = some native → native.Repeatable

/-- Evaluators that come to the same as another one, as long as rules are refused. -/
structure Pursued (R : World → Engine → Engine → Prop) (setting setting' : Setting)
    (leader : Evaluator) (family : Nat → Evaluator) : Prop where
  facing : Facing R setting setting'
  expression : ∀ {w env env'} e, env.Matches w env' →
    Tracks R alike w (leader env e) fun n => family n env' e

/-- Evaluators that do so in reading attributes of the module, too. -/
structure Pursuing (R : World → Engine → Engine → Prop) (setting setting' : Setting)
    (leader : Evaluator) (family : Nat → Evaluator) : Prop
    extends Pursued R setting setting' leader family where
  ofModule : ∀ {w} name, Tracks R alike w (moduleAttribute leader setting name) fun n =>
    moduleAttribute (family n) setting' name

theorem Pursued.led (pursued : Pursued R setting setting' self family) :
    Led R setting setting' self family where
  apart related := (pursued.facing.opposite related).apart
  unmoved := pursued.facing.unmoved
  plan := pursued.facing.plan
  expression := pursued.expression

namespace Facing
variable (facing : Facing R setting setting')
include facing

theorem given (related : R w s t) (h : Handle) : (Value.object h).Matches w (.object h) :=
  Value.matches_object.2 ⟨h, (facing.opposite related).everyone h, rfl⟩

/-! What is found out about values. -/

theorem ancestry (found : v.Matches w v') :
    Tracks R same w (ancestry setting v) fun _ => Engine.ancestry setting' v' := by
  intro s t related
  obtain ⟨names, here, there⟩ := facing.plan.ancestry (facing.opposite related).kindred found
  exact .stay related rfl here fun _ => there

theorem hasFeature (found : v.Matches w v') (feature : String) :
    Tracks R same w (hasFeature setting v feature) fun _ => Engine.hasFeature setting' v' feature := by
  intro s t related known s' ended
  obtain ⟨rfl, ended'⟩ := facing.plan.hasFeature (facing.opposite related).kindred found ended
  exact ⟨known, t, w, .refl w, rfl, related, 0, fun _ _ => ended'⟩

theorem contextHelper? (found : v.Matches w v') (name : String) (isAttribute : Option Bool) :
    Tracks R same w (contextHelper? setting v name isAttribute) fun _ =>
      Engine.contextHelper? setting' v' name isAttribute := by
  intro s t related
  obtain ⟨helper, here, there⟩ :=
    facing.plan.contextHelper? (facing.opposite related).kindred found name isAttribute
  exact .stay related rfl here fun _ => there

theorem navigate (found : v.Matches w v') (feature : String) :
    Tracks R alike w (navigate v feature) fun _ => Engine.navigate v' feature := by
  have counted (s : Engine) : Unmoved s { s with navigations := s.navigations + 1 } :=
    ⟨⟨rfl, rfl, rfl, rfl, rfl⟩, rfl⟩
  intro s t related
  have brings : Brings (Value.Matches w) (s.store.navigate v feature) (t.store.navigate v' feature) :=
    ((facing.opposite related).readFeature found feature).map fun _ _ => asSequence_matches
  exact Tracks.collaborate brings _ _ (facing.unmoved related (counted s) (counted t))

/-- Native operations answer alike where the same objects are cited. -/
theorem nativeAnswer (related : R w s t) (name : String) {args args' : List Value}
    (found : Value.Alike w args args') : Brings (Value.Matches w)
      (nativeAnswer setting s.store name args) (Engine.nativeAnswer setting' t.store name args') := by
  have opposite := facing.opposite related
  unfold Engine.nativeAnswer
  rw [facing.plan.navigator, facing.plan.natives]
  cases setting.navigator with
  | bare => exact .ok (by simp [found.length_eq])
  | full =>
    cases known : setting.helpers.natives.get? name with
    | none => exact .error
    | some native =>
      have cites {u u' : Value} (found : u.Matches w u') : s.store.cite u' = s.store.cite u := by
        have text := opposite.textOf found true
        rwa [opposite.store] at text
      rw [opposite.store]
      exact ((facing.natives known).answers opposite.apart opposite.everyone cites found).map
        fun _ _ => asSequence_matches

theorem callNative {name : String} {args args' : List Value} (found : Value.Alike w args args') :
    Tracks R alike w (callNative setting name args) fun _ =>
      Engine.callNative setting' name args' := by
  have counted (s : Engine) :
      Unmoved s (noteHelper name { s with helperInvocations := s.helperInvocations + 1 }) :=
    ⟨⟨rfl, rfl, rfl, rfl, rfl⟩, rfl⟩
  intro s t related
  exact Tracks.collaborate (facing.nativeAnswer related name found) _ _
    (facing.unmoved related (counted s) (counted t))

theorem universal {op : Universal} {args args' : List Value} (found : v.Matches w v')
    (more : Value.Alike w args args') :
    Tracks R alike w (universal setting op v args) fun _ => Engine.universal setting' op v' args' := by
  intro s t related
  refine universal_tracks (facing.unmoved related) found more (facing.ancestry found) fun _ => ?_
  exact (List.Forall₂.cons found more).imp fun _ _ found =>
    .same fun _ shown => ((facing.opposite related).textOf found false).trans shown

/-! Instances. -/

theorem instancesIn (cls : String) (models : List (String × Provider)) :
    Tracks R (fun w => Value.Alike w) w (instancesIn setting cls models) fun _ =>
      Engine.instancesIn setting' cls models := by
  induction models generalizing w with
  | nil => exact .pure .nil
  | cons source rest ih =>
    obtain ⟨name, provider⟩ := source
    refine .state fun s t related => ?_
    rw [(facing.opposite related).store]
    have lists : Tracks R same w (collaborate ("objects of " ++ name) (provider.objects s.store))
        fun _ => collaborate ("objects of " ++ name) (provider.objects s.store) :=
      .collaborate (.refl _)
    refine lists.bind (fun {w₁ objects _} _ same => ?_) s t related
    subst same
    have chosen {w₂ : World} (h : Handle) : Tracks R same w₂
        (do return (← Engine.ancestry setting (.object h)).has cls) fun _ => do
          return (← Engine.ancestry setting' (.object h)).has cls := by
      intro s t related
      exact Tracks.bind (facing.ancestry (facing.given related h))
        (fun _ same => .pure (by rw [same])) s t related
    refine .bind (filterM_tracks (fun h _ => chosen h) objects) fun {w₂ found _} _ same => ?_
    subst same
    refine .bind ih fun {w₃ others _} _ alike s t related => ?_
    refine Tracks.pure (List.rel_append ?_ alike) s t related
    exact List.forall₂_map_left_iff.2 (List.forall₂_map_right_iff.2
      (List.forall₂_same.2 fun h _ => facing.given related h))

theorem onType {type name : String} {args args' : List Value} (found : Value.Alike w args args')
    {run : Run Engine Value} (asked : onType setting type name args = some run) :
    ∃ run', Engine.onType setting' type name args' = some run' ∧ Tracks R alike w run fun _ => run' := by
  have collects (cls : String) (models : List (String × Provider)) : Tracks R alike w
      (do return .collectionOf .set (← Engine.instancesIn setting cls models)) fun _ => do
        return .collectionOf .set (← Engine.instancesIn setting' cls models) :=
    .bind (facing.instancesIn cls models) fun _ alike s t related =>
      Tracks.pure (Value.collectionOf_matches (facing.opposite related).apart alike) s t related
  unfold Engine.onType at asked ⊢
  rw [facing.plan.transformation]
  split at asked
  · cases asked
    rw [if_pos ‹_›]
    refine ⟨_, rfl, ?_⟩
    cases setting.transformation with
    | none => exact .fail
    | some t =>
      dsimp only
      split
      · cases found with
        | nil => exact collects _ _
        | cons => exact .fail
      · cases found with
        | nil => exact .fail
        | @cons u _ us _ first rest =>
          cases rest with
          | cons => cases u <;> exact .fail
          | nil =>
            cases u with
            | string model =>
              obtain rfl := Value.matches_string.1 first
              dsimp only
              unfold allInstancesFrom
              cases t.sources.get? model with
              | none => exact .fail
              | some provider => exact collects _ _
            | _ => exact mismatch_tracks
  · cases asked

/-- An operation of the type of a value is one of the type of any other that matches. -/
theorem ownOperation? (found : v.Matches w v') {args args' : List Value}
    (more : Value.Alike w args args') (name : String) :
    Option.Rel (fun run run' => Tracks R alike w run fun _ => run') (ownOperation? setting v name args)
      (Engine.ownOperation? setting' v' name args') := by
  by_cases single : ∀ type, v ≠ .type type
  · exact ownOperation_tracks facing.fresh found more name single
  · simp only [not_forall, not_not] at single
    obtain ⟨type, rfl⟩ := single
    obtain rfl := Value.matches_type.1 found
    change Option.Rel _ (Engine.onType setting type name args) (Engine.onType setting' type name args')
    cases asked : Engine.onType setting type name args with
    | none =>
      rw [onType_none asked]
      exact .none
    | some run =>
      obtain ⟨run', asked', tracks⟩ := facing.onType more asked
      rw [asked']
      exact .some tracks

theorem unhelpedCall (name : String) (found : v.Matches w v') {args args' : List Value}
    (more : Value.Alike w args args') :
    Tracks R alike w (unhelpedCall setting v name args) fun _ =>
      Engine.unhelpedCall setting' v' name args' := by
  unfold Engine.unhelpedCall
  cases Universal.named? name with
  | some op => exact facing.universal found more
  | none =>
    dsimp only
    have own := facing.ownOperation? found more name
    generalize Engine.ownOperation? setting v name args = run,
      Engine.ownOperation? setting' v' name args' = run' at own
    cases own with
    | some tracks => exact tracks
    | none =>
      rw [facing.plan.natives]
      exact .ite (facing.callNative (.cons found more)) fun _ _ _ => unknownCall_tracks

/-! Look-ups in the trace. -/

theorem resolveTemp {source source' output output' : Value} {rule rule' : Option Value}
    (first : source.Matches w source') (second : output.Matches w output')
    (third : Option.Rel (Value.Matches w) rule rule') :
    Tracks R alike w (ruleCall?.resolveTemp source output rule) fun _ =>
      ruleCall?.resolveTemp source' output' rule' :=
  resolveTemp_tracks (fun output rule within => .reading fun _ _ related =>
    (facing.opposite related).resolve (first.within within) output rule) second third

/-- A call that none of the helpers of the module answers: rules are refused, and what is left are look-ups
and native operations. -/
theorem unknownHelper {name : String} {args args' : List Value} (found : Value.Alike w args args')
    (unknown : setting.helpers.module.get? name = none) (self : Evaluator) (family : Nat → Evaluator) :
    Tracks R alike w (callModule self setting name args) fun n =>
      callModule (family n) setting' name args' := by
  have unknown' := facing.plan.unknown unknown
  unfold callModule
  simp only [unknown, unknown', facing.plan.transformation]
  cases given : setting.transformation with
  | none => exact facing.callNative found
  | some t =>
    have refuses {w : World} {rule : String} {next : Unit → Run Engine Value}
        {runs : Nat → Run Engine Value} :
        Tracks R alike w (refuseWhileMatching rule >>= next) runs := by
      intro s t' related a s' ended
      obtain ⟨fault, failed⟩ := refused rule ((facing.opposite related).refusing t given)
      rw [bind_of_failure failed] at ended
      cases ended
    simp only [Option.bind_some, ruleCall?]
    cases t.module.lazyRule? name with
    | some rule =>
      cases found with
      | nil => exact .fail
      | cons first rest =>
        cases rest with
        | nil => exact refuses
        | cons => exact .fail
    | none =>
      cases t.module.calledRule? name with
      | some rule => exact refuses
      | none =>
        dsimp only
        by_cases resolves : name = "resolveTemp"
        · simp only [if_pos resolves]
          cases found with
          | nil => exact .fail
          | cons first rest =>
            cases rest with
            | nil => exact .fail
            | cons second rest =>
              cases rest with
              | nil => exact facing.resolveTemp first second .none
              | cons third rest =>
                cases rest with
                | nil => exact facing.resolveTemp first second (.some third)
                | cons => exact .fail
        · simp only [if_neg resolves]
          exact facing.callNative found

end Facing

namespace Pursuing
variable (pursuing : Pursuing R setting setting' self family)
include pursuing

theorem callModule (name : String) {args args' : List Value} (found : Value.Alike w args args') :
    Tracks R alike w (callModule self setting name args) fun n =>
      Engine.callModule (family n) setting' name args' := by
  cases known : setting.helpers.module.get? name with
  | some helper => exact pursuing.led.moduleHelper known (pursuing.ofModule name) found
  | none => exact pursuing.facing.unknownHelper found known self family

theorem callOn (name : String) (found : v.Matches w v') {args args' : List Value}
    (more : Value.Alike w args args') :
    Tracks R alike w (callOn self setting v name args) fun n =>
      Engine.callOn (family n) setting' v' name args' := by
  refine .bind (pursuing.facing.contextHelper? found name none) fun {w' helper _} within same => ?_
  subst same
  cases helper with
  | some helper => exact pursuing.led.invokeHelper helper (found.within within) (alike_within more within)
  | none => exact pursuing.facing.unhelpedCall name (found.within within) (alike_within more within)

theorem plainNavigation (found : v.Matches w v') (feature : String) :
    Tracks R alike w (plainNavigation self setting v feature) fun n =>
      Engine.plainNavigation (family n) setting' v' feature := by
  have own : v'.builtinType?.isNone = v.builtinType?.isNone := by rw [found.builtinType?]
  unfold Engine.plainNavigation
  dsimp only
  rw [own]
  refine .bind (pursuing.facing.contextHelper? found feature (some true)) fun {w' helper _} within same => ?_
  subst same
  have found := found.within within
  cases helper with
  | none => exact .ite (pursuing.facing.navigate found feature) mismatch_tracks
  | some helper =>
    refine .bind (pursuing.facing.hasFeature found feature) fun {w'' known _} within same => ?_
    subst same
    have found := found.within within
    exact .ite (pursuing.facing.navigate found feature) (pursuing.led.invokeHelper helper found .nil)

theorem navigation (found : v.Matches w v') (feature : String) :
    Tracks R alike w (navigation self setting v feature) fun n =>
      Engine.navigation (family n) setting' v' feature := by
  cases found using Value.Matches.cases with
  | undefined => exact .pure (by simp [alike])
  | thisModule title => exact pursuing.ofModule feature
  | tuple fields fields' parts => exact tuple_tracks parts feature
  | _ => exact pursuing.plainNavigation ‹_› feature

theorem method (name : String) (args : List Expr) (found : v.Matches w v')
    (bound : env.Matches w env') :
    Tracks R alike w (method self setting env v name args) fun n =>
      Engine.method (family n) setting' env' v' name args := by
  have single (v v' : Value) (found : v.Matches w v') : Tracks R alike w
      (evaluateAll self env args >>= fun args => Engine.callOn self setting v name args)
      fun n => evaluateAll (family n) env' args >>= fun args =>
        Engine.callOn (family n) setting' v' name args :=
    .bind (pursuing.led.evaluateAll bound) fun within more =>
      pursuing.callOn name (found.within within) more
  cases found using Value.Matches.cases with
  | thisModule title =>
    exact .bind (pursuing.led.evaluateAll bound) fun _ found => pursuing.callModule name found
  | collection kind items items' alike found =>
    unfold Engine.method
    cases CollectionOperation.named? name with
    | some op => exact pursuing.led.collectionMethod bound alike
    | none => exact single _ _ found
  | _ => exact single _ _ ‹_›

theorem step (e : Expr) (bound : env.Matches w env') :
    Tracks R alike w (step setting self env e) fun n => Engine.step setting' (family n) env' e := by
  cases e with
  | navigation source feature loc =>
    exact .bind (pursuing.expression source bound) fun _ found => pursuing.navigation found feature
  | method receiver name args loc =>
    exact .bind (pursuing.expression receiver bound) fun within found =>
      pursuing.method name args found (bound.within within)
  | call name args loc =>
    exact .bind (pursuing.led.evaluateAll bound) fun _ found => pursuing.callModule name found
  | _ => exact pursuing.led.part rfl bound

end Pursuing

/-- Evaluators come to the same as one another if, as far as they do in evaluating expressions, they do in
reading attributes of the module. -/
theorem evaluateWithin_pursuing {ι : Type} {R : ι → World → Engine → Engine → Prop}
    (facing : ∀ i, Facing (R i) setting setting')
    (reads : ∀ n, (∀ i, Pursued (R i) setting setting' (evaluateWithin setting n) (evaluateWithin setting')) →
      ∀ i w name, Tracks (R i) alike w (moduleAttribute (evaluateWithin setting n) setting name)
        fun n => moduleAttribute (evaluateWithin setting' n) setting' name) (n : Nat) (i : ι) :
    Pursuing (R i) setting setting' (evaluateWithin setting n) (evaluateWithin setting') := by
  have pursued : ∀ n i, Pursued (R i) setting setting' (evaluateWithin setting n)
      (evaluateWithin setting') := by
    intro n
    induction n with
    | zero => exact fun i => ⟨facing i, fun _ _ => .cutOff⟩
    | succ n ih =>
      intro i
      refine ⟨facing i, fun e bound => .deeper (.mapFault ?_)⟩
      exact (Pursuing.mk (ih i) fun name => reads n ih i _ name).step e bound
  exact ⟨pursued n i, fun name => reads n (pursued n) i _ name⟩

end Engine
end Metamorph
