import Metamorph.Proofs.Twin

/-! Evaluators that lead others. Where an evaluator leads others through the parts of an expression it leads
them through what is put together from these: lists of parts, helpers, operators, and loops. What is called
by name, or asked of objects, is left to those who know more of the states. -/
namespace Metamorph.Engine
open Run

/-- The settings are the same, but for what attributes of the module are computed by. -/
structure SamePlan (setting setting' : Setting) : Prop where
  navigator : setting'.navigator = setting.navigator
  settings : setting'.settings = setting.settings
  transformation : setting'.transformation = setting.transformation
  contextual : setting'.helpers.contextual = setting.helpers.contextual
  natives : setting'.helpers.natives = setting.helpers.natives
  has : ∀ name, setting'.helpers.has name = setting.helpers.has name
  module : ∀ name, Option.Rel
    (fun h h' : Helper => h'.isAttribute = h.isAttribute ∧ (h.isAttribute = false → h' = h))
    (setting.helpers.module.get? name) (setting'.helpers.module.get? name)

variable {R : World → Engine → Engine → Prop} {setting setting' : Setting} {self : Evaluator}
  {family : Nat → Evaluator} {w : World} {s t : Engine} {v v' : Value} {env env' : Environment}

namespace SamePlan
variable (plan : SamePlan setting setting')
include plan

theorem handle : setting'.handle = setting.handle := by
  unfold Setting.handle
  rw [plan.transformation]

theorem rootEnvironment (bindings : Named Value) :
    setting'.rootEnvironment bindings = setting.rootEnvironment bindings := by
  unfold Setting.rootEnvironment
  rw [plan.handle]

theorem handle_matches : setting.handle.Matches w setting'.handle := by
  rw [plan.handle]
  exact Value.matches_thisModule.2 rfl

theorem rootEnvironment_matches {bindings others : Named Value}
    (found : NamedMatch w bindings others) :
    (setting.rootEnvironment bindings).Matches w (setting'.rootEnvironment others) := by
  rw [plan.rootEnvironment]
  refine .ofRoot (NamedMatch.update (.cons ⟨rfl, ?_⟩ .nil) found)
  exact Value.matches_thisModule.2 rfl

theorem unknown {name : String} (unknown : setting.helpers.module.get? name = none) :
    setting'.helpers.module.get? name = none := by
  have helpers := plan.module name
  rw [unknown] at helpers
  cases known : setting'.helpers.module.get? name with
  | none => rfl
  | some helper =>
    rw [known] at helpers
    cases helpers

end SamePlan

theorem mismatch_tracks {α β : Type} {rel : World → α → β → Prop} {expected context : String}
    {runs : Nat → Run Engine β} :
    Tracks R rel w (mismatch expected v context : Run Engine α) runs :=
  fun s _ _ a s' ended => by
    have failed : (mismatch expected v context : Run Engine α) s ≠ .value a s' := by
      unfold mismatch
      rw [state_bind]
      exact fail_ne_value
    exact absurd ended failed

theorem text_tracks (found : v.Matches w v') :
    Tracks R same w (ruleCall?.text v) fun _ => ruleCall?.text v' := by
  cases v with
  | string text =>
    obtain rfl := Value.matches_string.1 found
    exact .pure rfl
  | _ => exact mismatch_tracks

theorem requireTruth_tracks {op : String} (found : v.Matches w v') :
    Tracks R same w (requireTruth op v) fun _ => Engine.requireTruth op v' :=
  .reading fun _ _ _ => Operation.requireBoolean_alike found

theorem asCollection_alike (found : v.Matches w v') :
    v'.asCollection.1 = v.asCollection.1 ∧ Value.Alike w v.asCollection.2 v'.asCollection.2 := by
  cases found using Value.Matches.cases with
  | collection kind items items' alike => exact ⟨rfl, alike⟩
  | undefined => exact ⟨rfl, .nil⟩
  | _ => exact ⟨rfl, .cons ‹_› .nil⟩

theorem tuple_tracks {fields fields' : List (String × Value)} (parts : NamedMatch w fields fields')
    (feature : String) :
    Tracks R alike w (navigation self setting (.tuple fields) feature) fun n =>
      navigation (family n) setting' (.tuple fields') feature := by
  have part : Option.Rel (Value.Matches w) (Value.field? fields feature)
    (Value.field? fields' feature) := parts.get? feature
  unfold navigation
  dsimp only
  generalize Value.field? fields feature = read, Value.field? fields' feature = read' at part
  cases part with
  | none => exact .fail
  | some found => exact .pure found

theorem distanceTo_tracks {op : Universal} {target target' : Value}
    (asks : Tracks R same w (ancestry setting v) fun _ => ancestry setting' v')
    (other : target.Matches w target') :
    Tracks R same w (distanceTo setting op v target) fun _ => distanceTo setting' op v' target' := by
  refine .bind asks fun {w' names _} within same => ?_
  subst same
  cases target with
  | type name =>
    obtain rfl := Value.matches_type.1 other
    exact .pure rfl
  | _ => exact mismatch_tracks

/-- A look-up in the trace is tracked if those are whose names are known. -/
theorem resolveTemp_tracks {source source' output output' : Value} {rule rule' : Option Value}
    (resolves : ∀ {w'} output rule, w.Within w' → Tracks R alike w'
      (Run.state >>= fun s : Engine => Run.ofResult (s.trace.resolve s.store source output rule))
      fun _ => Run.state >>= fun t : Engine =>
        Run.ofResult (t.trace.resolve t.store source' output rule))
    (second : output.Matches w output') (third : Option.Rel (Value.Matches w) rule rule') :
    Tracks R alike w (ruleCall?.resolveTemp source output rule) fun _ =>
      ruleCall?.resolveTemp source' output' rule' := by
  have named : Tracks R same w (rule.mapM ruleCall?.text) fun _ => rule'.mapM ruleCall?.text := by
    cases third with
    | none => exact .pure rfl
    | some found => exact .bind (text_tracks found) fun _ same => .pure (by rw [same])
  refine .bind named fun {w₁ rule _} within same => ?_
  subst same
  refine .bind (text_tracks (second.within within)) fun {w₂ output _} within' same => ?_
  subst same
  exact resolves output rule (within.trans within')

/-- An operation of the type of a value, unless the value is itself a type, which would be asked for
its instances. -/
theorem ownOperation_tracks (fresh : ∀ {w s t}, R w s t → R (w.pair s.made t.made)
      { s with made := s.made + 1 } { t with made := t.made + 1 })
    (found : v.Matches w v') {args args' : List Value} (more : Value.Alike w args args') (name : String)
    (single : ∀ type, v ≠ .type type) :
    Option.Rel (fun run run' => Tracks R alike w run fun _ => run') (ownOperation? setting v name args)
      (ownOperation? setting' v' name args') := by
  cases found using Value.Matches.cases with
  | type name => exact absurd rfl (single name)
  | string text =>
    simp only [ownOperation?]
    cases Operation.OnText.named? name with
    | none => exact .none
    | some op => exact .some (.reading fun _ _ _ => Operation.onText_alike more)
  | integer | real =>
    simp only [ownOperation?]
    cases Operation.OnNumber.named? name with
    | none => exact .none
    | some op =>
      refine .some (.state fun s t related => ?_)
      intro a s' ended
      have paired : (w.pair s.made t.made).ids s.made t.made := .inr ⟨rfl, rfl⟩
      have found := alike_within more (w.within_pair s.made t.made)
      obtain ⟨b, t', w', within, rest⟩ := Tracks.ofResult
        (Operation.onNumber_alike paired rfl found) _ _ (fresh related) a s' ended
      exact ⟨b, t', w', .trans (w.within_pair _ _) within, rest⟩
  | _ => exact .none

/-- Whether the node reads a feature or calls something by name. -/
def reaches : Expr → Bool
  | .navigation _ _ _ | .method _ _ _ _ | .call _ _ _ => true
  | _ => false

/-- Nothing changed that an evaluation sees, nor the phase. -/
structure Unmoved (s s' : Engine) : Prop extends Still s s' where
  phase : s'.phase = s.phase

section
variable (unmoved : ∀ {s' t'}, Unmoved s s' → Unmoved t t' → R w s' t') (found : v.Matches w v')
include unmoved found

theorem logDebug_tracks (label : String)
    (shown : Brings Eq (s.store.display v) (t.store.display v')) :
    TracksAt R alike w s t (logDebug label v) fun _ => logDebug label v' := by
  refine .reading shown fun text _ same => ?_
  subst same
  have reported (s : Engine) : Unmoved s (report .info ("debug: " ++ label ++ text) s) :=
    ⟨⟨rfl, rfl, rfl, rfl, rfl⟩, rfl⟩
  exact Tracks.pure found _ _ (unmoved (reported s) (reported t))

/-- The operations of all values, some of which show these as texts. -/
theorem universal_tracks {op : Universal} {args args' : List Value} (more : Value.Alike w args args')
    (asks : Tracks R same w (ancestry setting v) fun _ => ancestry setting' v')
    (shown : op = .toString ∨ op = .debug → List.Forall₂
      (fun u u' => Brings Eq (s.store.display u) (t.store.display u')) (v :: args) (v' :: args')) :
    TracksAt R alike w s t (universal setting op v args) fun _ => universal setting' op v' args' := by
  have related : R w s t := unmoved ⟨⟨rfl, rfl, rfl, rfl, rfl⟩, rfl⟩ ⟨⟨rfl, rfl, rfl, rfl, rfl⟩, rfl⟩
  cases more with
  | nil =>
    cases op with
    | isUndefined => exact Tracks.pure (by simp [alike, found.builtinType?]) s t related
    | type => exact Tracks.bind asks (fun _ same => .pure (by simp [alike, same])) s t related
    | toString =>
      obtain ⟨own, -⟩ := List.forall₂_cons.1 (shown (.inl rfl))
      exact .reading own fun text _ same => Tracks.pure (by simp [alike, same]) s t related
    | debug =>
      obtain ⟨own, -⟩ := List.forall₂_cons.1 (shown (.inr rfl))
      exact logDebug_tracks unmoved found "" own
    | isKindOf | isTypeOf => exact Tracks.fail s t related
  | cons first rest =>
    cases rest with
    | nil =>
      cases op with
      | isKindOf | isTypeOf =>
        refine Tracks.bind (distanceTo_tracks asks first) (fun _ same => .pure ?_) s t related
        simp [alike, same]
      | debug =>
        obtain ⟨own, label⟩ := List.forall₂_cons.1 (shown (.inr rfl))
        refine .reading (List.forall₂_cons.1 label).1 fun text _ same => ?_
        subst same
        exact logDebug_tracks unmoved found _ own
      | isUndefined | toString | type => exact Tracks.fail s t related
    | cons => cases op <;> exact Tracks.fail s t related

end

/-- Evaluators that follow another one in evaluating expressions, in states that correspond one to one. -/
structure Led (R : World → Engine → Engine → Prop) (setting setting' : Setting) (leader : Evaluator)
    (family : Nat → Evaluator) : Prop where
  apart : ∀ {w s t}, R w s t → w.OneToOne
  unmoved : ∀ {w s t s' t'}, R w s t → Unmoved s s' → Unmoved t t' → R w s' t'
  plan : SamePlan setting setting'
  expression : ∀ {w env env'} e, env.Matches w env' →
    Tracks R alike w (leader env e) fun n => family n env' e

namespace Led
variable (led : Led R setting setting' self family)
include led

theorem note (change : Engine → Engine) (unmoved : ∀ s, Unmoved s (change s) := by
    exact fun _ => ⟨⟨rfl, rfl, rfl, rfl, rfl⟩, rfl⟩) :
    Tracks R same w (Run.modify change) fun _ => Run.modify change := by
  intro s t related a s' ended
  cases ended
  exact ⟨(), _, w, .refl w, rfl, led.unmoved related (unmoved s) (unmoved t), 0, fun n _ => rfl⟩

theorem invokeHelper (helper : Helper) {receiver receiver' : Value} {args args' : List Value}
    (found : receiver.Matches w receiver') (more : Value.Alike w args args') :
    Tracks R alike w (invokeHelper self setting helper receiver args) fun n =>
      Engine.invokeHelper (family n) setting' helper receiver' args' := by
  unfold Engine.invokeHelper
  rw [more.length_eq]
  refine .ite .fail (.bind (led.note _) fun {w' _ _} within _ => ?_)
  refine led.expression _ (.push (led.plan.rootEnvironment_matches .nil) ?_)
  refine NamedMatch.update (.cons ⟨rfl, found.within within⟩ .nil) ?_
  have bound := alike_within more within
  generalize helper.parameters.map (·.name) = names
  clear more found
  unfold NamedMatch
  induction bound generalizing names with
  | nil => cases names <;> exact .nil
  | cons first _ ih =>
    cases names with
    | nil => exact .nil
    | cons name names => exact .cons ⟨rfl, first⟩ (ih names)

theorem applied {operation operation' : (Value → String) → Result Value}
    (brings : ∀ {typeOf typeOf' : Value → String}, w.OneToOne →
      Brings (Value.Matches w) (operation typeOf) (operation' typeOf')) :
    Tracks R alike w (applied operation) fun _ => Engine.applied operation' :=
  .reading fun _ _ twins => brings (led.apart twins)

theorem evaluateAll {es : List Expr} (bound : env.Matches w env') :
    Tracks R (fun w => Value.Alike w) w (evaluateAll self env es) fun n =>
      Engine.evaluateAll (family n) env' es := by
  induction es generalizing w with
  | nil => exact .pure .nil
  | cons e rest ih =>
    refine .bind (led.expression e bound) fun within first => ?_
    refine .bind (ih (bound.within within)) fun within' others => ?_
    exact .pure (.cons (first.within within') others)

theorem evaluateFields {fields : List (TupleField Expr)} (bound : env.Matches w env') :
    Tracks R NamedMatch w (evaluateFields self env fields) fun n =>
      Engine.evaluateFields (family n) env' fields := by
  induction fields generalizing w with
  | nil => exact .pure .nil
  | cons field rest ih =>
    refine .bind (led.expression field.value bound) fun within first => ?_
    refine .bind (ih (bound.within within)) fun within' others => ?_
    exact .pure (.cons ⟨rfl, first.within within'⟩ others)

theorem binary (op : BinaryOperator) (lhs rhs : Expr) (bound : env.Matches w env') :
    Tracks R alike w (binary self env op lhs rhs) fun n =>
      Engine.binary (family n) env' op lhs rhs := by
  unfold Engine.binary
  refine .ite ?_ ?_
  · refine .bind (led.expression lhs bound) fun {w₁ l l'} within left => ?_
    refine .bind (requireTruth_tracks left) fun {w₂ a _} within' same => ?_
    subst same
    cases Operation.decided? op a with
    | some b => exact .pure (by simp [alike])
    | none =>
      refine .bind (led.expression rhs (bound.within (within.trans within'))) ?_
      intro w₃ r r' within'' right
      exact .bind (requireTruth_tracks right) fun _ same => .pure (by simp [alike, same])
  · refine .bind (led.expression lhs bound) fun {w₁ l l'} within left => ?_
    refine .bind (led.expression rhs (bound.within within)) fun {w₂ r r'} within' right => ?_
    exact led.applied fun oneToOne => Operation.binary_alike (left.within within') right oneToOne

theorem iterate {parameter accumulator : String} {body : Expr} {acc acc' : Value}
    {items items' : List Value} (bound : env.Matches w env') (first : acc.Matches w acc')
    (found : Value.Alike w items items') :
    Tracks R alike w (iterate self env parameter accumulator body acc items) fun n =>
      Engine.iterate (family n) env' parameter accumulator body acc' items' := by
  induction items generalizing w acc acc' items' with
  | nil =>
    cases found
    exact .pure first
  | cons x rest ih =>
    obtain _ | ⟨item, others⟩ := found
    refine .bind (led.expression body (bound.push
      (.update .nil (.cons ⟨rfl, item⟩ (.cons ⟨rfl, first⟩ .nil))))) fun within next => ?_
    exact ih (bound.within within) next (alike_within others within)

theorem elementwise {parameter : String} {body : Expr} (bound : env.Matches w env') :
    Elementwise R w (elementwise self env parameter body) fun n =>
      Engine.elementwise (family n) env' parameter body :=
  fun within found => led.expression body
    ((bound.within within).push (.cons ⟨rfl, found⟩ .nil))

theorem collectionOperation {op : CollectionOperation} {kind : CollectionKind}
    {items items' : List Value} {parameter : Option String} {body : Option Expr}
    (bound : env.Matches w env') (found : Value.Alike w items items') :
    Tracks R alike w (collectionOperation self setting env op kind items parameter body) fun n =>
      Engine.collectionOperation (family n) setting' env' op kind items' parameter body := by
  have name : iteratorName setting' parameter = iteratorName setting parameter := by
    unfold iteratorName
    rw [led.plan.settings]
  cases op with
  | iterator op =>
    cases body with
    | none => exact .fail
    | some body =>
      simp only [Engine.collectionOperation, name]
      exact .state fun s t twins =>
        iterate_tracks led.apart (led.elementwise bound) found s t twins
  | combination op =>
    cases body with
    | none => exact .fail
    | some body =>
      refine .bind (led.expression body bound) fun within argument => ?_
      exact led.applied fun oneToOne =>
        Collection.combine_alike oneToOne (alike_within found within) argument
  | query op =>
    simp only [Engine.collectionOperation]
    exact led.applied fun oneToOne => Collection.query_alike oneToOne found

theorem collectionMethod {op : CollectionOperation} {kind : CollectionKind}
    {items items' : List Value} {args : List Expr} (bound : env.Matches w env')
    (found : Value.Alike w items items') :
    Tracks R alike w (collectionMethod self setting env op kind items args) fun n =>
      Engine.collectionMethod (family n) setting' env' op kind items' args := by
  unfold Engine.collectionMethod
  split
  · exact led.collectionOperation bound found
  · exact .fail
  · exact led.collectionOperation bound found
  · exact .fail
  · exact led.collectionOperation bound found
  · exact .fail

/-- A call on the module that one of its helpers answers. -/
theorem moduleHelper {name : String} {helper : Helper} {args args' : List Value}
    (known : setting.helpers.module.get? name = some helper)
    (reads : Tracks R alike w (moduleAttribute self setting name) fun n =>
      moduleAttribute (family n) setting' name) (found : Value.Alike w args args') :
    Tracks R alike w (callModule self setting name args) fun n =>
      callModule (family n) setting' name args' := by
  have helpers := led.plan.module name
  rw [known] at helpers
  cases known' : setting'.helpers.module.get? name with
  | none =>
    rw [known'] at helpers
    cases helpers
  | some helper' =>
    rw [known'] at helpers
    obtain ⟨kind, same⟩ : helper'.isAttribute = helper.isAttribute ∧
      (helper.isAttribute = false → helper' = helper) := by cases helpers; assumption
    unfold callModule
    simp only [known, known', kind]
    have empty : args'.isEmpty = args.isEmpty := by cases found <;> rfl
    rw [empty]
    cases isAttribute : helper.isAttribute with
    | false =>
      rw [same isAttribute]
      exact led.invokeHelper helper led.plan.handle_matches found
    | true =>
      cases found with
      | nil => exact reads
      | @cons u _ us _ first rest =>
        -- An attribute has no parameters.
        simp only [Helper.isAttribute, List.isEmpty_iff] at isAttribute
        have failing : Engine.invokeHelper self setting helper setting.handle (u :: us) =
            Run.fail (.arity helper.name 0 (us.length + 1)) := by
          simp [Engine.invokeHelper, isAttribute]
        exact failing ▸ .fail

/-- Of a node that does not call by name or read features the parts are all that matters. -/
theorem part {e : Expr} (plain : reaches e = false) (bound : env.Matches w env') :
    Tracks R alike w (step setting self env e) fun n => step setting' (family n) env' e := by
  cases e with
  | literal value loc => exact .pure (by cases value <;> simp [alike, Literal.value])
  | «variable» name loc => exact .ofResult (bound.lookup name _)
  | typeName name loc => exact .pure (by simp [alike])
  | lambda parameter body loc => exact .pure (by simp [alike])
  | binary op lhs rhs loc => exact led.binary op lhs rhs bound
  | unary op operand loc =>
    refine .bind (led.expression operand bound) fun _ found => ?_
    exact led.applied fun _ => Operation.unary_alike found
  | conditional condition thenBranch elseBranch loc =>
    refine .bind (led.expression condition bound) fun within found => ?_
    rw [found.holds]
    exact .ite (led.expression thenBranch (bound.within within))
      (led.expression elseBranch (bound.within within))
  | letIn name init body tag loc =>
    refine .bind (led.expression init bound) fun within found => ?_
    exact led.expression body ((bound.within within).push (.cons ⟨rfl, found⟩ .nil))
  | iterate source parameter accumulator init body tag loc =>
    refine .bind (led.expression source bound) fun {w₁ v v'} within found => ?_
    cases v with
    | collection kind items =>
      obtain ⟨items', alike, rfl⟩ := Value.matches_collection.1 found
      refine .bind (led.expression init (bound.within within)) fun within' first => ?_
      exact led.iterate (bound.within (within.trans within')) first (alike_within alike within')
    | _ => exact mismatch_tracks
  | collection kind elements loc =>
    refine .bind (led.evaluateAll bound) fun _ found s t related => ?_
    exact Tracks.pure (Value.collectionOf_matches (led.apart related) found) s t related
  | arrow source op parameter body loc =>
    refine .bind (led.expression source bound) fun {w₁ v v'} within found => ?_
    obtain ⟨kind, items⟩ := asCollection_alike found
    dsimp only
    rw [kind]
    exact led.collectionOperation (bound.within within) items
  | tuple fields loc =>
    exact .bind (led.evaluateFields bound) fun _ found =>
      .pure (Value.matches_tuple.2 ⟨_, found, rfl⟩)
  | «foreign» kind loc => exact .fail
  | navigation | method | call => simp [reaches] at plain

end Led

end Metamorph.Engine
