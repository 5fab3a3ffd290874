import Metamorph.Proofs.Standard

/-! Evaluation that is up to a standard. If two evaluators do the same for the parts of an expression,
wherever variables and state are up to the standard, they do for the whole; what it comes to keeps to the
norm, and so does the state that is left. -/
namespace Metamorph

/-- Everything that is bound keeps to the norm. -/
def Environment.Meets (norm : Norm) (env : Environment) : Prop :=
  ∀ frame ∈ env.frames, norm.Table frame.bindings

namespace Environment.Meets
variable {norm : Norm} {env : Environment} {bindings : Named Value} {name : String}

theorem ofRoot (meets : norm.Table bindings) : (Environment.ofRoot bindings).Meets norm :=
  Environment.Each.ofRoot meets

theorem push (meets : env.Meets norm) (table : norm.Table bindings) :
    (env.push name bindings).Meets norm :=
  Environment.Each.push meets table

theorem get? (meets : env.Meets norm) {v : Value} (found : env.get? name = some v) :
    v.Meets norm :=
  Environment.Each.get? meets found

theorem snapshot (meets : env.Meets norm) : norm.Table env.snapshot :=
  Environment.Each.snapshot meets

theorem rootEnvironment (setting : Setting) (meets : norm.Table bindings) :
    (setting.rootEnvironment bindings).Meets norm :=
  Environment.Each.rootEnvironment setting trivial meets

end Environment.Meets

theorem Value.Meets.field {norm : Norm} {fields : List (String × Value)} {name : String} {v : Value}
    (meets : (Value.tuple fields).Meets norm) (found : Value.field? fields name = some v) :
    v.Meets norm := by
  obtain ⟨before, after, rfl, -⟩ := List.lookup_eq_some_iff.1 found
  exact fieldsMeet_iff.1 meets (name, v) (List.mem_append_right _ List.mem_cons_self)

theorem Literal.value_meets {norm : Norm} (literal : Literal) : literal.value.Meets norm := by
  cases literal <;> trivial

namespace Engine.Standard
variable {setting : Setting} {std : Standard setting} {α : Type} {v : Value}

/-- What is asked of two evaluators and of the rules they invoke. -/
structure Serves (std : Standard setting) (leader follower : Evaluator) : Prop where
  expression : ∀ {env e}, env.Meets std.norm →
    std.Upholds (·.Meets std.norm) (leader env e) (follower env e)
  lazy : ∀ {t rule v}, HasLazy setting t rule → v.Meets std.norm →
    std.Upholds (·.Meets std.norm) (invokeLazy leader setting t rule v)
      (invokeLazy follower setting t rule v)
  called : ∀ {t rule args}, HasCalled setting t rule → (∀ v ∈ args, v.Meets std.norm) →
    std.Upholds (·.Meets std.norm) (invokeCalled leader setting t rule args)
      (invokeCalled follower setting t rule args)

section
variable {post : α → Prop}

theorem mismatch_upholds (expected : String) (v : Value) (context : String) :
    std.Upholds post (mismatch expected v context) (mismatch expected v context) :=
  .state fun _ kept => Upholds.fail rfl _ kept

theorem ancestry_upholds (v : Value) :
    std.Upholds (fun _ => True) (ancestry setting v) (ancestry setting v) := by
  unfold ancestry
  refine .state fun s kept => ?_
  split
  · exact .pure trivial kept
  · exact .pure trivial kept
  · split <;> exact .pure trivial kept
  · exact .pure trivial kept

theorem hasFeature_upholds (v : Value) (feature : String) :
    std.Upholds (fun _ => True) (hasFeature setting v feature) (hasFeature setting v feature) := by
  unfold hasFeature
  split
  · exact .pure trivial
  · exact .asking fun s kept => Store.Meets.hasFeature_fails

theorem contextHelper?_upholds (v : Value) (name : String) (isAttribute : Option Bool) :
    std.Upholds (fun _ => True) (contextHelper? setting v name isAttribute)
      (contextHelper? setting v name isAttribute) := by
  unfold contextHelper?
  split
  · exact .bind (ancestry_upholds v) fun _ _ => .pure trivial
  · exact .pure trivial

theorem displayed_upholds (v : Value) :
    std.Upholds (fun _ => True) (displayed v) (displayed v) :=
  .reading fun _ _ => Store.Meets.textOf_fails

theorem applied_upholds {operation : (Value → String) → Result Value}
    (sound : ∀ typeOf, std.norm.Yields (operation typeOf)) :
    std.Upholds (·.Meets std.norm) (applied operation) (applied operation) :=
  .reading fun _ _ => sound _

theorem requireTruth_upholds (op : String) (v : Value) :
    std.Upholds (fun _ => True) (requireTruth op v) (requireTruth op v) :=
  .reading fun _ _ => Operation.requireBoolean_fails

theorem navigate_upholds (v : Value) (feature : String) :
    std.Upholds (·.Meets std.norm) (navigate v feature) (navigate v feature) :=
  .bind (.noting (fun _ => ⟨_, _, _, _, _, _, _, _, _, rfl⟩) fun _ => rfl) fun _ _ =>
    .asking fun _ kept => kept.meets.store.navigate

theorem logDebug_upholds (label : String) (own : v.Meets std.norm) :
    std.Upholds (·.Meets std.norm) (logDebug label v) (logDebug label v) :=
  .bind (displayed_upholds v) fun _ _ =>
    .bind (.noting (fun _ => ⟨_, _, _, _, _, _, _, _, _, rfl⟩) fun _ => rfl) fun _ _ => .pure own

theorem distanceTo_upholds (op : Universal) (v target : Value) :
    std.Upholds (fun _ => True) (distanceTo setting op v target) (distanceTo setting op v target) := by
  refine .bind (ancestry_upholds v) fun found _ => ?_
  split
  · exact .pure trivial
  · exact mismatch_upholds _ _ _

theorem universal_upholds (op : Universal) (args : List Value) (own : v.Meets std.norm) :
    std.Upholds (·.Meets std.norm) (universal setting op v args) (universal setting op v args) := by
  unfold universal
  split
  · exact logDebug_upholds _ own
  · exact .bind (displayed_upholds _) fun _ _ => logDebug_upholds _ own
  · exact .pure trivial
  · exact .bind (displayed_upholds _) fun _ _ => .pure trivial
  · exact .bind (ancestry_upholds _) fun _ _ => .pure trivial
  · exact .bind (distanceTo_upholds _ _ _) fun _ _ => .pure trivial
  · exact .bind (distanceTo_upholds _ _ _) fun _ _ => .pure trivial
  all_goals exact .fail rfl

theorem filterM_upholds {p : α → Run Engine Bool}
    (each : ∀ a, std.Upholds (fun _ => True) (p a) (p a)) (items : List α) :
    std.Upholds (fun _ => True) (items.filterM p) (items.filterM p) := by
  have loop (items found : List α) : std.Upholds (fun _ => True) (List.filterAuxM p items found)
      (List.filterAuxM p items found) := by
    induction items generalizing found with
    | nil => exact .pure trivial
    | cons a rest ih => exact .bind (each a) fun _ _ => ih _
  exact .bind (loop items []) fun _ _ => .pure trivial

/-- None of the models of the transformation refuses to list its objects in a way against the norm. -/
theorem instancesIn_upholds (cls : String) {models : List (String × Provider)}
    (allowed : ∀ model ∈ models, model.2.refusals.Allowed std.norm) :
    std.Upholds (fun found => ∀ v ∈ found, v.Meets std.norm) (instancesIn setting cls models)
      (instancesIn setting cls models) := by
  induction models with
  | nil => exact .pure (List.forall_mem_nil _)
  | cons model rest ih =>
    obtain ⟨first, others⟩ := List.forall_mem_cons.1 allowed
    refine .state fun s kept => (?_ : std.Upholds _ _ _) s kept
    have listed : std.norm.Fails (model.2.objects s.store) :=
      Provider.refuse_sound (fun fault refused => first fault (.inl refused)) (.ok trivial)
    refine .bind (.collaborate listed) fun objects _ => ?_
    refine .bind (filterM_upholds (fun h => ?_) objects) fun found _ => .bind (ih others) fun more own => ?_
    · exact .bind (ancestry_upholds _) fun _ _ => .pure trivial
    · refine .pure fun v member => ?_
      rcases List.mem_append.1 member with here | there
      · obtain ⟨h, -, rfl⟩ := List.mem_map.1 here
        trivial
      · exact own v there

end

theorem sources_allowed {t : Transformation} (given : setting.transformation = some t)
    {name : String} {provider : Provider} (known : t.sources.get? name = some provider) :
    provider.refusals.Allowed std.norm :=
  std.models given (name, provider) (List.mem_append_left _ (Named.mem_of_get? known))

theorem onType_upholds {type name : String} {args : List Value} {run : Run Engine Value}
    (found : onType setting type name args = some run) :
    std.Upholds (·.Meets std.norm) run run := by
  have instances {cls : String} {models : List (String × Provider)}
      (allowed : ∀ model ∈ models, model.2.refusals.Allowed std.norm) :
      std.Upholds (·.Meets std.norm)
        (do return Value.collectionOf .set (← instancesIn setting cls models))
        (do return Value.collectionOf .set (← instancesIn setting cls models)) :=
    .bind (instancesIn_upholds cls allowed) fun _ own => .pure (Value.collectionOf_meets own)
  unfold onType at found
  split at found
  · cases found
    split
    · exact .fail rfl
    · rename_i t given
      split
      · split
        · refine instances fun model member => ?_
          obtain ⟨source, -, supplied⟩ := List.mem_filterMap.1 member
          obtain ⟨provider, known, rfl⟩ := Option.map_eq_some_iff.1 supplied
          exact sources_allowed given known
        · exact .fail rfl
      · split
        · unfold allInstancesFrom
          split
          · exact .fail rfl
          · rename_i provider known
            exact instances (List.forall_mem_singleton.2 (sources_allowed given known))
        · exact mismatch_upholds _ _ _
        · exact .fail rfl
  · contradiction

/-- The result of an operation that needs an identity of its own. -/
theorem onNumber_upholds (op : Operation.OnNumber) (args : List Value) (number : v.isNumber = true) :
    std.Upholds (·.Meets std.norm)
      (do
        let s ← Run.state
        Run.modify fun s => { s with made := s.made + 1 }
        Run.ofResult (Operation.onNumber (← Run.state).typeName s.made op v args))
      (do
        let s ← Run.state
        Run.modify fun s => { s with made := s.made + 1 }
        Run.ofResult (Operation.onNumber (← Run.state).typeName s.made op v args)) := by
  refine .state fun s kept => (?_ : std.Upholds _ _ _) s kept
  refine .bind (.noting (fun _ => ⟨_, _, _, _, _, _, _, _, _, rfl⟩) fun _ => rfl) fun _ _ => ?_
  exact .reading fun _ _ => Operation.onNumber_yields number

theorem ownOperation?_upholds {name : String} {args : List Value} {run : Run Engine Value}
    (found : ownOperation? setting v name args = some run) :
    std.Upholds (·.Meets std.norm) run run := by
  unfold ownOperation? at found
  dsimp only at found
  split at found
  · exact onType_upholds found
  · obtain ⟨op, -, rfl⟩ := Option.map_eq_some_iff.1 found
    exact .reading fun _ _ => Operation.onText_yields
  iterate 2
    obtain ⟨op, -, rfl⟩ := Option.map_eq_some_iff.1 found
    exact onNumber_upholds op args rfl
  · contradiction

theorem callNative_upholds (name : String) {args : List Value}
    (own : ∀ v ∈ args, v.Meets std.norm) :
    std.Upholds (·.Meets std.norm) (callNative setting name args) (callNative setting name args) := by
  refine .bind (.noting (fun _ => ⟨_, _, _, _, _, _, _, _, _, rfl⟩) fun _ => rfl) fun _ _ => ?_
  refine .asking fun s kept => ?_
  unfold nativeAnswer
  split
  · exact .ok trivial
  · split
    · rename_i native known
      refine (std.natives known s.store args own).map fun w meets => ?_
      unfold asSequence
      split
      · exact Value.collection_meets nofun (allMeet_iff.1 meets)
      · exact meets
    · exact .error rfl

namespace Serves
variable {leader follower : Evaluator} {env : Environment}

theorem invokeHelper (serves : Serves std leader follower) (helper : Helper) {receiver : Value}
    {args : List Value} (own : receiver.Meets std.norm) (each : ∀ v ∈ args, v.Meets std.norm) :
    std.Upholds (·.Meets std.norm) (invokeHelper leader setting helper receiver args)
      (Engine.invokeHelper follower setting helper receiver args) := by
  unfold Engine.invokeHelper
  split
  · exact .fail rfl
  · refine .bind (.noting (fun _ => ⟨_, _, _, _, _, _, _, _, _, rfl⟩) fun _ => rfl) fun _ _ => ?_
    refine serves.expression (.push (.rootEnvironment setting nofun) ?_)
    exact .update (List.forall_mem_singleton.2 own) (.zip each)

theorem moduleAttribute (serves : Serves std leader follower) (name : String) :
    std.Upholds (·.Meets std.norm) (moduleAttribute leader setting name)
      (Engine.moduleAttribute follower setting name) := by
  refine .state fun s kept => ?_
  split
  · rename_i v known
    have noted : std.Upholds (fun _ => True) (Run.modify (recollect name v)) (Run.modify (recollect name v)) :=
      .noting (fun _ => ⟨_, _, _, _, _, _, _, _, _, rfl⟩) fun _ => rfl
    exact (noted.bind fun _ _ => .pure (kept.meets.attributes.get? known)) s kept
  · split
    · exact .fail (std.norm.ordinary rfl) kept
    · have handle : setting.handle.Meets std.norm := trivial
      refine Upholds.bind (serves.invokeHelper _ handle (List.forall_mem_nil _)) (fun v own => ?_) s kept
      refine .bind (.modify fun u state => ?_) fun _ _ => .pure own
      exact state.quiet ⟨_, _, _, _, _, _, _, _, _, rfl⟩ (state.meets.attributes.set own)

theorem navigation (serves : Serves std leader follower) (feature : String)
    (own : v.Meets std.norm) :
    std.Upholds (·.Meets std.norm) (navigation leader setting v feature)
      (Engine.navigation follower setting v feature) := by
  unfold Engine.navigation
  split
  · exact .pure trivial
  · exact serves.moduleAttribute feature
  · split
    · exact .pure (own.field ‹_›)
    · exact .fail rfl
  · dsimp only
    refine .bind (contextHelper?_upholds _ _ _) fun found _ => ?_
    cases found with
    | some helper =>
      refine .bind (hasFeature_upholds _ _) fun known _ => ?_
      split
      · exact navigate_upholds _ _
      · exact serves.invokeHelper helper own (List.forall_mem_nil _)
    | none =>
      dsimp only
      split
      · exact navigate_upholds _ _
      · exact mismatch_upholds _ _ _

theorem binary (serves : Serves std leader follower) (meets : env.Meets std.norm)
    (op : BinaryOperator) (lhs rhs : Expr) :
    std.Upholds (·.Meets std.norm) (binary leader env op lhs rhs)
      (Engine.binary follower env op lhs rhs) := by
  unfold Engine.binary
  split
  · refine .bind (serves.expression meets) fun l _ => .bind (requireTruth_upholds _ _) fun a _ => ?_
    split
    · exact .pure trivial
    · refine .bind (serves.expression meets) fun r _ => ?_
      exact .bind (requireTruth_upholds _ _) fun b _ => .pure trivial
  · refine .bind (serves.expression meets) fun l left => .bind (serves.expression meets) fun r right => ?_
    exact applied_upholds fun typeOf => Operation.binary_yields left right

theorem evaluateAll (serves : Serves std leader follower) (meets : env.Meets std.norm)
    (es : List Expr) :
    std.Upholds (fun items => ∀ v ∈ items, v.Meets std.norm) (evaluateAll leader env es)
      (Engine.evaluateAll follower env es) := by
  induction es with
  | nil => exact .pure (List.forall_mem_nil _)
  | cons e rest ih =>
    refine .bind (serves.expression meets) fun v own => .bind ih fun others all => ?_
    exact .pure (List.forall_mem_cons.2 ⟨own, all⟩)

theorem evaluateFields (serves : Serves std leader follower) (meets : env.Meets std.norm)
    (fields : List (TupleField Expr)) :
    std.Upholds (fun parts => ∀ part ∈ parts, part.2.Meets std.norm)
      (evaluateFields leader env fields) (Engine.evaluateFields follower env fields) := by
  induction fields with
  | nil => exact .pure (List.forall_mem_nil _)
  | cons field rest ih =>
    refine .bind (serves.expression meets) fun v own => .bind ih fun others all => ?_
    exact .pure (List.forall_mem_cons.2 ⟨own, all⟩)

theorem iterate (serves : Serves std leader follower) (meets : env.Meets std.norm)
    (parameter accumulator : String) (body : Expr) {acc : Value} {items : List Value}
    (first : acc.Meets std.norm) (each : ∀ v ∈ items, v.Meets std.norm) :
    std.Upholds (·.Meets std.norm) (iterate leader env parameter accumulator body acc items)
      (Engine.iterate follower env parameter accumulator body acc items) := by
  induction items generalizing acc with
  | nil => exact .pure first
  | cons v rest ih =>
    obtain ⟨own, others⟩ := List.forall_mem_cons.1 each
    have bound : std.norm.Table [(parameter, v), (accumulator, acc)] :=
      List.forall_mem_cons.2 ⟨own, List.forall_mem_singleton.2 first⟩
    exact .bind (serves.expression (meets.push bound.ofPairs)) fun next kept => ih kept others

end Serves

/-! Iterators whose body is up to the standard for the items of a collection. -/
section
variable {f g : Value → Run Engine Value} {items : List Value}
  (body : ∀ v ∈ items, std.Upholds (·.Meets std.norm) (f v) (g v))
include body

theorem keep_upholds (wanted : Bool) :
    std.Upholds (List.Sublist · items) (Collection.keep wanted f items)
      (Collection.keep wanted g items) := by
  induction items with
  | nil => exact .pure .slnil
  | cons x rest ih =>
    obtain ⟨first, others⟩ := List.forall_mem_cons.1 body
    refine .bind first fun v _ => .bind (ih others) fun found part => .pure ?_
    split
    · exact part.cons_cons x
    · exact part.cons x

theorem keyed_upholds :
    std.Upholds (fun pairs => pairs.map (·.2) = items ∧ ∀ pair ∈ pairs, pair.1.Meets std.norm)
      (Collection.keyed f items) (Collection.keyed g items) := by
  induction items with
  | nil => exact .pure ⟨rfl, nofun⟩
  | cons x rest ih =>
    obtain ⟨first, others⟩ := List.forall_mem_cons.1 body
    refine .bind first fun key own => .bind (ih others) fun pairs ⟨same, all⟩ => .pure ?_
    exact ⟨by rw [List.map_cons, same], List.forall_mem_cons.2 ⟨own, all⟩⟩

theorem holdsForSome_upholds :
    std.Upholds (fun _ => True) (Collection.holdsForSome f items)
      (Collection.holdsForSome g items) := by
  induction items with
  | nil => exact .pure trivial
  | cons x rest ih =>
    obtain ⟨first, others⟩ := List.forall_mem_cons.1 body
    exact .bind first fun v _ => .ite (.pure trivial) (ih others)

theorem holdsForAll_upholds :
    std.Upholds (fun _ => True) (Collection.holdsForAll f items)
      (Collection.holdsForAll g items) := by
  induction items with
  | nil => exact .pure trivial
  | cons x rest ih =>
    obtain ⟨first, others⟩ := List.forall_mem_cons.1 body
    exact .bind first fun v _ => .ite (ih others) (.pure trivial)

theorem holdsForOne_upholds (found : Bool) :
    std.Upholds (fun _ => True) (Collection.holdsForOne f found items)
      (Collection.holdsForOne g found items) := by
  induction items generalizing found with
  | nil => exact .pure trivial
  | cons x rest ih =>
    obtain ⟨first, others⟩ := List.forall_mem_cons.1 body
    exact .bind first fun v _ => .ite (.ite (.pure trivial) (ih others _)) (ih others _)

theorem allDistinct_upholds (seen : Std.TreeSet Key) :
    std.Upholds (fun _ => True) (Collection.allDistinct f seen items)
      (Collection.allDistinct g seen items) := by
  induction items generalizing seen with
  | nil => exact .pure trivial
  | cons x rest ih =>
    obtain ⟨first, others⟩ := List.forall_mem_cons.1 body
    exact .bind first fun v _ => .ite (.pure trivial) (ih others _)

omit body in
theorem contributions_meet {norm : Norm} {pairs : List (Value × Value)}
    (meets : ∀ pair ∈ pairs, pair.1.Meets norm) :
    ∀ v ∈ pairs.flatMap (fun pair => Collection.contribution pair.1), v.Meets norm := by
  intro v member
  obtain ⟨pair, listed, given⟩ := List.mem_flatMap.1 member
  have own := meets pair listed
  unfold Collection.contribution at given
  split at given
  · rename_i same
    rw [same] at own
    exact own.each v given
  · exact List.mem_singleton.1 given ▸ own

/-- Items are left out, or they are put in the order of their keys. -/
theorem iterator_upholds (typeOf : Value → String) (op : Iterator) {kind : CollectionKind}
    (meets : (Value.collection kind items).Meets std.norm) :
    std.Upholds (·.Meets std.norm) (Collection.iterate typeOf op kind items f)
      (Collection.iterate typeOf op kind items g) := by
  unfold Collection.iterate
  cases op with
  | select | reject =>
    exact .bind (keep_upholds body _) fun found part => .pure (meets.sublist part)
  | collect =>
    refine .bind (.bind (keyed_upholds body) fun pairs kept => .pure (contributions_meet kept.2))
      fun found own => .pure (Value.collection_meets (fun unique => ?_) own)
    cases kind <;> cases unique
  | «exists» => exact .bind (holdsForSome_upholds body) fun _ _ => .pure trivial
  | «forAll» => exact .bind (holdsForAll_upholds body) fun _ _ => .pure trivial
  | one => exact .bind (holdsForOne_upholds body _) fun _ _ => .pure trivial
  | any =>
    refine .bind (keep_upholds body _) fun found part => ?_
    split
    · exact .pure (meets.each _ (part.subset (List.mem_singleton_self _)))
    · exact .fail rfl
  | isUnique => exact .bind (allDistinct_upholds body _) fun _ _ => .pure trivial
  | sortedBy =>
    refine .bind (keyed_upholds body) fun pairs ⟨same, _⟩ => ?_
    split
    · have sorted : (Collection.sortByKeys pairs).Perm items :=
        same ▸ (Sorting.sort_perm _ _ pairs).map _
      refine .pure (Value.collection_meets (fun unique => ?_) fun v member => ?_)
      · have unique : kind.unique = true := by
          cases kind with
          | set | orderedSet => rfl
          | bag | sequence => cases unique
        exact std.norm.perm (meets.asked unique) sorted.symm
      · exact meets.each v (sorted.mem_iff.1 member)
    · exact .fail rfl

end

section
variable {post : α → Prop}

theorem text_upholds (v : Value) :
    std.Upholds (fun _ => True) (ruleCall?.text v) (ruleCall?.text v) := by
  unfold ruleCall?.text
  split
  · exact .pure trivial
  · exact mismatch_upholds _ _ _

theorem resolveTemp_upholds (source output : Value) (rule : Option Value) :
    std.Upholds (·.Meets std.norm) (ruleCall?.resolveTemp source output rule)
      (ruleCall?.resolveTemp source output rule) := by
  have named : std.Upholds (fun _ => True) (rule.mapM ruleCall?.text) (rule.mapM ruleCall?.text) := by
    cases rule with
    | none => exact .pure trivial
    | some rule => exact .bind (text_upholds rule) fun _ _ => .pure trivial
  refine .bind named fun _ _ => .bind (text_upholds output) fun _ _ => ?_
  exact .reading fun s kept => Trace.resolve_yields kept.meets.trace

end

namespace Serves
variable {leader follower : Evaluator} {env : Environment} {items args : List Value}
  {kind : CollectionKind}

theorem collectionOperation (serves : Serves std leader follower) (meets : env.Meets std.norm)
    (op : CollectionOperation) (own : (Value.collection kind items).Meets std.norm)
    (parameter : Option String) (body : Option Expr) :
    std.Upholds (·.Meets std.norm) (collectionOperation leader setting env op kind items parameter body)
      (Engine.collectionOperation follower setting env op kind items parameter body) := by
  unfold Engine.collectionOperation
  split
  · exact .fail rfl
  · refine .state fun s kept => iterator_upholds (fun v member => ?_) _ _ own s kept
    exact serves.expression (meets.push (List.forall_mem_singleton.2 (own.each v member)))
  · exact .fail rfl
  · refine .bind (serves.expression meets) fun argument given => ?_
    exact applied_upholds fun typeOf => Collection.combine_yields own given
  · exact applied_upholds fun typeOf => Collection.query_yields own

theorem collectionMethod (serves : Serves std leader follower) (meets : env.Meets std.norm)
    (op : CollectionOperation) (own : (Value.collection kind items).Meets std.norm)
    (args : List Expr) :
    std.Upholds (·.Meets std.norm) (collectionMethod leader setting env op kind items args)
      (Engine.collectionMethod follower setting env op kind items args) := by
  unfold Engine.collectionMethod
  split
  · exact serves.collectionOperation meets _ own _ _
  · exact .fail rfl
  · exact serves.collectionOperation meets _ own _ _
  · exact .fail rfl
  · exact serves.collectionOperation meets _ own _ _
  · exact .fail rfl

theorem ruleCall? (serves : Serves std leader follower) {t : Transformation}
    (given : setting.transformation = some t) (name : String)
    (each : ∀ v ∈ args, v.Meets std.norm) :
    Option.Rel (std.Upholds (·.Meets std.norm)) (ruleCall? leader setting t name args)
      (Engine.ruleCall? follower setting t name args) := by
  unfold Engine.ruleCall?
  split
  · rename_i rule known
    have named : rule.name = name := by simpa using List.find?_some known
    refine .some ?_
    split
    · exact serves.lazy ⟨given, named ▸ known⟩ (each _ (List.mem_singleton_self _))
    · exact .fail rfl
  · rename_i rule _ known
    have named : rule.name = name := by simpa using List.find?_some known
    exact .some (serves.called ⟨given, named ▸ known⟩ each)
  · split
    · refine .some ?_
      split
      · exact resolveTemp_upholds _ _ _
      · exact resolveTemp_upholds _ _ _
      · exact .fail rfl
    · exact .none

theorem callModule (serves : Serves std leader follower) (name : String)
    (each : ∀ v ∈ args, v.Meets std.norm) :
    std.Upholds (·.Meets std.norm) (callModule leader setting name args)
      (Engine.callModule follower setting name args) := by
  unfold Engine.callModule
  split
  · split
    · exact serves.moduleAttribute _
    · exact serves.invokeHelper _ (show setting.handle.Meets std.norm from trivial) each
  · cases given : setting.transformation with
    | none => exact callNative_upholds name each
    | some t =>
      have related := serves.ruleCall? given name each
      simp only [Option.bind_some]
      generalize Engine.ruleCall? leader setting t name args = answer at related ⊢
      generalize Engine.ruleCall? follower setting t name args = other at related ⊢
      cases related with
      | none => exact callNative_upholds name each
      | some upholds => exact upholds

theorem callOn (serves : Serves std leader follower) (name : String) (own : v.Meets std.norm)
    (each : ∀ v ∈ args, v.Meets std.norm) :
    std.Upholds (·.Meets std.norm) (callOn leader setting v name args)
      (Engine.callOn follower setting v name args) := by
  refine .bind (contextHelper?_upholds _ _ _) fun found _ => ?_
  cases found with
  | some helper => exact serves.invokeHelper helper own each
  | none =>
    dsimp only
    split
    · exact universal_upholds _ _ own
    · split
      · exact ownOperation?_upholds ‹_›
      · split
        · exact callNative_upholds name (List.forall_mem_cons.2 ⟨own, each⟩)
        · exact .state fun s kept => .fail (std.norm.ordinary rfl) kept

theorem method (serves : Serves std leader follower) (meets : env.Meets std.norm) (name : String)
    (args : List Expr) (own : v.Meets std.norm) :
    std.Upholds (·.Meets std.norm) (method leader setting env v name args)
      (Engine.method follower setting env v name args) := by
  unfold Engine.method
  split
  · exact .bind (serves.evaluateAll meets args) fun _ each => serves.callModule name each
  · exact serves.collectionMethod meets _ own args
  · exact .bind (serves.evaluateAll meets args) fun _ each => serves.callOn name own each

theorem step (serves : Serves std leader follower) (meets : env.Meets std.norm) (e : Expr) :
    std.Upholds (·.Meets std.norm) (step setting leader env e) (Engine.step setting follower env e) := by
  have part (e : Expr) : std.Upholds (·.Meets std.norm) (leader env e) (follower env e) :=
    serves.expression meets
  cases e with
  | literal value span => exact .pure value.value_meets
  | «variable» name span => exact .ofResult (Environment.lookup_yields fun v found => meets.get? found)
  | typeName name span => exact .pure trivial
  | lambda parameter body span => exact .pure trivial
  | navigation source feature span =>
    exact .bind (part source) fun v own => serves.navigation feature own
  | binary op lhs rhs span => exact serves.binary meets op lhs rhs
  | unary op operand span =>
    exact .bind (part operand) fun v own => applied_upholds fun typeOf => Operation.unary_yields
  | conditional condition thenBranch elseBranch span =>
    exact .bind (part condition) fun v _ => .ite (part thenBranch) (part elseBranch)
  | letIn name init body type span =>
    refine .bind (part init) fun v own => serves.expression (meets.push ?_)
    exact List.forall_mem_singleton.2 own
  | iterate source parameter accumulator init body type span =>
    refine .bind (part source) fun v own => ?_
    split
    · exact .bind (part init) fun acc first => serves.iterate meets _ _ _ first own.each
    · exact mismatch_upholds _ _ _
  | collection kind elements span =>
    exact .bind (serves.evaluateAll meets elements) fun _ each => .pure (Value.collectionOf_meets each)
  | arrow source op parameter body span =>
    refine .bind (part source) fun v own => ?_
    exact serves.collectionOperation meets _ (Value.asCollection_meets own) _ _
  | method receiver name args span =>
    exact .bind (part receiver) fun v own => serves.method meets name args own
  | call name args span =>
    exact .bind (serves.evaluateAll meets args) fun _ each => serves.callModule name each
  | tuple fields span =>
    exact .bind (serves.evaluateFields meets fields) fun _ each => .pure (fieldsMeet_iff.2 each)
  | foreign kind span => exact .fail rfl

end Serves

end Engine.Standard

end Metamorph
