import Metamorph.Proofs.SafeRules

/-! Evaluation in the language without Reals. Where an evaluator is safe for the parts of an expression
it is for the whole, so evaluation comes to a value without Reals or fails with an error of the engine. -/
namespace Metamorph

namespace Operation
variable {name : String}

theorem OnText.text_of_named? {op : OnText} (found : OnText.named? name = some op) :
    op.text = name := by
  simpa using List.find?_some found

theorem OnNumber.text_of_named? {op : OnNumber} (found : OnNumber.named? name = some op) :
    op.text = name := by
  simpa using List.find?_some found

end Operation

namespace Engine
variable {setting : Setting} {v : Value} {items args : List Value} {kind : CollectionKind}

/-! Iterators whose body is safe for the items of a collection. -/
section
variable {f : Value → Run Engine Value} (body : ∀ v ∈ items, Safe (·.RealFree) (f v))
include body

theorem keep_safe (wanted : Bool) : Safe (· ⊆ items) (Collection.keep wanted f items) := by
  induction items with
  | nil => exact .pure (List.Subset.refl _)
  | cons x rest ih =>
    obtain ⟨first, others⟩ := List.forall_mem_cons.1 body
    refine .bind first fun v _ => .bind (ih others) fun found part => .pure ?_
    split
    · exact List.cons_subset_cons x part
    · exact List.subset_cons_of_subset x part

theorem keyed_safe :
    Safe (fun pairs => pairs.map (·.2) = items ∧ ∀ pair ∈ pairs, pair.1.RealFree)
      (Collection.keyed f items) := by
  induction items with
  | nil => exact .pure ⟨rfl, nofun⟩
  | cons x rest ih =>
    obtain ⟨first, others⟩ := List.forall_mem_cons.1 body
    refine .bind first fun key own => .bind (ih others) fun pairs ⟨same, all⟩ => .pure ?_
    exact ⟨by rw [List.map_cons, same], List.forall_mem_cons.2 ⟨own, all⟩⟩

theorem holdsForSome_safe : Safe (fun _ => True) (Collection.holdsForSome f items) := by
  induction items with
  | nil => exact .pure trivial
  | cons x rest ih =>
    obtain ⟨first, others⟩ := List.forall_mem_cons.1 body
    exact .bind first fun v _ => .ite (.pure trivial) (ih others)

theorem holdsForAll_safe : Safe (fun _ => True) (Collection.holdsForAll f items) := by
  induction items with
  | nil => exact .pure trivial
  | cons x rest ih =>
    obtain ⟨first, others⟩ := List.forall_mem_cons.1 body
    exact .bind first fun v _ => .ite (ih others) (.pure trivial)

theorem holdsForOne_safe (found : Bool) :
    Safe (fun _ => True) (Collection.holdsForOne f found items) := by
  induction items generalizing found with
  | nil => exact .pure trivial
  | cons x rest ih =>
    obtain ⟨first, others⟩ := List.forall_mem_cons.1 body
    exact .bind first fun v _ => .ite (.ite (.pure trivial) (ih others _)) (ih others _)

theorem allDistinct_safe (seen : Std.TreeSet Key) :
    Safe (fun _ => True) (Collection.allDistinct f seen items) := by
  induction items generalizing seen with
  | nil => exact .pure trivial
  | cons x rest ih =>
    obtain ⟨first, others⟩ := List.forall_mem_cons.1 body
    exact .bind first fun v _ => .ite (.pure trivial) (ih others _)

omit body in
theorem contributions_realFree {pairs : List (Value × Value)}
    (free : ∀ pair ∈ pairs, pair.1.RealFree) :
    ∀ v ∈ pairs.flatMap (fun pair => Collection.contribution pair.1), v.RealFree := by
  intro v member
  obtain ⟨pair, listed, given⟩ := List.mem_flatMap.1 member
  have own := free pair listed
  unfold Collection.contribution at given
  split at given
  · rename_i same
    rw [same] at own
    exact own.each v given
  · exact List.mem_singleton.1 given ▸ own

theorem iterator_safe (typeOf : Value → String) (op : Iterator) (each : ∀ v ∈ items, v.RealFree) :
    Safe (·.RealFree) (Collection.iterate typeOf op kind items f) := by
  unfold Collection.iterate
  cases op with
  | select | reject =>
    exact .bind (keep_safe body _) fun found part =>
      .pure (Value.collection_realFree fun v member => each v (part member))
  | collect =>
    exact .bind (.bind (keyed_safe body) fun pairs kept => .pure (contributions_realFree kept.2))
      fun found own => .pure (Value.collection_realFree own)
  | «exists» => exact .bind (holdsForSome_safe body) fun _ _ => .pure trivial
  | «forAll» => exact .bind (holdsForAll_safe body) fun _ _ => .pure trivial
  | one => exact .bind (holdsForOne_safe body _) fun _ _ => .pure trivial
  | any =>
    refine .bind (keep_safe body _) fun found part => ?_
    split
    · exact .pure (each _ (part (List.mem_singleton_self _)))
    · exact .fail rfl
  | isUnique => exact .bind (allDistinct_safe body _) fun _ _ => .pure trivial
  | sortedBy =>
    refine .bind (keyed_safe body) fun pairs ⟨same, _⟩ => ?_
    split
    · have sorted : (Collection.sortByKeys pairs).Perm items :=
        same ▸ (Sorting.sort_perm _ _ pairs).map _
      exact .pure (Value.collection_realFree fun v member => each v (sorted.mem_iff.1 member))
    · exact .fail rfl

end

/-! Operations of types, numbers and texts, and those that the host supplies. -/
section
variable (free : setting.RealFree)
include free

theorem sources_raisable {t : Transformation} (given : setting.transformation = some t)
    {name : String} {provider : Provider} (known : t.sources.get? name = some provider) :
    provider.refusals.Raisable :=
  free.models given (name, provider) (List.mem_append_left _ (Named.mem_of_get? known))

theorem onType_safe {type name : String} {run : Run Engine Value}
    (found : onType setting type name args = some run) : Safe (·.RealFree) run := by
  have instances {cls : String} {models : List (String × Provider)}
      (raisable : ∀ model ∈ models, model.2.refusals.Raisable) : Safe (·.RealFree)
        (do return Value.collectionOf .set (← instancesIn setting cls models)) :=
    .bind (instancesIn_safe cls raisable) fun _ own => .pure (Value.collectionOf_realFree own)
  unfold onType at found
  split at found
  · cases found
    split
    · exact .fail rfl
    · rename_i t given
      split
      · split
        · refine instances fun model member => ?_
          obtain ⟨source, -, supplied⟩ := List.mem_filterMap.1 member
          obtain ⟨provider, known, rfl⟩ := Option.map_eq_some_iff.1 supplied
          exact sources_raisable free given known
        · exact .fail rfl
      · split
        · unfold allInstancesFrom
          split
          · exact .fail rfl
          · rename_i provider known
            exact instances (List.forall_mem_singleton.2 (sources_raisable free given known))
        · exact mismatch_safe _ _ _
        · exact .fail rfl
  · contradiction

/-- No operation of a value makes a Real but those that are left out. -/
theorem ownOperation?_safe {name : String} {run : Run Engine Value} (own : v.RealFree)
    (each : ∀ v ∈ args, v.RealFree) (plain : name ∉ realMaking)
    (found : ownOperation? setting v name args = some run) : Safe (·.RealFree) run := by
  unfold ownOperation? at found
  dsimp only at found
  split at found
  · exact onType_safe free found
  · obtain ⟨op, named, rfl⟩ := Option.map_eq_some_iff.1 found
    refine .reading fun _ _ => Operation.onText_reports ?_
    rintro rfl
    exact plain (Operation.OnText.text_of_named? named ▸ by decide)
  · obtain ⟨op, named, rfl⟩ := Option.map_eq_some_iff.1 found
    refine .state fun s _ => .bind (.modify fun _ kept => { kept with }) fun _ _ => ?_
    refine .reading fun _ _ => Operation.onNumber_reports each ?_ ?_
    all_goals
      rintro rfl
      exact plain (Operation.OnNumber.text_of_named? named ▸ by decide)
  · exact own.elim
  · contradiction

theorem callNative_safe (name : String) (each : ∀ v ∈ args, v.RealFree) :
    Safe (·.RealFree) (callNative setting name args) := by
  refine .bind (.modify fun _ kept => { kept with }) fun _ _ => .asking fun s _ => ?_
  unfold nativeAnswer
  split
  · exact .ok trivial
  · split
    · exact (free.natives ‹_› s.store args each).map fun _ => asSequence_realFree
    · exact .error rfl

end

namespace Trusted
variable {self : Evaluator} {env : Environment} (trusted : Trusted self)
include trusted

theorem evaluateAll (bound : env.Each Value.RealFree) {es : List Expr}
    (free : ∀ e ∈ es, e.RealFree) :
    Safe (fun items => ∀ v ∈ items, v.RealFree) (evaluateAll self env es) := by
  induction es with
  | nil => exact .pure (List.forall_mem_nil _)
  | cons e rest ih =>
    obtain ⟨first, others⟩ := List.forall_mem_cons.1 free
    refine .bind (trusted bound first) fun v own => .bind (ih others) fun others all => ?_
    exact .pure (List.forall_mem_cons.2 ⟨own, all⟩)

theorem evaluateFields (bound : env.Each Value.RealFree) {fields : List (TupleField Expr)}
    (free : ∀ field ∈ fields, field.value.RealFree) :
    Safe (fun parts => ∀ part ∈ parts, part.2.RealFree) (evaluateFields self env fields) := by
  induction fields with
  | nil => exact .pure (List.forall_mem_nil _)
  | cons field rest ih =>
    obtain ⟨first, others⟩ := List.forall_mem_cons.1 free
    refine .bind (trusted bound first) fun v own => .bind (ih others) fun others all => ?_
    exact .pure (List.forall_mem_cons.2 ⟨own, all⟩)

theorem iterate (bound : env.Each Value.RealFree) (parameter accumulator : String) {body : Expr}
    (free : body.RealFree) {acc : Value} (first : acc.RealFree) (each : ∀ v ∈ items, v.RealFree) :
    Safe (·.RealFree) (iterate self env parameter accumulator body acc items) := by
  induction items generalizing acc with
  | nil => exact .pure first
  | cons v rest ih =>
    obtain ⟨own, others⟩ := List.forall_mem_cons.1 each
    have own : Named.Each Value.RealFree [(parameter, v), (accumulator, acc)] :=
      List.forall_mem_cons.2 ⟨own, List.forall_mem_singleton.2 first⟩
    exact .bind (trusted (bound.push own.ofPairs) free) fun next kept => ih kept others

theorem binary (bound : env.Each Value.RealFree) (op : BinaryOperator) {lhs rhs : Expr}
    (left : lhs.RealFree) (right : rhs.RealFree) :
    Safe (·.RealFree) (binary self env op lhs rhs) := by
  unfold Engine.binary
  split
  · refine .bind (trusted bound left) fun l _ => .bind (requireTruth_safe _ _) fun a _ => ?_
    split
    · exact .pure trivial
    · refine .bind (trusted bound right) fun r _ => ?_
      exact .bind (requireTruth_safe _ _) fun b _ => .pure trivial
  · refine .bind (trusted bound left) fun l own => .bind (trusted bound right) fun r other => ?_
    exact applied_safe fun typeOf => Operation.binary_reports own other

theorem collectionOperation (bound : env.Each Value.RealFree) (op : CollectionOperation)
    (each : ∀ v ∈ items, v.RealFree) (parameter : Option String) {body : Option Expr}
    (free : ∀ e ∈ body, e.RealFree) :
    Safe (·.RealFree) (collectionOperation self setting env op kind items parameter body) := by
  unfold Engine.collectionOperation
  split
  · exact .fail rfl
  · refine .state fun s _ => iterator_safe (fun v member => ?_) _ _ each
    exact trusted (bound.push (List.forall_mem_singleton.2 (each v member))) (free _ rfl)
  · exact .fail rfl
  · refine .bind (trusted bound (free _ rfl)) fun argument given => ?_
    exact applied_safe fun typeOf => Collection.combine_reports each given
  · exact applied_safe fun typeOf => Collection.query_reports each

theorem collectionMethod (bound : env.Each Value.RealFree) (op : CollectionOperation)
    (each : ∀ v ∈ items, v.RealFree) {args : List Expr} (free : ∀ e ∈ args, e.RealFree) :
    Safe (·.RealFree) (collectionMethod self setting env op kind items args) := by
  unfold Engine.collectionMethod
  split
  · refine trusted.collectionOperation bound _ each _ ?_
    rintro _ ⟨⟩
    exact (free _ (List.mem_singleton_self _)).parts _ (List.mem_singleton_self _)
  · exact .fail rfl
  · refine trusted.collectionOperation bound _ each _ ?_
    rintro _ ⟨⟩
    exact free _ (List.mem_singleton_self _)
  · exact .fail rfl
  · exact trusted.collectionOperation bound _ each _ nofun
  · exact .fail rfl

variable (free : setting.RealFree)
include free

theorem invokeHelper {helper : Helper} (known : HasHelper setting helper) {receiver : Value}
    (own : receiver.RealFree) (each : ∀ v ∈ args, v.RealFree) :
    Safe (·.RealFree) (invokeHelper self setting helper receiver args) := by
  unfold Engine.invokeHelper
  split
  · exact .fail rfl
  · refine .bind (.modify fun _ kept => { kept with }) fun _ _ => ?_
    refine trusted (.push (.rootEnvironment setting trivial nofun) ?_) (free.helpers known)
    exact .update (List.forall_mem_singleton.2 own) (.zip each)

theorem moduleAttribute (name : String) :
    Safe (·.RealFree) (moduleAttribute self setting name) := by
  have handle : setting.handle.RealFree := trivial
  refine .state fun s kept => ?_
  split
  · rename_i v known
    have own := kept.attributes.get? known
    exact .bind (.modify fun _ kept => { kept with }) fun _ _ => .pure own
  · split
    · exact .fail rfl
    · rename_i helper known
      have reached : HasHelper setting helper := .inl ⟨name, (Option.filter_eq_some_iff.1 known).1⟩
      refine .bind (trusted.invokeHelper free reached handle (List.forall_mem_nil _)) fun v own => ?_
      refine .bind (.modify fun u kept => ?_) fun _ _ => .pure own
      exact { kept with attributes := kept.attributes.set own }

theorem navigation (feature : String) (own : v.RealFree) :
    Safe (·.RealFree) (navigation self setting v feature) := by
  unfold Engine.navigation
  split
  · exact .pure trivial
  · exact trusted.moduleAttribute free feature
  · split
    · exact .pure (own.field ‹_›)
    · exact .fail rfl
  · dsimp only
    refine .bind (contextHelper?_safe _ _ _) fun found known => ?_
    cases found with
    | some helper =>
      refine .bind (hasFeature_safe _ _) fun shown _ => ?_
      split
      · exact navigate_safe _ own
      · exact trusted.invokeHelper free (known helper rfl) own (List.forall_mem_nil _)
    | none =>
      dsimp only
      split
      · exact navigate_safe _ own
      · exact mismatch_safe _ _ _

theorem ruleCall? {t : Transformation} (given : setting.transformation = some t) (name : String)
    (each : ∀ v ∈ args, v.RealFree) {run : Run Engine Value}
    (found : ruleCall? self setting t name args = some run) : Safe (·.RealFree) run := by
  unfold Engine.ruleCall? at found
  split at found
  · rename_i rule known
    have named : rule.name = name := by simpa using List.find?_some known
    cases found
    split
    · exact trusted.invokeLazy free ⟨given, named ▸ known⟩ (each _ (List.mem_singleton_self _))
    · exact .fail rfl
  · rename_i rule _ known
    have named : rule.name = name := by simpa using List.find?_some known
    cases found
    exact trusted.invokeCalled free ⟨given, named ▸ known⟩ each
  · split at found
    · cases found
      split
      · exact resolveTemp_safe _ _ _
      · exact resolveTemp_safe _ _ _
      · exact .fail rfl
    · cases found

theorem callModule (name : String) (each : ∀ v ∈ args, v.RealFree) :
    Safe (·.RealFree) (callModule self setting name args) := by
  have handle : setting.handle.RealFree := trivial
  unfold Engine.callModule
  split
  · rename_i helper known
    split
    · exact trusted.moduleAttribute free _
    · exact trusted.invokeHelper free (.inl ⟨name, known⟩) handle each
  · split
    · rename_i run found
      obtain ⟨t, given, found⟩ := Option.bind_eq_some_iff.1 found
      exact trusted.ruleCall? free given name each found
    · exact callNative_safe free name each

theorem callOn {name : String} (own : v.RealFree) (each : ∀ v ∈ args, v.RealFree)
    (plain : name ∉ realMaking) : Safe (·.RealFree) (callOn self setting v name args) := by
  refine .bind (contextHelper?_safe _ _ _) fun found known => ?_
  cases found with
  | some helper => exact trusted.invokeHelper free (known helper rfl) own each
  | none =>
    dsimp only
    split
    · exact universal_safe _ _ own
    · split
      · exact ownOperation?_safe free own each plain ‹_›
      · split
        · exact callNative_safe free name (List.forall_mem_cons.2 ⟨own, each⟩)
        · exact .state fun _ _ => .fail rfl

theorem method (bound : env.Each Value.RealFree) {name : String} (own : v.RealFree)
    {args : List Expr} (each : ∀ e ∈ args, e.RealFree) (plain : name ∉ realMaking) :
    Safe (·.RealFree) (method self setting env v name args) := by
  unfold Engine.method
  split
  · exact .bind (trusted.evaluateAll bound each) fun _ each => trusted.callModule free name each
  · exact trusted.collectionMethod bound _ own.each each
  · exact .bind (trusted.evaluateAll bound each) fun _ each => trusted.callOn free own each plain

theorem step (bound : env.Each Value.RealFree) {e : Expr} (written : e.RealFree) :
    Safe (·.RealFree) (step setting self env e) := by
  have plain := written.plain
  have part {part : Expr} (member : part ∈ e.parts) : Safe (·.RealFree) (self env part) :=
    trusted bound (written.parts part member)
  cases e with
  | literal value span =>
    refine .pure ?_
    cases value with
    | real => cases plain
    | _ => trivial
  | «variable» name span => exact .ofResult (Environment.lookup_reports bound)
  | typeName name span => exact .pure trivial
  | lambda parameter body span => exact .pure trivial
  | navigation source feature span =>
    exact .bind (part List.mem_cons_self) fun v own => trusted.navigation free feature own
  | binary op lhs rhs span =>
    exact trusted.binary bound op (written.parts lhs List.mem_cons_self)
      (written.parts rhs (by simp [Expr.parts]))
  | unary op operand span =>
    refine .bind (part List.mem_cons_self) fun v own => ?_
    exact applied_safe fun typeOf => Operation.unary_reports own
  | conditional condition thenBranch elseBranch span =>
    refine .bind (part List.mem_cons_self) fun v _ => .ite (part ?_) (part ?_)
    all_goals simp [Expr.parts]
  | letIn name init body type span =>
    refine .bind (part List.mem_cons_self) fun v own => ?_
    exact trusted (bound.push (List.forall_mem_singleton.2 own))
      (written.parts body (by simp [Expr.parts]))
  | iterate source parameter accumulator init body type span =>
    refine .bind (part List.mem_cons_self) fun v own => ?_
    split
    · refine .bind (part (by simp [Expr.parts])) fun acc first => ?_
      exact trusted.iterate bound _ _ (written.parts body (by simp [Expr.parts])) first own.each
    · exact mismatch_safe _ _ _
  | collection kind elements span =>
    exact .bind (trusted.evaluateAll bound written.parts) fun _ each =>
      .pure (Value.collectionOf_realFree each)
  | arrow source op parameter body span =>
    refine .bind (part List.mem_cons_self) fun v own => ?_
    refine trusted.collectionOperation bound _ (Value.asCollection_realFree own) _ fun e member => ?_
    exact written.parts e (List.mem_cons_of_mem _ (Option.mem_toList.2 member))
  | method receiver name args span =>
    have spared : name ∉ realMaking := by simpa [Expr.plain] using plain
    refine .bind (part List.mem_cons_self) fun v own => ?_
    exact trusted.method free bound own (fun e member =>
      written.parts e (List.mem_cons_of_mem _ member)) spared
  | call name args span =>
    exact .bind (trusted.evaluateAll bound written.parts) fun _ each => trusted.callModule free name each
  | tuple fields span =>
    refine .bind (trusted.evaluateFields bound fun field member => ?_) fun _ each =>
      .pure (fieldsRealFree_iff.2 each)
    exact written.parts field.value (List.mem_map_of_mem member)
  | foreign kind span => cases plain

end Trusted

theorem evaluateWithin_trusted (free : setting.RealFree) (bound : Nat) :
    Trusted (evaluateWithin setting bound) := by
  induction bound with
  | zero => exact fun _ _ _ _ => .cutOff
  | succ bound ih =>
    intro env e each written
    exact .mapFault (ih.step free each written) (Fault.locate_reported e.span)

end Engine

end Metamorph
