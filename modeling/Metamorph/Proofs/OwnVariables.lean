import Metamorph.Proofs.Attribution
import Metamorph.Proofs.Resolution

/-! Every application of a rule sees its own variables. Whatever is evaluated for a binding or a statement
of a body belongs to one application, or repeats what did, and its output variables stand for the
objects made for them. So do the formal parameters for their arguments, unless the rule gives one
name to two things. -/
namespace Metamorph

namespace Engine
open Run

/-- A rule was applied: what its formals stood for, the objects made for its outputs, and what happened
directly within the application. -/
inductive Performed (t : Transformation) (u : Engine) : Formals → Outputs → List Event → Prop
  | matched {a : Application} {outputs inner}
      (created : (a, outputs) ∈ (scheduled u).zip u.created)
      (told : .application a.rule.name a.rule.outputs [] outputs inner ∈ u.history) :
      Performed t u [(a.rule.source.name, a.source)] outputs inner
  | lazy {rule : LazyRule} {argument complete result around outputs inner}
      (known : t.module.lazyRule? rule.name = some rule)
      (invoked : .lazy rule.name argument complete result around ∈ activitiesAmong u.history)
      (applied : .application rule.name rule.outputs [] outputs inner ∈ around) :
      Performed t u [(rule.parameter.name, argument)] outputs inner
  | called {rule : CalledRule} {args result around outputs inner}
      (known : t.module.calledRule? rule.name = some rule)
      (arity : args.length = rule.parameters.length)
      (invoked : .called rule.name args result around ∈ activitiesAmong u.history)
      (applied : .application rule.name rule.outputs rule.body outputs inner ∈ around) :
      Performed t u ((rule.parameters.map (·.name)).zip args) outputs inner

section
variable {setting : Setting} {t : Transformation} {s u : Engine}

theorem Recorded.zip_unique (recorded : Recorded u) {a b : Application} {outputs : Outputs}
    (here : (a, outputs) ∈ (scheduled u).zip u.created)
    (there : (b, outputs) ∈ (scheduled u).zip u.created) : a = b := by
  obtain ⟨i, place⟩ := List.mem_iff_getElem?.1 here
  obtain ⟨j, other⟩ := List.mem_iff_getElem?.1 there
  obtain ⟨turn, made⟩ := List.getElem?_zip_eq_some.1 place
  obtain ⟨next, known⟩ := List.getElem?_zip_eq_some.1 other
  obtain ⟨names, -⟩ := recorded.linkedAt turn made
  obtain ⟨output, member⟩ : ∃ output, output ∈ outputs := by
    refine List.exists_mem_of_ne_nil outputs fun empty => a.rule.productive ?_
    rw [empty] at names
    exact List.map_eq_nil_iff.1 names.symm
  -- A matched rule makes something, and what is made is made once, so the two have one place.
  obtain rfl := place_unique_of_nodup recorded.distinct.of_map made known member member
  exact Option.some.inj (turn.symm.trans next)

/-- Each application has an object for each output, and its expressions see its own variables. -/
theorem Attributed.performed (attributed : Attributed setting t.module u) (recorded : Recorded u)
    {formals : Formals} {outputs : Outputs} {inner : List Event}
    (performed : Performed t u formals outputs inner) :
    outputs.names.Nodup ∧ ∀ event ∈ inner, event.Sees (setting.ownScope formals outputs) := by
  cases performed with
  | @matched a outputs inner created told =>
    obtain ⟨i, place⟩ := List.mem_iff_getElem?.1 created
    obtain ⟨turn, made⟩ := List.getElem?_zip_eq_some.1 place
    obtain ⟨names, -⟩ := recorded.linkedAt turn made
    refine ⟨names ▸ a.rule.distinct, ?_⟩
    obtain call | ⟨item, member, inside, same, own⟩ | ⟨_, _, _, other, -⟩ :=
      attributed.direct _ told
    · cases call
    · obtain ⟨-, -, -, rfl, rfl⟩ := Event.application.inj same
      obtain rfl := recorded.zip_unique created member
      exact own
    · cases other
  | @lazy rule _ _ _ _ _ _ known invoked applied =>
    obtain ⟨_, found, parts⟩ := attributed.faithful _ invoked
    obtain rfl := Option.some.inj (known.symm.trans found)
    obtain ⟨-, -, -, names, own⟩ := parts _ applied
    exact ⟨names ▸ rule.distinct, own⟩
  | @called rule _ _ _ _ _ known _ invoked applied =>
    obtain ⟨_, found, -, parts⟩ := attributed.faithful _ invoked
    obtain rfl := Option.some.inj (known.symm.trans found)
    obtain ⟨-, -, -, names, own⟩ := parts _ applied
    exact ⟨names ▸ rule.distinct, own⟩

theorem Attributed.applied (attributed : Attributed setting t.module u) {parent : Event}
    (among : parent ∈ activitiesAmong u.history) {rule : String} {patterns : List OutPattern}
    {body : List Statement} {outputs : Outputs} {inner : List Event}
    (inside : .application rule patterns body outputs inner ∈ parent.within) :
    ∃ formals, Performed t u formals outputs inner := by
  have faithful := attributed.faithful parent among
  cases parent with
  | assignment _ _ _ around => exact (faithful _ inside).elim
  | application _ _ _ _ around =>
    obtain ⟨table, own⟩ := faithful
    exact (own _ inside).elim
  | lazy name argument complete result around =>
    obtain ⟨own, known, parts⟩ := faithful
    obtain ⟨rfl, rfl, rfl, -⟩ := parts _ inside
    have named : own.name = rule := by simpa using List.find?_some known
    subst named
    exact ⟨_, .lazy known among inside⟩
  | called name args result around =>
    obtain ⟨own, known, arity, parts⟩ := faithful
    obtain ⟨rfl, rfl, rfl, -⟩ := parts _ inside
    have named : own.name = rule := by simpa using List.find?_some known
    subst named
    exact ⟨_, .called known arity among inside⟩
  | replayed _ _ _ | unowned _ _ => cases inside

/-- What is evaluated belongs to an application, or repeats what was evaluated before. -/
theorem Attributed.evaluated (attributed : Attributed setting t.module u) {occasion : Occasion}
    {work : Assignment} {stored : Option Value} {inner : List Event}
    (among : .assignment occasion work stored inner ∈ activitiesAmong u.history) :
    (occasion = .again → Announced u.history work) ∧
      (occasion ≠ .again → ∃ formals outputs around, Performed t u formals outputs around ∧
        .assignment occasion work stored inner ∈ around) := by
  -- Only repetitions are on behalf of nobody; other evaluations happen within an application.
  rcases mem_activitiesAmong_within among with direct | ⟨parent, present, inside⟩
  · obtain call | ⟨_, _, _, other, -⟩ | ⟨_, _, _, same, announced⟩ := attributed.direct _ direct
    · cases call
    · cases other
    · obtain ⟨rfl, rfl, -, -⟩ := Event.assignment.inj same
      exact ⟨fun _ => announced, fun other => absurd rfl other⟩
  · have faithful := attributed.faithful parent present
    cases parent with
    | assignment _ _ _ around => exact (faithful _ inside).elim
    | lazy _ _ _ _ around =>
      obtain ⟨_, _, parts⟩ := faithful
      exact (parts _ inside).elim
    | called _ _ _ around =>
      obtain ⟨_, _, _, parts⟩ := faithful
      exact (parts _ inside).elim
    | replayed _ _ _ | unowned _ _ => cases inside
    | application rule patterns body outputs around =>
      obtain ⟨table, own⟩ := faithful
      obtain ⟨first, -⟩ := own _ inside
      refine ⟨fun again => absurd again first, fun _ => ?_⟩
      rcases mem_activitiesAmong_within present with direct | ⟨invocation, early, applied⟩
      · obtain call | ⟨item, member, _, same, -⟩ | ⟨_, _, _, other, -⟩ :=
          attributed.direct _ direct
        · cases call
        · obtain ⟨rfl, rfl, rfl, rfl, rfl⟩ := Event.application.inj same
          exact ⟨_, _, _, .matched member direct, inside⟩
        · cases other
      · obtain ⟨formals, performed⟩ := attributed.applied early applied
        exact ⟨formals, outputs, around, performed, inside⟩

/-! An evaluator is asked in one environment only. -/

section
variable {self other : Evaluator} {env : Environment} (same : self env = other env)
include same

theorem applyBindings_congr (rule : String) (target : Value) (bindings : List Binding) :
    applyBindings self setting rule target env bindings =
      applyBindings other setting rule target env bindings := by
  induction bindings with
  | nil => rfl
  | cons binding rest ih => simp only [applyBindings, applyBinding, same, ih]

theorem fillOutputs_congr (rule : String) (outputs : Outputs) (patterns : List OutPattern) :
    fillOutputs self setting rule outputs env patterns =
      fillOutputs other setting rule outputs env patterns := by
  induction patterns with
  | nil => rfl
  | cons out rest ih => simp only [fillOutputs, applyBindings_congr same, ih]

theorem executeBody_congr (last : Value) (body : List Statement) :
    executeBody self setting env last body = executeBody other setting env last body := by
  induction body generalizing last with
  | nil => rfl
  | cons statement rest ih =>
    have first : executeStatement self setting env statement =
        executeStatement other setting env statement := by
      cases statement <;> simp only [executeStatement, same]
    simp only [executeBody, first, ih]

end

theorem executeCalled_congr {self other : Evaluator} {rule : CalledRule} {args : List Value}
    (same : ∀ outputs w, makeTargets t rule.outputs (noteRule rule.name s) = .value outputs w →
      ∀ env : Environment, (∀ name, env.get? name =
        (setting.ownScope ((rule.parameters.map (·.name)).zip args) outputs).get? name) →
          self env = other env) :
    executeCalled self setting t rule args s = executeCalled other setting t rule args s := by
  unfold executeCalled
  refine bind_congr_next fun _ _ noted => bind_congr_next fun outputs w made => ?_
  obtain rfl := modify_eq_value.1 noted
  have asked := same outputs w made
    (setting.rootEnvironment ((Named.ofPairs ((rule.parameters.map (·.name)).zip args)).update outputs))
    fun name => by rw [setting.rootEnvironment_get?, Setting.ownScope]
  simp only [fillApplication, fillOutputs_congr asked, executeBody_congr asked]

variable {store : Store} {log : List LogRecord}

/-- Own variables. Wherever a pipeline is found, what was evaluated for the first time belongs to an
application of a rule and what was evaluated again repeats it. In every application the output
variables stand for the objects made for them, and the formals for their arguments if and only if no
two variables of one name stand for different things. For matched rules they always do. A called rule
asks for no value but with these variables, not for its other statements either. -/
theorem evaluations_see_own_variables (given : setting.transformation = some t)
    (reaches : Reaches setting t store log u) :
    (∀ occasion work stored inner,
      .assignment occasion work stored inner ∈ activitiesAmong u.history →
        (occasion = .again → Announced u.history work) ∧
        (occasion ≠ .again → ∃ formals outputs around, Performed t u formals outputs around ∧
          .assignment occasion work stored inner ∈ around)) ∧
    (∀ formals outputs around, Performed t u formals outputs around →
      ∀ occasion work stored inner, .assignment occasion work stored inner ∈ around →
        (∀ output ∈ outputs, work.scope.get? output.1 = some output.2) ∧
        ((∀ formal ∈ formals, work.scope.get? formal.1 = some formal.2) ↔
          ∀ formal ∈ formals, ∀ other ∈ formals ++ outputs,
            other.1 = formal.1 → other.2 = formal.2)) ∧
    (∀ a outputs around, (a, outputs) ∈ (scheduled u).zip u.created →
      .application a.rule.name a.rule.outputs [] outputs around ∈ u.history →
      ∀ occasion work stored inner, .assignment occasion work stored inner ∈ around →
        work.scope.get? a.rule.source.name = some a.source) ∧
    ∀ (rule : CalledRule) (args : List Value) (self other : Evaluator) (s : Engine),
      (∀ outputs w, makeTargets t rule.outputs (noteRule rule.name s) = .value outputs w →
        ∀ env : Environment, (∀ name, env.get? name =
          (setting.ownScope ((rule.parameters.map (·.name)).zip args) outputs).get? name) →
            self env = other env) →
      executeCalled self setting t rule args s = executeCalled other setting t rule args s := by
  have attributed := reaches.attributed given
  obtain ⟨⟨_, career⟩, -⟩ := reaches.career given
  have recorded : Recorded u := career.recorded .fresh
  refine ⟨fun _ _ _ _ => attributed.evaluated, ?_, ?_, fun _ _ _ _ _ => executeCalled_congr⟩
  · intro formals outputs around performed occasion work stored inner member
    obtain ⟨distinct, own⟩ := attributed.performed recorded performed
    obtain ⟨-, scope⟩ := own _ member
    rw [scope]
    exact ⟨fun _ => Setting.ownScope_output distinct, Setting.ownScope_formals_iff distinct⟩
  · intro a outputs around created told occasion work stored inner member
    obtain ⟨distinct, own⟩ := attributed.performed recorded (.matched created told)
    obtain ⟨-, scope⟩ := own _ member
    rw [scope]
    refine (Setting.ownScope_formals_iff distinct).2 ?_ _ (List.mem_singleton_self _)
    intro formal named other present same
    obtain rfl := List.mem_singleton.1 named
    rcases List.mem_cons.1 present with rfl | output
    · rfl
    · obtain ⟨i, place⟩ := List.mem_iff_getElem?.1 created
      obtain ⟨turn, made⟩ := List.getElem?_zip_eq_some.1 place
      obtain ⟨names, -⟩ := recorded.linkedAt turn made
      have known : other.1 ∈ outputs.names := List.mem_map_of_mem output
      rw [names, same] at known
      exact absurd known a.rule.apart

end

end Engine

open Engine

namespace Looping

/-- The parameter of the lazy rule has the name of its output, and its binding reads the name. -/
def eclipsing : Transformation :=
  let t := transformation [⟨"g", call "L"⟩] [] [] []
  { t with module := { t.module with lazy := [{
      name := "L", parameter := { name := "o" }
      outputs := [{ name := "o", type := "T", bindings := [⟨"f", .variable "o" {}⟩] }]
      loc := {}, productive := by simp, distinct := by simp }] } }

/-- The single evaluation of the single application of a lazy rule finds something else than the argument
under the name. -/
def overlooks (name : String) : Event → Bool
  | .lazy _ (.object h) _ _ [.application _ _ _ _ [.assignment .first work _ _]] =>
    match work.scope.get? name with
    | some (.object g) => h != g
    | _ => true
  | _ => false

theorem of_overlooks {name : String} {event : Event} (found : overlooks name event = true) :
    ∃ rule h complete result own patterns body outputs work stored inner,
      event = .lazy rule (.object h) complete result
        [.application own patterns body outputs [.assignment .first work stored inner]] ∧
      work.scope.get? name ≠ some (.object h) := by
  unfold overlooks at found
  split at found
  · refine ⟨_, _, _, _, _, _, _, _, _, _, _, rfl, fun same => ?_⟩
    simp [same] at found
  · cases found

/-- The event is the first work on a binding. -/
def isFirst : Event → Bool
  | .assignment .first _ _ _ => true
  | _ => false

end Looping

/-- The evaluations of a run in which a lazy rule is applied to one object. -/
theorem evaluations_see_own_variables_direct :
    ∃ s, Completes (Looping.settingOf Looping.direct) Looping.direct Looping.objects [] s ∧
      ∃ formals outputs around work stored inner,
        Performed Looping.direct s formals outputs around ∧
        .assignment .first work stored inner ∈ around ∧
        ∀ output ∈ outputs, work.scope.get? output.1 = some output.2 := by
  obtain ⟨s, completes, tested⟩ := Looping.completes_of_passes Looping.direct
    (fun s => (activitiesAmong s.history).any Looping.isFirst) (by decide +kernel)
  obtain ⟨event, among, first⟩ := List.any_eq_true.1 tested
  unfold Looping.isFirst at first
  split at first
  · obtain ⟨every, seen, -⟩ := evaluations_see_own_variables rfl completes.reaches
    obtain ⟨formals, outputs, around, performed, member⟩ := (every _ _ _ _ among).2 nofun
    exact ⟨s, completes, formals, outputs, around, _, _, _, performed, member,
      (seen _ _ _ performed _ _ _ _ member).1⟩
  · cases first

/-- The binding of a lazy rule whose parameter is called like its output does not see the argument. -/
theorem eclipsed_formal_unseen :
    ∃ s, Completes (Looping.settingOf Looping.eclipsing) Looping.eclipsing Looping.objects [] s ∧
      ∃ formals outputs around work stored inner,
        Performed Looping.eclipsing s formals outputs around ∧
        .assignment .first work stored inner ∈ around ∧
        ∃ formal ∈ formals, work.scope.get? formal.1 ≠ some formal.2 := by
  obtain ⟨s, completes, tested⟩ := Looping.completes_of_passes Looping.eclipsing
    (fun s => (activitiesAmong s.history).any (Looping.overlooks "o")) (by decide +kernel)
  obtain ⟨event, among, found⟩ := List.any_eq_true.1 tested
  obtain ⟨_, h, _, _, name, _, _, outputs, work, stored, inner, rfl, unseen⟩ :=
    Looping.of_overlooks found
  have attributed := completes.reaches.attributed rfl
  obtain ⟨rule, known, parts⟩ := attributed.faithful _ among
  obtain ⟨rfl, rfl, rfl, -⟩ := parts _ (List.mem_singleton_self _)
  have named : rule.name = name := by simpa using List.find?_some known
  subst named
  obtain rfl := List.mem_singleton.1 (List.mem_of_find?_eq_some known)
  exact ⟨s, completes, _, _, _, work, stored, inner,
    .lazy known among (List.mem_singleton_self _), List.mem_singleton_self _, _,
    List.mem_singleton_self _, unseen⟩

end Metamorph
