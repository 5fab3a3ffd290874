import Mathlib.Data.List.Induction
import Metamorph.Proofs.Choosing
import Metamorph.Proofs.Stock

/-! The schedule. What is scheduled are the objects that a rule is selected for, in the order in which the
models list them. While rules are refused nothing that Matching leaves behind, attributes among it, changes
what it comes to: built once more, the schedule is the same. -/
namespace Metamorph

/-- An object that a model lists, with the rule, or none, that was selected for it. -/
structure Pick where
  model : String
  object : Handle
  rule : Option MatchedRule

/-- The schedule in which those are listed that a rule was picked for, in their order. -/
def Schedule.ofPicks (picks : List Pick) : Schedule where
  applications := (picks.filterMap fun pick => pick.rule.map fun rule => (pick, rule)).mapIdx
    fun position chosen => ⟨chosen.2, .object chosen.1.object, chosen.1.model, position⟩
  examined := picks.length

namespace Engine
open Run

section
variable (self : Evaluator) (setting : Setting) (m : Module)

/-- A rule, or none, is selected for one object of the model after the other. -/
inductive Picks (model : String) : List Handle → Engine → List Pick → Engine → Prop
  | nil {s : Engine} : Picks model [] s [] s
  | cons {h : Handle} {rest : List Handle} {rule : Option MatchedRule} {picks : List Pick}
      {s u t : Engine} (selected : selectRule self setting m (.object h) model s = .value rule u)
      (others : Picks model rest u picks t) : Picks model (h :: rest) s (⟨model, h, rule⟩ :: picks) t

/-- A rule, or none, is selected for what the models list, one model after the other. -/
inductive Traverses (providers : Named Provider) : List String → Engine → List Pick → Engine → Prop
  | nil {s : Engine} : Traverses providers [] s [] s
  | cons {name : String} {rest : List String} {provider : Provider} {objects : List Handle}
      {picks more : List Pick} {s u t : Engine} (known : providers.get? name = some provider)
      (lists : provider.objects s.store = .ok objects)
      (here : Picks self setting m name objects s picks u)
      (others : Traverses providers rest u more t) :
      Traverses providers (name :: rest) s (picks ++ more) t

end

variable {self : Evaluator} {setting setting' : Setting} {m : Module} {providers : Named Provider}
  {name : String} {names : List String} {objects : List Handle} {schedule final : Schedule}
  {picks : List Pick} {s t : Engine}

/-! What is scheduled. -/

/-- The schedule after further picks. -/
def further (schedule : Schedule) (picks : List Pick) : Schedule :=
  picks.foldl (fun schedule pick => Schedule.add schedule pick.rule (.object pick.object) pick.model)
    schedule

theorem further_append (schedule : Schedule) (picks more : List Pick) :
    further schedule (picks ++ more) = further (further schedule picks) more :=
  List.foldl_append

theorem further_eq (picks : List Pick) : further {} picks = .ofPicks picks := by
  induction picks using List.reverseRecOn with
  | nil => rfl
  | append_singleton picks pick ih =>
    rw [further_append, ih]
    obtain ⟨model, h, rule⟩ := pick
    cases rule with
    | none => simp [further, Schedule.add, Schedule.ofPicks]
    | some rule => simp [further, Schedule.add, Schedule.ofPicks]

/-- The positions are those in the list. -/
theorem ofPicks_positions (picks : List Pick) :
    (Schedule.ofPicks picks).applications.map (·.position) =
      List.range (Schedule.ofPicks picks).applications.length := by
  apply List.ext_getElem
  · simp
  · simp [Schedule.ofPicks]

theorem matchObjects_eq_value :
    matchObjects self setting m name schedule objects s = .value final t ↔
      ∃ picks, Picks self setting m name objects s picks t ∧ final = further schedule picks := by
  induction objects generalizing schedule s with
  | nil =>
    simp only [matchObjects, pure_eq_value]
    constructor
    · rintro ⟨rfl, rfl⟩
      exact ⟨[], .nil, rfl⟩
    · rintro ⟨picks, picked, rfl⟩
      cases picked
      exact ⟨rfl, rfl⟩
  | cons h rest ih =>
    simp only [matchObjects, bind_eq_value, ih]
    constructor
    · rintro ⟨rule, u, selected, picks, picked, rfl⟩
      exact ⟨⟨name, h, rule⟩ :: picks, .cons selected picked, rfl⟩
    · rintro ⟨picks, picked, rfl⟩
      cases picked with
      | cons selected others => exact ⟨_, _, selected, _, others, rfl⟩

theorem matchModels_eq_value :
    matchModels self setting m providers schedule names s = .value final t ↔
      ∃ picks, Traverses self setting m providers names s picks t ∧ final = further schedule picks := by
  induction names generalizing schedule s with
  | nil =>
    simp only [matchModels, pure_eq_value]
    constructor
    · rintro ⟨rfl, rfl⟩
      exact ⟨[], .nil, rfl⟩
    · rintro ⟨picks, traversed, rfl⟩
      cases traversed
      exact ⟨rfl, rfl⟩
  | cons name rest ih =>
    unfold matchModels
    constructor
    · intro ended
      cases known : providers.get? name with
      | none =>
        simp only [known] at ended
        exact absurd ended fail_ne_value
      | some provider =>
        simp only [known, state_bind] at ended
        obtain ⟨objects, _, lists, ended⟩ := bind_eq_value.1 ended
        obtain ⟨listed, rfl⟩ := collaborate_eq_value.1 lists
        obtain ⟨between, u, matched, ended⟩ := bind_eq_value.1 ended
        obtain ⟨picks, here, rfl⟩ := matchObjects_eq_value.1 matched
        obtain ⟨more, others, rfl⟩ := ih.1 ended
        exact ⟨picks ++ more, .cons known listed here others, (further_append schedule picks more).symm⟩
    · rintro ⟨picks, traversed, rfl⟩
      cases traversed with
      | cons known lists here others =>
        simp only [known, state_bind]
        refine bind_eq_value.2 ⟨_, _, collaborate_eq_value.2 ⟨lists, rfl⟩, ?_⟩
        refine bind_eq_value.2 ⟨_, _, matchObjects_eq_value.2 ⟨_, here, rfl⟩, ?_⟩
        exact ih.2 ⟨_, others, further_append schedule _ _⟩

theorem buildSchedule_eq_value :
    buildSchedule self setting m providers s = .value schedule t ↔
      ∃ picks, Traverses self setting m providers m.sources.names s picks t ∧
        schedule = .ofPicks picks := by
  unfold buildSchedule
  rw [matchModels_eq_value]
  simp only [further_eq]

/-! What is scheduled once more. -/

namespace Pursuing
variable {R : World → Engine → Engine → Prop} {family : Nat → Evaluator} {w : World}
  (pursuing : Pursuing R setting setting' self family)
include pursuing

theorem selectRule (m : Module) (model : String) (h : Handle) :
    Tracks R same w (selectRule self setting m (.object h) model) fun n =>
      Engine.selectRule (family n) setting' m (.object h) model := by
  intro s t related
  have found := pursuing.facing.given related h
  exact pursuing.led.selectRule m model found (pursuing.facing.ancestry found) s t related

theorem matchObjects (m : Module) (model : String) (schedule : Schedule) (objects : List Handle) :
    Tracks R same w (matchObjects self setting m model schedule objects) fun n =>
      Engine.matchObjects (family n) setting' m model schedule objects := by
  induction objects generalizing schedule w with
  | nil => exact .pure rfl
  | cons h rest ih =>
    refine .bind (pursuing.selectRule m model h) fun {w' rule _} _ same => ?_
    subst same
    exact ih _

theorem matchModels (m : Module) (providers : Named Provider) (schedule : Schedule)
    (names : List String) :
    Tracks R same w (matchModels self setting m providers schedule names) fun n =>
      Engine.matchModels (family n) setting' m providers schedule names := by
  induction names generalizing schedule w with
  | nil => exact .pure rfl
  | cons name rest ih =>
    unfold Engine.matchModels
    cases providers.get? name with
    | none => exact .fail
    | some provider =>
      refine .state fun s t related => ?_
      rw [(pursuing.facing.opposite related).store]
      have lists : Tracks R same w (collaborate ("objects of " ++ name) (provider.objects s.store))
          fun _ => collaborate ("objects of " ++ name) (provider.objects s.store) :=
        .collaborate (.refl _)
      refine lists.bind (fun {w₁ objects _} _ same => ?_) s t related
      subst same
      refine .bind (pursuing.matchObjects m name schedule objects) fun {w₂ between _} _ same => ?_
      subst same
      exact ih _

end Pursuing

theorem buildSchedule_uniform (m : Module) (providers : Named Provider) :
    Uniform fun self setting => buildSchedule self setting m providers :=
  ⟨fun pursuing => pursuing.matchModels m providers _ _⟩

/-- What is built is built by all evaluators that may go deeper. -/
theorem buildSchedule_deeper {n depth : Nat} (deep : n ≤ depth)
    (ended : buildSchedule (evaluateWithin setting n) setting m providers s = .value schedule t) :
    buildSchedule (evaluateWithin setting depth) setting m providers s = .value schedule t :=
  ((evaluateWithin_approximates setting deep).heeds.matchModels m providers _ _).below.value ended

/-- A schedule that is built lists the objects that a rule is selected for, in the order of the models and
of what these list, with the positions that they have in it, and counts all that were examined. Where rules
are refused and native operations are repeatable, an evaluator that may go deep enough builds the same once
more, in the state that is left the first time, with the attributes that are kept since then. -/
theorem schedule_repeatable (setting : Setting) (m : Module) (providers : Named Provider) (s : Engine) :
    (∀ self schedule t, buildSchedule self setting m providers s = .value schedule t ↔
      ∃ picks, Traverses self setting m providers m.sources.names s picks t ∧
        schedule = .ofPicks picks) ∧
    (∀ picks, (Schedule.ofPicks picks).applications.map (·.position) =
      List.range (Schedule.ofPicks picks).applications.length) ∧
    ((∀ name native, setting.helpers.natives.get? name = some native → native.Repeatable) →
      Refusing setting s → Grounded s → ∀ n schedule t,
        buildSchedule (evaluateWithin setting n) setting m providers s = .value schedule t →
          ∃ enough, ∀ bound, enough ≤ bound →
            buildSchedule (evaluateWithin setting bound) setting m providers s = .value schedule t ∧
              ∃ u, buildSchedule (evaluateWithin setting bound) setting m providers t =
                .value schedule u) := by
  refine ⟨fun self schedule t => buildSchedule_eq_value, ofPicks_positions, ?_⟩
  intro repeatable refusing grounded n schedule t built
  obtain ⟨entries, last, provision⟩ := exists_provision (repeatable _ _) refusing grounded
  have uniform := buildSchedule_uniform m providers
  obtain ⟨amounts, w, backed⟩ := provision.amounts uniform provision.backed built
  obtain ⟨u, -, -, enough, goes⟩ := provision.goes uniform backed amounts
  refine ⟨max n enough, fun bound deep => ⟨buildSchedule_deeper ?_ built, u, goes bound ?_⟩⟩
  · exact le_trans (Nat.le_max_left _ _) deep
  · exact le_trans (Nat.le_max_right _ _) deep

end Engine

/-! A guard that reads an attribute, which reads another one and calls a native operation. -/
namespace Limits

def cls : Metaclass := { name := "T", features := [], supertypes := [], abstract := false }

def store : Store where
  entities := #[.instance cls [], .instance cls []]
  models := #[⟨"source", .ofClasses "M" [cls], [1, 0]⟩]

def read (name : String) : Expr := .navigation (.variable "thisModule" {}) name {}

def setting : Setting where
  helpers := {
    module := [("limit", { name := "limit", body := .call "count" [read "one", read "one"] {} }),
      ("one", { name := "one", body := .literal (.integer 1) {} })]
    natives := Native.stock }

def program : Module where
  name := "limits"
  sources := [("IN", "M")]
  targets := []
  matched := [{
    name := "R"
    source := {
      name := "x", type := "T"
      guard := some (.binary .eq (read "limit") (.literal (.integer 2) {}) {}) }
    outputs := [{ name := "o", type := "T" }]
    loc := {}, productive := by simp, distinct := by simp, apart := by simp }]
  lazy := []
  called := []
  helpers := []

def providers : Named Provider := [("IN", { model := 0 })]

theorem grounded : Engine.Grounded { store } where
  features {h feature v} read := by
    match h with
    | 0 | 1 => cases read
    | h + 2 => cases read
  links _ member := by cases member
  attributes read := by cases read

/-- Both objects are scheduled, and the attributes are kept, the inner one first. -/
def kept : Outcome Engine Schedule → Bool
  | .value schedule t => schedule.applications.length == 2 && t.attributes.names == ["one", "limit"]
  | _ => false

theorem of_kept {outcome : Outcome Engine Schedule} (passed : kept outcome = true) :
    ∃ schedule t, outcome = .value schedule t ∧ schedule.applications.length = 2 ∧
      t.attributes.names = ["one", "limit"] := by
  cases outcome with
  | value schedule t =>
    rw [kept, Bool.and_eq_true, beq_iff_eq, beq_iff_eq] at passed
    exact ⟨schedule, t, rfl, passed⟩
  | _ => cases passed

end Limits

theorem schedule_repeatable_limits : ∃ schedule t u bound,
    schedule.applications.length = 2 ∧ t.attributes.names = ["one", "limit"] ∧
    Engine.buildSchedule (Engine.evaluateWithin Limits.setting bound) Limits.setting Limits.program
      Limits.providers { store := Limits.store } = .value schedule t ∧
    Engine.buildSchedule (Engine.evaluateWithin Limits.setting bound) Limits.setting Limits.program
      Limits.providers t = .value schedule u := by
  have passed : Limits.kept (Engine.buildSchedule (Engine.evaluateWithin Limits.setting 6)
      Limits.setting Limits.program Limits.providers { store := Limits.store }) = true := by
    decide +kernel
  obtain ⟨schedule, t, built, both, attributes⟩ := Limits.of_kept passed
  obtain ⟨-, -, repeatable⟩ := Engine.schedule_repeatable Limits.setting Limits.program
    Limits.providers { store := Limits.store }
  obtain ⟨enough, goes⟩ := repeatable (fun _ _ => Native.stock_repeatable) nofun Limits.grounded 6
    schedule t built
  obtain ⟨built, u, again⟩ := goes enough le_rfl
  exact ⟨schedule, t, u, enough, both, attributes, built, again⟩

end Metamorph
