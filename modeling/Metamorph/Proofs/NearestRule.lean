import Mathlib.Data.List.Perm.Basic
import Metamorph.Proofs.Scheduling

/-! The nearest rule. Of the candidates for an object those are tried that are no farther than the nearest
one that accepts it. Which of these accept it decides alone: the rule is the one of them that does, if there
is one, and it is the same one in whichever order the rules are declared. -/
namespace Metamorph

/-- What became of a candidate that was tried. -/
structure Verdict where
  distance : Nat
  rule : MatchedRule
  holds : Bool

/-- The rules whose guards hold. -/
def accepting (verdicts : List Verdict) : List MatchedRule :=
  (verdicts.filter (·.holds)).map (·.rule)

/-- The input class of the rule is among the types of an object, at the distance, and its qualifier, if it
has one, names the model that lists the object or the metamodel declared for that. -/
structure MatchedRule.Fits (m : Module) (types : Named Nat) (model : String) (distance : Nat)
    (rule : MatchedRule) : Prop where
  declared : rule ∈ m.matched
  type : types.get? (className rule.source.type) = some distance
  qualifier : ∀ q, (splitTypeName rule.source.type).1 = some q →
    q = model ∨ m.sources.get? model = some q

namespace Engine
open Run

/-- The guards of the candidates, evaluated one after the other. -/
def judged (self : Evaluator) (setting : Setting) (source : Value) :
    List (Nat × MatchedRule) → Run Engine (List Verdict)
  | [] => return []
  | (distance, rule) :: rest => do
    let holds ← guardHolds self setting rule source
    return ⟨distance, rule, holds⟩ :: (← judged self setting source rest)

/-- The candidates that are no farther than the limit, or all of them where there is none. -/
def upTo (limit : Option Nat) (fitting : List (Nat × MatchedRule)) : List (Nat × MatchedRule) :=
  fitting.filter fun candidate => limit.all (candidate.1 ≤ ·)

/-- The candidates up to the limit come to these verdicts. The limit is the least distance at which one
holds; there is none if none does. -/
structure Trial (evaluator : Evaluator) (setting : Setting) (source : Value)
    (fitting : List (Nat × MatchedRule)) (s : Engine) (limit : Option Nat) (verdicts : List Verdict)
    (t : Engine) : Prop where
  ended : judged evaluator setting source (upTo limit fitting) s = .value verdicts t
  nearest : ∀ v ∈ verdicts, v.holds = true → limit = some v.distance
  attained : limit.isSome = true → ∃ v ∈ verdicts, v.holds = true

variable {self other : Evaluator} {setting : Setting} {m : Module} {model : String} {h : Handle}
  {source : Value} {types : Named Nat} {fitting : List (Nat × MatchedRule)} {limit best : Option Nat}
  {verdicts : List Verdict} {s t : Engine}

/-! The candidates. -/

theorem acceptsModel_iff {rule : MatchedRule} : acceptsModel m rule model = true ↔
    ∀ q, (splitTypeName rule.source.type).1 = some q → q = model ∨ m.sources.get? model = some q := by
  unfold acceptsModel
  cases (splitTypeName rule.source.type).1 with
  | none => simp
  | some q =>
    cases m.sources.get? model with
    | none => simp
    | some name => simp [eq_comm (a := name)]

/-- The candidates as declared. -/
def fits (m : Module) (types : Named Nat) (model : String) : List (Nat × MatchedRule) :=
  m.matched.filterMap fun rule =>
    if acceptsModel m rule model then
      (types.get? (className rule.source.type)).map fun distance => (distance, rule)
    else none

theorem mem_candidates {distance : Nat} {rule : MatchedRule} :
    (distance, rule) ∈ candidates m types model ↔ rule.Fits m types model distance := by
  have sorted : (distance, rule) ∈ candidates m types model ↔ (distance, rule) ∈ fits m types model :=
    List.mem_mergeSort
  rw [sorted, fits, List.mem_filterMap]
  constructor
  · rintro ⟨rule', declared, chosen⟩
    split at chosen
    · rename_i accepts
      obtain ⟨_, known, same⟩ := Option.map_eq_some_iff.1 chosen
      cases same
      exact ⟨declared, known, acceptsModel_iff.1 accepts⟩
    · cases chosen
  · intro candidate
    refine ⟨rule, candidate.declared, ?_⟩
    rw [if_pos (acceptsModel_iff.2 candidate.qualifier), candidate.type]
    rfl

/-- Which of two candidates is tried first. -/
def nearer (a b : Nat × MatchedRule) : Bool := decide (a.1 ≤ b.1)

theorem nearer_trans (a b c : Nat × MatchedRule) (first : nearer a b = true)
    (second : nearer b c = true) : nearer a c = true := by
  simp only [nearer, decide_eq_true_eq] at first second ⊢
  omega

theorem nearer_total (a b : Nat × MatchedRule) : (nearer a b || nearer b a) = true := by
  simp only [nearer, Bool.or_eq_true, decide_eq_true_eq]
  omega

theorem candidates_sorted (m : Module) (types : Named Nat) (model : String) :
    (candidates m types model).Pairwise fun a b => a.1 ≤ b.1 := by
  refine List.Pairwise.imp ?_ (List.pairwise_mergeSort nearer_trans nearer_total (fits m types model))
  intro a b
  simp [nearer]

/-- Candidates at one distance are tried as they are declared. -/
theorem candidates_at (m : Module) (types : Named Nat) (model : String) (distance : Nat) :
    (candidates m types model).filter (·.1 == distance) =
      (fits m types model).filter (·.1 == distance) := by
  have tied : ((fits m types model).filter (·.1 == distance)).Pairwise fun a b => nearer a b = true := by
    refine List.pairwise_of_forall_mem_list fun a here b there => ?_
    simp only [List.mem_filter, beq_iff_eq] at here there
    simp [nearer, here.2, there.2]
  have part := (List.sublist_mergeSort nearer_trans nearer_total tied List.filter_sublist).filter
    (·.1 == distance)
  rw [List.filter_filter] at part
  simp only [Bool.and_self] at part
  refine (part.eq_of_length ?_).symm
  exact (((List.mergeSort_perm (fits m types model) nearer).filter _).length_eq).symm

theorem candidates_perm {rules : List MatchedRule} (perm : rules.Perm m.matched) (types : Named Nat)
    (model : String) :
    (candidates { m with matched := rules } types model).Perm (candidates m types model) := by
  have declared : (fits { m with matched := rules } types model).Perm (fits m types model) :=
    perm.filterMap _
  exact ((List.mergeSort_perm _ _).trans declared).trans (List.mergeSort_perm _ _).symm

/-! What is tried. -/

theorem judged_map (ended : judged self setting source fitting s = .value verdicts t) :
    verdicts.map (fun v => (v.distance, v.rule)) = fitting := by
  induction fitting generalizing verdicts s with
  | nil =>
    obtain ⟨rfl, -⟩ := pure_eq_value.1 ended
    rfl
  | cons candidate rest ih =>
    obtain ⟨distance, rule⟩ := candidate
    obtain ⟨holds, u, -, ended⟩ := bind_eq_value.1 ended
    obtain ⟨others, _, later, ended⟩ := bind_eq_value.1 ended
    obtain ⟨rfl, rfl⟩ := pure_eq_value.1 ended
    rw [List.map_cons, ih later]

/-- Of candidates in the order of their distances those are the winners that accept at the limit. -/
theorem winners_judged (sorted : fitting.Pairwise fun a b => a.1 ≤ b.1)
    (ended : judged self setting source (upTo limit fitting) s = .value verdicts t)
    (nearest : ∀ v ∈ verdicts, v.holds = true → limit = some v.distance)
    (attained : limit.isSome = true → best = limit ∨ ∃ v ∈ verdicts, v.holds = true)
    (start : best = none ∨ best = limit) :
    winners self setting source best fitting s = .value (accepting verdicts) t := by
  induction fitting generalizing best verdicts s with
  | nil =>
    obtain ⟨rfl, rfl⟩ := pure_eq_value.1 ended
    rfl
  | cons candidate rest ih =>
    obtain ⟨distance, rule⟩ := candidate
    obtain ⟨least, sorted⟩ := List.pairwise_cons.1 sorted
    unfold winners
    by_cases near : limit.all (distance ≤ ·) = true
    · -- The candidate is tried.
      have tried : upTo limit ((distance, rule) :: rest) = (distance, rule) :: upTo limit rest :=
        List.filter_cons_of_pos near
      have stays : best.any (· < distance) = false := by
        rcases start with rfl | rfl
        · rfl
        · cases best with
          | none => rfl
          | some d => simpa using near
      rw [tried] at ended
      obtain ⟨holds, u, guarded, ended⟩ := bind_eq_value.1 ended
      obtain ⟨others, x, later, ended⟩ := bind_eq_value.1 ended
      obtain ⟨rfl, rfl⟩ := pure_eq_value.1 ended
      rw [List.forall_mem_cons] at nearest
      rw [stays, if_neg Bool.false_ne_true, bind_of_value guarded]
      cases holds with
      | true =>
        have here := nearest.1 rfl
        rw [if_pos rfl, bind_of_value (ih sorted later nearest.2 (fun _ => .inl here.symm)
          (.inr here.symm))]
        rfl
      | false =>
        rw [if_neg Bool.false_ne_true, ih sorted later nearest.2 (fun given => ?_) start]
        · rfl
        · refine (attained given).imp_right ?_
          rintro ⟨v, member, holds⟩
          rcases List.mem_cons.1 member with rfl | member
          · cases holds
          · exact ⟨v, member, holds⟩
    · -- It is farther than the limit, and so are all that come after it.
      cases limit with
      | none => simp at near
      | some d =>
        have far : d < distance := by simpa using near
        have nothing : upTo (some d) ((distance, rule) :: rest) = [] := by
          refine List.filter_eq_nil_iff.2 fun other member => ?_
          have bound : distance ≤ other.1 := by
            rcases List.mem_cons.1 member with rfl | member
            · exact le_rfl
            · exact least other member
          simp only [Option.all_some, decide_eq_true_eq]
          omega
        rw [nothing] at ended
        obtain ⟨rfl, rfl⟩ := pure_eq_value.1 ended
        have reached : best = some d := by simpa using attained rfl
        rw [reached, Option.any_some, if_pos (by simpa using far)]
        rfl

theorem judged_congr (same : ∀ candidate ∈ fitting,
    guardHolds other setting candidate.2 source = guardHolds self setting candidate.2 source) :
    judged other setting source fitting = judged self setting source fitting := by
  induction fitting with
  | nil => rfl
  | cons candidate rest ih =>
    obtain ⟨distance, rule⟩ := candidate
    obtain ⟨here, others⟩ := List.forall_mem_cons.1 same
    unfold judged
    rw [here, ih others]

/-! What is selected. -/

/-- How the selection for the object ends if these rules accept it. -/
def elected (h : Handle) (t : Engine) : List MatchedRule → Outcome Engine (Option MatchedRule)
  | [] => .value none t
  | [rule] => .value (some rule) t
  | rules => .failure (ambiguousMatch ((Value.object h).render t.store.label true) rules) t

namespace Trial

theorem selects (known : ancestry setting (.object h) s = .value types s)
    (trial : Trial self setting (.object h) (candidates m types model) s limit verdicts t) :
    selectRule self setting m (.object h) model s = elected h t (accepting verdicts) := by
  have won : winners self setting (.object h) none (candidates m types model) s =
      .value (accepting verdicts) t :=
    winners_judged (candidates_sorted m types model) trial.ended trial.nearest
      (fun given => .inr (trial.attained given)) (.inl rfl)
  unfold selectRule
  rw [bind_of_value known, bind_of_value won]
  cases accepting verdicts with
  | nil => rfl
  | cons first rest => cases rest <;> rfl

/-- The guards of candidates that are farther than the limit do not matter. -/
theorem unaffected (trial : Trial self setting source (candidates m types model) s limit verdicts t)
    (same : ∀ distance rule, rule.Fits m types model distance → limit.all (distance ≤ ·) = true →
      guardHolds other setting rule source = guardHolds self setting rule source) :
    Trial other setting source (candidates m types model) s limit verdicts t where
  ended := by
    rw [← trial.ended, judged_congr]
    intro candidate member
    obtain ⟨listed, near⟩ := List.mem_filter.1 member
    exact same _ _ (mem_candidates.1 listed) near
  nearest := trial.nearest
  attained := trial.attained

end Trial

theorem fits_sublist (m : Module) (types : Named Nat) (model : String) :
    ((fits m types model).map (·.2)).Sublist m.matched := by
  unfold fits
  rw [List.map_filterMap]
  induction m.matched with
  | nil => exact .slnil
  | cons rule rest ih =>
    rw [List.filterMap_cons]
    split
    · exact ih.cons _
    · rename_i rule' chosen
      obtain ⟨_, candidate, rfl⟩ := Option.map_eq_some_iff.1 chosen
      split at candidate
      · obtain ⟨distance, -, rfl⟩ := Option.map_eq_some_iff.1 candidate
        exact ih.cons_cons _
      · cases candidate

/-- The rules that accept stand in the order of their declaration. -/
theorem Trial.declared
    (trial : Trial self setting source (candidates m types model) s limit verdicts t) :
    (accepting verdicts).Sublist m.matched := by
  cases limit with
  | none =>
    have nothing : verdicts.filter (·.holds) = [] :=
      List.filter_eq_nil_iff.2 fun v member holds => by cases trial.nearest v member holds
    rw [accepting, nothing]
    exact List.nil_sublist _
  | some d =>
    have here : verdicts.filter (·.holds) = (verdicts.filter (·.distance == d)).filter (·.holds) := by
      rw [List.filter_filter]
      refine List.filter_congr fun v member => ?_
      cases holds : v.holds with
      | false => rfl
      | true =>
        have same := trial.nearest v member holds
        simp_all
    have keyed : (verdicts.filter (·.distance == d)).map (fun v => (v.distance, v.rule)) =
        (upTo (some d) (candidates m types model)).filter (·.1 == d) := by
      rw [← judged_map trial.ended, List.filter_map]
      rfl
    have part : ((verdicts.filter (·.distance == d)).map (·.rule)).Sublist
        ((fits m types model).map (·.2)) := by
      have listed := (List.filter_sublist (p := fun candidate : Nat × MatchedRule => candidate.1 == d)
        (l := fits m types model)).map (·.2)
      rw [← candidates_at] at listed
      have tried : (upTo (some d) (candidates m types model)).Sublist (candidates m types model) :=
        List.filter_sublist
      have near := (tried.filter (·.1 == d)).map (·.2)
      rw [← keyed, List.map_map] at near
      exact near.trans listed
    rw [accepting, here]
    exact ((List.filter_sublist.map _).trans part).trans (fits_sublist m types model)

/-! Rules in another order. -/

theorem guardHolds_uniform (rule : MatchedRule) (h : Handle) :
    Uniform fun self setting => guardHolds self setting rule (.object h) :=
  ⟨fun pursuing s t related =>
    pursuing.led.guardHolds rule (pursuing.facing.given related h) s t related⟩

section
variable {entries : List Entry} {last : Identity} {w : World}

/-- The verdict is what the guard comes to where attributes are in stock. -/
def Verdict.Sound (setting : Setting) (s : Engine) (entries : List Entry) (last : Identity) (h : Handle)
    (v : Verdict) : Prop :=
  AmountsTo setting s entries last (fun self setting => guardHolds self setting v.rule (.object h)) v.holds

namespace Provision
variable (provision : Provision setting s entries last)
include provision

theorem judged_sound {n : Nat} {a b : Engine} (backed : Backed setting s entries last w a)
    (ended : judged (evaluateWithin setting n) setting (.object h) fitting a = .value verdicts b) :
    ∀ v ∈ verdicts, Verdict.Sound setting s entries last h v := by
  induction fitting generalizing verdicts a w with
  | nil =>
    obtain ⟨rfl, -⟩ := pure_eq_value.1 ended
    exact fun _ member => by cases member
  | cons candidate rest ih =>
    obtain ⟨distance, rule⟩ := candidate
    obtain ⟨holds, u, guarded, ended⟩ := bind_eq_value.1 ended
    obtain ⟨others, x, later, ended⟩ := bind_eq_value.1 ended
    obtain ⟨rfl, rfl⟩ := pure_eq_value.1 ended
    obtain ⟨amounts, w', backed'⟩ := provision.amounts (guardHolds_uniform rule h) backed guarded
    exact List.forall_mem_cons.2 ⟨amounts, ih backed' later⟩

theorem judges_sound {a : Engine} (backed : Backed setting s entries last w a)
    (sound : ∀ v ∈ verdicts, Verdict.Sound setting s entries last h v) :
    ∃ b, Deep fun n => judged (evaluateWithin setting n) setting (.object h)
      (verdicts.map fun v => (v.distance, v.rule)) a = .value verdicts b := by
  induction verdicts generalizing a w with
  | nil => exact ⟨a, .of_forall fun _ => rfl⟩
  | cons v rest ih =>
    obtain ⟨here, others⟩ := List.forall_mem_cons.1 sound
    obtain ⟨u, w', backed', guarded⟩ := provision.goes (guardHolds_uniform v.rule h) backed here
    obtain ⟨b, later⟩ := ih backed' others
    refine ⟨b, Deep.imp (Deep.both guarded later) fun n both => ?_⟩
    rw [List.map_cons]
    exact bind_eq_value.2 ⟨_, u, both.1, bind_eq_value.2 ⟨_, b, both.2, rfl⟩⟩

/-- Candidates in another order come to the same verdicts, in that order. -/
theorem rearranged {n : Nat} {others : List (Nat × MatchedRule)} (perm : others.Perm fitting)
    (trial : Trial (evaluateWithin setting n) setting (.object h) fitting s limit verdicts t) :
    ∃ verdicts' b, verdicts'.Perm verdicts ∧ Deep fun n =>
      Trial (evaluateWithin setting n) setting (.object h) others s limit verdicts' b := by
  have keys : List.Forall₂ (fun candidate v => (Verdict.distance v, Verdict.rule v) = candidate)
      (upTo limit fitting) verdicts := by
    rw [← judged_map trial.ended]
    exact List.forall₂_map_left_iff.2 (List.forall₂_same.2 fun _ _ => rfl)
  obtain ⟨verdicts', keys', perm'⟩ := List.perm_comp_forall₂ (perm.filter _) keys
  have listed : verdicts'.map (fun v => (v.distance, v.rule)) = upTo limit others := by
    rw [← List.forall₂_eq_eq_eq]
    exact List.forall₂_map_left_iff.2 keys'.flip
  have sound := provision.judged_sound provision.backed trial.ended
  obtain ⟨b, judges⟩ := provision.judges_sound provision.backed
    fun v member => sound v (perm'.mem_iff.1 member)
  refine ⟨verdicts', b, perm', judges.imp fun n ended => ?_⟩
  exact {
    ended := listed ▸ ended
    nearest := fun v member => trial.nearest v (perm'.mem_iff.1 member)
    attained := fun given => by
      obtain ⟨v, member, holds⟩ := trial.attained given
      exact ⟨v, perm'.mem_iff.2 member, holds⟩ }

end Provision
end

/-- How a rule is selected for the object where these are the rules that accept it: none if there are none,
the only one, or none of several, which are named in an error. They stand as the module declares them. -/
structure Selected (evaluator : Evaluator) (setting : Setting) (m : Module) (h : Handle) (model : String)
    (s t : Engine) (rules : List MatchedRule) : Prop where
  undefined : (∃ u, selectRule evaluator setting m (.object h) model s = .value none u) ↔ rules = []
  chosen : ∀ rule, (∃ u, selectRule evaluator setting m (.object h) model s = .value (some rule) u) ↔
    rules = [rule]
  ambiguous : ∀ fault, (∃ u, selectRule evaluator setting m (.object h) model s = .failure fault u) ↔
    2 ≤ rules.length ∧ fault = ambiguousMatch ((Value.object h).render t.store.label true) rules
  declared : rules.Sublist m.matched

theorem Trial.selected (known : ancestry setting (.object h) s = .value types s)
    (trial : Trial self setting (.object h) (candidates m types model) s limit verdicts t) :
    Selected self setting m h model s t (accepting verdicts) where
  undefined := by
    rw [trial.selects known]
    cases accepting verdicts with
    | nil => simp [elected]
    | cons first rest => cases rest <;> simp [elected]
  chosen rule := by
    rw [trial.selects known]
    cases accepting verdicts with
    | nil => simp [elected]
    | cons first rest => cases rest <;> simp [elected]
  ambiguous fault := by
    rw [trial.selects known]
    cases accepting verdicts with
    | nil => simp [elected]
    | cons first rest => cases rest <;> simp [elected, eq_comm (a := fault)]
  declared := trial.declared

/-- Whatever the order of the rules that accept, the same rule is selected, or none. -/
theorem Selected.same {evaluator : Evaluator} {m' : Module} {u : Engine} {rules others : List MatchedRule}
    (perm : others.Perm rules) (first : Selected evaluator setting m h model s t rules)
    (second : Selected other setting m' h model s u others) (rule : Option MatchedRule) :
    (∃ u, selectRule other setting m' (.object h) model s = .value rule u) ↔
      ∃ u, selectRule evaluator setting m (.object h) model s = .value rule u := by
  cases rule with
  | none =>
    rw [first.undefined, second.undefined]
    constructor
    · rintro rfl
      exact perm.symm.eq_nil
    · rintro rfl
      exact perm.eq_nil
  | some rule =>
    rw [first.chosen, second.chosen]
    constructor
    · rintro rfl
      exact List.perm_singleton.1 perm.symm
    · rintro rfl
      exact List.perm_singleton.1 perm

/-- Where the guards of the candidates up to the least distance at which one holds come to verdicts, the
rule is selected that accepts at this distance, if there is just one. Guards of candidates farther off are
not evaluated. While rules are refused and native operations are repeatable, the selection is the same
whatever the order in which the rules are declared. -/
theorem nearest_rule_selected (setting : Setting) (m : Module) (h : Handle) (model : String)
    (s : Engine) : ∃ types, ancestry setting (.object h) s = .value types s ∧
    (∀ distance rule, (distance, rule) ∈ candidates m types model ↔
      rule.Fits m types model distance) ∧
    (∀ evaluator limit verdicts t,
      Trial evaluator setting (.object h) (candidates m types model) s limit verdicts t →
        Selected evaluator setting m h model s t (accepting verdicts) ∧
        ∀ other, (∀ distance rule, rule.Fits m types model distance →
          limit.all (distance ≤ ·) = true →
            guardHolds other setting rule (.object h) = guardHolds evaluator setting rule (.object h)) →
          selectRule other setting m (.object h) model s =
            selectRule evaluator setting m (.object h) model s) ∧
    ((∀ name native, setting.helpers.natives.get? name = some native → native.Repeatable) →
      Refusing setting s → Grounded s → ∀ n limit verdicts t,
        Trial (evaluateWithin setting n) setting (.object h) (candidates m types model) s limit verdicts t →
          ∀ rules, rules.Perm m.matched → ∃ others u, others.Perm (accepting verdicts) ∧
            ∃ enough, ∀ bound, enough ≤ bound →
              Selected (evaluateWithin setting bound) setting { m with matched := rules } h model s u
                others ∧
              ∀ rule, (∃ u, selectRule (evaluateWithin setting bound) setting { m with matched := rules }
                  (.object h) model s = .value rule u) ↔
                ∃ u, selectRule (evaluateWithin setting n) setting m (.object h) model s =
                  .value rule u) := by
  obtain ⟨types, known⟩ := ancestry_total setting s (.object h)
  refine ⟨types, known, fun _ _ => mem_candidates, fun evaluator limit verdicts t trial => ?_, ?_⟩
  · refine ⟨trial.selected known, fun other same => ?_⟩
    rw [trial.selects known, (trial.unaffected same).selects known]
  · intro repeatable refusing grounded n limit verdicts t trial rules perm
    obtain ⟨entries, last, provision⟩ := exists_provision (repeatable _ _) refusing grounded
    obtain ⟨verdicts', b, perm', enough, tries⟩ :=
      provision.rearranged (candidates_perm perm types model) trial
    have others : (accepting verdicts').Perm (accepting verdicts) := (perm'.filter _).map _
    refine ⟨accepting verdicts', b, others, enough, fun bound deep => ?_⟩
    have selected := (tries bound deep).selected known
    exact ⟨selected, (trial.selected known).same others selected⟩

end Engine

/-! A rule for a class that the object does not pass, two for the class above, of which one does, and one
for the class on top, the guard of which fails. -/
namespace Nearest

def top : Metaclass := { name := "Top", features := [], supertypes := [], abstract := false }

def middle : Metaclass := { name := "Middle", features := [], supertypes := [top], abstract := false }

def bottom : Metaclass := { name := "Bottom", features := [], supertypes := [middle], abstract := false }

def store : Store where
  entities := #[.instance bottom []]
  models := #[⟨"source", .ofClasses "M" [top, middle, bottom], [0]⟩]

def rule (name type : String) (guard : Expr) : MatchedRule where
  name := name
  source := { name := "x", type := type, guard := some guard }
  outputs := [{ name := "o", type := "Top" }]
  loc := {}
  productive := by simp
  distinct := by simp
  apart := by
    simp only [List.map_cons, List.map_nil, List.mem_singleton]
    decide

def number (n : Int) : Expr := .literal (.integer n) {}

def program : Module where
  name := "nearest"
  sources := [("IN", "M")]
  targets := []
  matched := [rule "near" "IN!Bottom" (.literal (.boolean false) {}),
    rule "other" "Middle" (.binary .eq (Limits.read "limit") (number 3) {}),
    rule "chosen" "M!Middle" (.binary .eq (Limits.read "limit") (number 2) {}),
    rule "far" "Top" (.binary .intDiv (number 1) (number 0) {})]
  lazy := []
  called := []
  helpers := []

def types : Named Nat := [("Bottom", 0), ("Middle", 1), ("Top", 2)]

theorem candidates_eq : Engine.candidates program bottom.ancestry "IN" = Engine.fits program types "IN" := by
  have ancestry : bottom.ancestry = types := by decide +kernel
  rw [ancestry]
  apply List.mergeSort_of_pairwise
  decide +kernel

theorem grounded : Engine.Grounded { store } where
  features {h feature v} read := by
    match h with
    | 0 => cases read
    | h + 1 => cases read
  links _ member := by cases member
  attributes read := by cases read

/-- Three candidates were tried, and the last one accepts. -/
def tried : Outcome Engine (List Verdict) → Bool
  | .value verdicts _ => verdicts.map (fun v => (v.distance, v.rule.name, v.holds)) ==
      [(0, "near", false), (1, "other", false), (1, "chosen", true)]
  | _ => false

theorem of_tried {outcome : Outcome Engine (List Verdict)} (passed : tried outcome = true) :
    ∃ a b c t, outcome = .value [⟨0, a, false⟩, ⟨1, b, false⟩, ⟨1, c, true⟩] t ∧ c.name = "chosen" := by
  cases outcome with
  | value verdicts t =>
    rw [tried, beq_iff_eq] at passed
    obtain ⟨first, rest, rfl, one, passed⟩ := List.map_eq_cons_iff.1 passed
    obtain ⟨second, rest, rfl, two, passed⟩ := List.map_eq_cons_iff.1 passed
    obtain ⟨third, rest, rfl, three, passed⟩ := List.map_eq_cons_iff.1 passed
    obtain rfl := List.map_eq_nil_iff.1 passed
    obtain ⟨_, a, _⟩ := first
    obtain ⟨_, b, _⟩ := second
    obtain ⟨_, c, _⟩ := third
    simp only [Prod.mk.injEq] at one two three
    obtain ⟨rfl, -, rfl⟩ := one
    obtain ⟨rfl, -, rfl⟩ := two
    obtain ⟨rfl, named, rfl⟩ := three
    exact ⟨a, b, c, t, rfl, named⟩
  | _ => cases passed

end Nearest

theorem nearest_rule_selected_middle : ∃ rule u u' bound, rule.name = "chosen" ∧
    Engine.selectRule (Engine.evaluateWithin Limits.setting 6) Limits.setting Nearest.program (.object 0)
      "IN" { store := Nearest.store } = .value (some rule) u ∧
    Engine.selectRule (Engine.evaluateWithin Limits.setting bound) Limits.setting
      { Nearest.program with matched := Nearest.program.matched.reverse } (.object 0) "IN"
      { store := Nearest.store } = .value (some rule) u' := by
  obtain ⟨types, known, -, selects, rearranged⟩ := Engine.nearest_rule_selected Limits.setting
    Nearest.program 0 "IN" { store := Nearest.store }
  obtain rfl : types = Nearest.bottom.ancestry := by
    have found : Engine.ancestry Limits.setting (.object 0) { store := Nearest.store } =
      .value Nearest.bottom.ancestry { store := Nearest.store } := rfl
    rw [found] at known
    cases known
    rfl
  have passed : Nearest.tried (Engine.judged (Engine.evaluateWithin Limits.setting 6) Limits.setting
      (.object 0) (Engine.upTo (some 1) (Engine.fits Nearest.program Nearest.types "IN"))
      { store := Nearest.store }) = true := by decide +kernel
  obtain ⟨a, b, c, t, judged, named⟩ := Nearest.of_tried passed
  have trial : Engine.Trial (Engine.evaluateWithin Limits.setting 6) Limits.setting (.object 0)
      (Engine.candidates Nearest.program Nearest.bottom.ancestry "IN") { store := Nearest.store } (some 1)
      [⟨0, a, false⟩, ⟨1, b, false⟩, ⟨1, c, true⟩] t :=
    ⟨Nearest.candidates_eq ▸ judged, by simp, by simp⟩
  obtain ⟨selected, -⟩ := selects _ _ _ _ trial
  obtain ⟨u, chosen⟩ := (selected.chosen c).2 rfl
  obtain ⟨_, _, -, enough, goes⟩ := rearranged (fun _ _ => Native.stock_repeatable) nofun
    Nearest.grounded 6 _ _ _ trial _ (List.reverse_perm _)
  obtain ⟨u', again⟩ := ((goes enough le_rfl).2 (some c)).2 ⟨u, chosen⟩
  exact ⟨c, u, u', enough, named, chosen, again⟩

end Metamorph
