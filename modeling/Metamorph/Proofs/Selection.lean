import Metamorph.Proofs.Phases

/-! What is scheduled: rules that the module declares for matching, and no others. -/
namespace Metamorph

/-- The schedule applies rules of the module. -/
def Schedule.Declared (m : Module) (schedule : Schedule) : Prop :=
  ∀ a ∈ schedule.applications, a.rule ∈ m.matched

namespace Engine
open Run
variable {setting : Setting} {self : Evaluator} {m : Module} {s u : Engine}

theorem add_declared {schedule : Schedule} (declared : schedule.Declared m)
    {rule : Option MatchedRule} (known : ∀ r, rule = some r → r ∈ m.matched) (source : Value)
    (model : String) : (Schedule.add schedule rule source model).Declared m := by
  intro a member
  cases rule with
  | none => exact declared a member
  | some r =>
    rcases List.mem_append.1 member with old | new
    · exact declared a old
    · obtain rfl := List.mem_singleton.1 new
      exact known r rfl

theorem winners_sublist {source : Value} {best : Option Nat} {fitting : List (Nat × MatchedRule)}
    {rules : List MatchedRule} (ended : winners self setting source best fitting s = .value rules u) :
    List.Sublist rules (fitting.map (·.2)) := by
  induction fitting generalizing best rules s u with
  | nil =>
    obtain ⟨rfl, -⟩ := pure_eq_value.1 ended
    exact .slnil
  | cons candidate rest ih =>
    unfold winners at ended
    split at ended
    · obtain ⟨rfl, -⟩ := pure_eq_value.1 ended
      exact List.nil_sublist _
    · obtain ⟨holds, w, -, ended⟩ := bind_eq_value.1 ended
      split at ended
      · obtain ⟨others, x, later, ended⟩ := bind_eq_value.1 ended
        obtain ⟨rfl, -⟩ := pure_eq_value.1 ended
        exact (ih later).cons_cons _
      · exact (ih ended).cons _

theorem selectRule_declared {source : Value} {model : String} {rule : MatchedRule}
    (ended : selectRule self setting m source model s = .value (some rule) u) :
    rule ∈ m.matched := by
  obtain ⟨found, v, -, ended⟩ := bind_eq_value.1 ended
  obtain ⟨rules, w, won, ended⟩ := bind_eq_value.1 ended
  split at ended
  · simp at ended
  · obtain ⟨same, -⟩ := pure_eq_value.1 ended
    cases same
    have among := (winners_sublist won).subset (List.mem_singleton_self _)
    obtain ⟨candidate, member, rfl⟩ := List.mem_map.1 among
    exact candidates_declared member
  · simp [bind_eq_value] at ended

theorem matchObjects_declared {model : String} {objects : List Handle} {schedule final : Schedule}
    (declared : schedule.Declared m)
    (ended : matchObjects self setting m model schedule objects s = .value final u) :
    final.Declared m := by
  induction objects generalizing schedule s with
  | nil =>
    obtain ⟨rfl, -⟩ := pure_eq_value.1 ended
    exact declared
  | cons h rest ih =>
    obtain ⟨rule, w, selected, ended⟩ := bind_eq_value.1 ended
    refine ih (add_declared declared (fun r same => ?_) _ _) ended
    exact selectRule_declared (same ▸ selected)

theorem matchModels_declared {providers : Named Provider} {names : List String}
    {schedule final : Schedule} (declared : schedule.Declared m)
    (ended : matchModels self setting m providers schedule names s = .value final u) :
    final.Declared m := by
  induction names generalizing schedule s with
  | nil =>
    obtain ⟨rfl, -⟩ := pure_eq_value.1 ended
    exact declared
  | cons name rest ih =>
    unfold matchModels at ended
    cases known : providers.get? name with
    | none => simp [known] at ended
    | some provider =>
      simp only [known] at ended
      obtain ⟨_, _, -, ended⟩ := bind_eq_value.1 ended
      obtain ⟨objects, v, -, ended⟩ := bind_eq_value.1 ended
      obtain ⟨between, w, matched, ended⟩ := bind_eq_value.1 ended
      exact ih (matchObjects_declared declared matched) ended

theorem scheduled_declared {t : Transformation}
    (ended : matchSources self setting t s = .value () u) :
    ∀ a ∈ scheduled u, a.rule ∈ t.module.matched := by
  obtain ⟨schedule, w, built, planned⟩ := bind_eq_value.1 ended
  obtain rfl := modify_eq_value.1 planned
  exact matchModels_declared (by simp [Schedule.Declared]) built

end Engine

end Metamorph
