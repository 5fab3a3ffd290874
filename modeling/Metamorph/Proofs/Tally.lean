import Mathlib.Algebra.BigOperators.Group.List.Basic
import Mathlib.Tactic.Abel
import Metamorph.Proofs.Growth
import Metamorph.Proofs.Phases

/-! What the counters of a run add up to. Every rule that is applied adds what it makes and what it
assigns, and a run owes its counters the sum over the rules it applied. -/
namespace Metamorph

/-- Counts of what rules do, `members` those of the objects in the target models. -/
@[ext]
structure Tally where
  objects : Nat := 0
  members : Nat := 0
  bindings : Nat := 0
  matched : Nat := 0
  lazies : Nat := 0
  calls : Nat := 0
  resolved : Nat := 0

namespace Tally

instance : Zero Tally := ⟨{}⟩

instance : Add Tally where
  add a b := {
    objects := a.objects + b.objects
    members := a.members + b.members
    bindings := a.bindings + b.bindings
    matched := a.matched + b.matched
    lazies := a.lazies + b.lazies
    calls := a.calls + b.calls
    resolved := a.resolved + b.resolved }

section
variable (a b : Tally)

@[simp]
theorem add_objects : (a + b).objects = a.objects + b.objects := rfl

@[simp]
theorem add_members : (a + b).members = a.members + b.members := rfl

@[simp]
theorem add_bindings : (a + b).bindings = a.bindings + b.bindings := rfl

@[simp]
theorem add_matched : (a + b).matched = a.matched + b.matched := rfl

@[simp]
theorem add_lazies : (a + b).lazies = a.lazies + b.lazies := rfl

@[simp]
theorem add_calls : (a + b).calls = a.calls + b.calls := rfl

@[simp]
theorem add_resolved : (a + b).resolved = a.resolved + b.resolved := rfl

end

instance : AddCommMonoid Tally where
  add_assoc a b c := by ext <;> exact Nat.add_assoc _ _ _
  zero_add a := by ext <;> exact Nat.zero_add _
  add_zero a := by ext <;> exact Nat.add_zero _
  add_comm a b := by ext <;> exact Nat.add_comm _ _
  nsmul := nsmulRec

/-- What objects that are made count for. -/
def made (n : Nat) : Tally := { objects := n, members := n }

/-- What features that are set count for. -/
def bound (n : Nat) : Tally := { bindings := n }

/-- What turns of the walk count for. -/
def turns (n : Nat) : Tally := { bindings := n, resolved := n }

theorem made_add (n k : Nat) : made (n + k) = made n + made k := rfl

theorem bound_add (n k : Nat) : bound (n + k) = bound n + bound k := rfl

end Tally

def Statement.assigns : Statement → Bool
  | .assign _ _ _ => true
  | .evaluate _ => false

def bindingCount (patterns : List OutPattern) : Nat := (patterns.map (·.bindings.length)).sum

namespace Rule

def outputs : Rule → List OutPattern
  | matched r => r.outputs
  | lazy r => r.outputs
  | called r => r.outputs

def body : Rule → List Statement
  | matched _ | lazy _ => []
  | called r => r.body

def kind : Rule → Tally
  | matched _ => { matched := 1 }
  | lazy _ => { lazies := 1 }
  | called _ => { calls := 1 }

def isMatched : Rule → Bool
  | matched _ => true
  | _ => false

def isLazy : Rule → Bool
  | lazy _ => true
  | _ => false

def isCalled : Rule → Bool
  | called _ => true
  | _ => false

/-- The assignments of one application: of all bindings, and of the statements that are any. -/
def assignments (r : Rule) : Nat := bindingCount r.outputs + r.body.countP Statement.assigns

/-- What one application counts for. -/
def tally (r : Rule) : Tally := .made r.outputs.length + .bound r.assignments + r.kind

theorem tally_matched (rule : MatchedRule) : (Rule.matched rule).tally =
    .made rule.outputs.length + .bound (bindingCount rule.outputs) + { matched := 1 } := rfl

theorem tally_lazy (rule : LazyRule) : (Rule.lazy rule).tally =
    .made rule.outputs.length + .bound (bindingCount rule.outputs) + { lazies := 1 } := rfl

theorem tally_called (rule : CalledRule) : (Rule.called rule).tally =
    .made rule.outputs.length + .bound (called rule).assignments + { calls := 1 } := rfl

end Rule

/-- What a number of applications count for together. -/
theorem sum_tally (rules : List Rule) : (rules.map Rule.tally).sum = {
    objects := (rules.map (·.outputs.length)).sum
    members := (rules.map (·.outputs.length)).sum
    bindings := (rules.map Rule.assignments).sum
    matched := rules.countP Rule.isMatched
    lazies := rules.countP Rule.isLazy
    calls := rules.countP Rule.isCalled } := by
  induction rules with
  | nil => rfl
  | cons r rest ih =>
    rw [List.map_cons, List.sum_cons, ih]
    cases r <;> ext <;>
      simp [Rule.tally, Rule.kind, Rule.isMatched, Rule.isLazy, Rule.isCalled, Tally.made,
        Tally.bound, List.countP_cons, Nat.add_comm]

/-- The rule that is applied in an event: no lazy rule is where its memory answers, and no called rule
where an earlier result does. -/
def Event.rule? (m : Module) : Event → Option Rule
  | .lazy name _ _ _ (_ :: _) => (m.lazyRule? name).map .lazy
  | .called name _ _ _ => (m.calledRule? name).map .called
  | _ => none

/-- The lazy and called rules applied among the events and within them. -/
def rulesWithin (m : Module) (events : List Event) : List Rule :=
  (activitiesAmong events).filterMap (Event.rule? m)

def total (m : Module) (events : List Event) : Tally := ((rulesWithin m events).map Rule.tally).sum

section
variable {m : Module} {events more inner : List Event}

@[simp]
theorem total_nil : total m [] = 0 := rfl

theorem rulesWithin_append :
    rulesWithin m (events ++ more) = rulesWithin m events ++ rulesWithin m more := by
  rw [rulesWithin, activitiesAmong_append, List.filterMap_append]
  rfl

@[simp]
theorem total_append : total m (events ++ more) = total m events + total m more := by
  rw [total, rulesWithin_append, List.map_append, List.sum_append]
  rfl

theorem not_matched_of_mem_rulesWithin {r : Rule} (member : r ∈ rulesWithin m events) :
    r.isMatched = false := by
  obtain ⟨event, -, applied⟩ := List.mem_filterMap.1 member
  unfold Event.rule? at applied
  split at applied
  · obtain ⟨rule, -, rfl⟩ := Option.map_eq_some_iff.1 applied
    rfl
  · obtain ⟨rule, -, rfl⟩ := Option.map_eq_some_iff.1 applied
    rfl
  · cases applied

/-- What happens within an event, and the event itself. -/
theorem total_around {event : Event} (around : event.activities = activitiesAmong inner ++ [event]) :
    total m [event] = total m inner + ((event.rule? m).map Rule.tally).getD 0 := by
  rw [total, rulesWithin, activitiesAmong, around, activitiesAmong, List.append_nil,
    List.filterMap_append, List.map_append, List.sum_append]
  change total m inner + _ = _
  congr 1
  cases own : event.rule? m <;> simp [own]

theorem total_assignment {occasion : Occasion} {work : Assignment} {stored : Option Value} :
    total m [.assignment occasion work stored inner] = total m inner := by
  rw [total_around rfl]
  exact add_zero _

/-- A lazy rule is applied, since something happens within. -/
theorem total_lazy {rule : LazyRule} {argument : Value} {complete : Bool} {result : Option Value}
    {event : Event} (known : m.lazyRule? rule.name = some rule) (within : inner = [event]) :
    total m [.lazy rule.name argument complete result inner] =
      total m inner + (Rule.lazy rule).tally := by
  have applied : Event.rule? m (.lazy rule.name argument complete result inner) =
      some (.lazy rule) := by
    rw [within, Event.rule?, known]
    rfl
  rw [total_around rfl, applied]
  rfl

theorem total_called {rule : CalledRule} {args : List Value} {result : Option Value}
    (known : m.calledRule? rule.name = some rule) :
    total m [.called rule.name args result inner] = total m inner + (Rule.called rule).tally := by
  have applied : Event.rule? m (.called rule.name args result inner) = some (.called rule) := by
    rw [Event.rule?, known]
    rfl
  rw [total_around rfl, applied]
  rfl

theorem total_application {rule : String} {patterns : List OutPattern} {body : List Statement}
    {outputs : Outputs} :
    total m [.application rule patterns body outputs inner] = total m inner := by
  rw [total_around rfl]
  exact add_zero _

end

/-- The objects that the target models list. -/
def Transformation.population (t : Transformation) (store : Store) : Nat :=
  (t.targets.map fun target => (store.members target.2.model).length).sum

/-- The objects of the source models, one model after the other as the module declares them. -/
def Transformation.sourceObjects (t : Transformation) (store : Store) : List Handle :=
  (t.module.sources.names.filterMap t.sources.get?).flatMap fun provider =>
    store.members provider.model

/-- No two aliases are for one target model. -/
def Transformation.DistinctTargets (t : Transformation) : Prop :=
  (t.targets.map (·.2.model)).Nodup

section
variable {t : Transformation} {store next : Store} {h : Handle}

theorem population_set {feature : String} {v : Value}
    (accepted : store.set h feature v = .ok next) : t.population next = t.population store := by
  simp only [Transformation.population, Store.members_set accepted]

section
variable {α : Type} {count more place : α → Nat} {model : Nat} {xs : List α}

theorem sum_elsewhere (grown : ∀ x, more x = count x + if place x = model then 1 else 0)
    (absent : model ∉ xs.map place) : (xs.map more).sum = (xs.map count).sum := by
  refine congrArg List.sum (List.map_congr_left fun x member => ?_)
  have other : place x ≠ model := fun same => absent (same ▸ List.mem_map_of_mem member)
  rw [grown, if_neg other, Nat.add_zero]

theorem sum_grown (grown : ∀ x, more x = count x + if place x = model then 1 else 0)
    (distinct : (xs.map place).Nodup) (present : model ∈ xs.map place) :
    (xs.map more).sum = (xs.map count).sum + 1 := by
  induction xs with
  | nil => cases present
  | cons x rest ih =>
    obtain ⟨apart, distinct⟩ := List.nodup_cons.1 distinct
    rw [List.map_cons, List.map_cons, List.sum_cons, List.sum_cons, grown]
    by_cases here : place x = model
    · have others := sum_elsewhere grown (here ▸ apart)
      rw [if_pos here, others]
      omega
    · have later := (List.mem_cons.1 present).resolve_left (Ne.symm here)
      rw [if_neg here, ih distinct later]
      omega

end

/-- A target model lists one object more when it makes one. -/
theorem population_create {name type : String} {provider : Provider}
    (distinct : t.DistinctTargets) (target : (name, provider) ∈ t.targets)
    (created : store.create provider.model type = .ok (h, next)) :
    t.population next = t.population store + 1 := by
  refine sum_grown (fun other => ?_) distinct
    (List.mem_map_of_mem (f := fun target => target.2.model) target)
  rw [Store.members_create created, List.length_append]
  split <;> rfl

end

end Metamorph
