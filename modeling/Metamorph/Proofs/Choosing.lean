import Metamorph.Proofs.Completion
import Metamorph.Proofs.Keeping

/-! The choice of rules. For corresponding objects the guards have the same results, so that the same
rule is chosen, whatever was evaluated before: the rule of an object does not depend on the objects that
the models list before it. -/
namespace Metamorph.Engine
open Run

section
variable {R : World → Engine → Engine → Prop} {setting setting' : Setting} {self : Evaluator}
  {family : Nat → Evaluator} {w : World} {v v' : Value}

namespace Led
variable (led : Led R setting setting' self family)
include led

theorem guardHolds (rule : MatchedRule) (found : v.Matches w v') :
    Tracks R same w (guardHolds self setting rule v) fun n =>
      Engine.guardHolds (family n) setting' rule v' := by
  unfold Engine.guardHolds
  cases rule.source.guard with
  | none => exact .pure rfl
  | some guard =>
    refine .bind (led.expression guard
      (led.plan.rootEnvironment_matches (.cons ⟨rfl, found⟩ .nil))) fun _ matched => .pure ?_
    exact matched.holds.symm

theorem winners (fitting : List (Nat × MatchedRule)) (best : Option Nat) (found : v.Matches w v') :
    Tracks R same w (winners self setting v best fitting) fun n =>
      Engine.winners (family n) setting' v' best fitting := by
  induction fitting generalizing best w with
  | nil => exact .pure rfl
  | cons candidate rest ih =>
    obtain ⟨distance, rule⟩ := candidate
    refine .ite (.pure rfl) (.bind (led.guardHolds rule found) fun {w' holds _} within same => ?_)
    subst same
    refine .ite (.bind (ih _ (found.within within)) fun _ same => .pure ?_) (ih _ (found.within within))
    rw [same]

theorem selectRule (m : Module) (model : String) (found : v.Matches w v')
    (known : Tracks R same w (ancestry setting v) fun _ => Engine.ancestry setting' v') :
    Tracks R same w (selectRule self setting m v model) fun n =>
      Engine.selectRule (family n) setting' m v' model := by
  refine .bind known fun {w₁ names _} within same => ?_
  subst same
  refine .bind (led.winners _ _ (found.within within)) fun {w₂ rules _} within' same => ?_
  subst same
  match rules with
  | [] => exact .pure rfl
  | [rule] => exact .pure rfl
  | first :: second :: rest =>
    intro s t _
    refine .of_failure fun s => ?_
    dsimp only
    rw [state_bind]
    cases s.store.cite v with
    | error fault => exact ⟨fault, s, rfl⟩
    | ok text => exact ⟨_, s, rfl⟩

end Led

theorem Following.selectRule (following : Following R setting setting' self family) (m : Module)
    (model : String) (found : v.Matches w v') :
    Tracks R same w (selectRule self setting m v model) fun n =>
      Engine.selectRule (family n) setting' m v' model :=
  following.led.selectRule m model found (following.ancestry found)

end

/-! Enough depth. -/

/-- It is so of every depth, from some depth on. -/
def Deep (p : Nat → Prop) : Prop := ∃ enough, ∀ depth, enough ≤ depth → p depth

theorem Deep.both {p q : Nat → Prop} (first : Deep p) (second : Deep q) :
    Deep fun depth => p depth ∧ q depth := by
  obtain ⟨enough, holds⟩ := first
  obtain ⟨enough', holds'⟩ := second
  refine ⟨max enough enough', fun depth deep => ⟨holds depth ?_, holds' depth ?_⟩⟩
  · exact le_trans (Nat.le_max_left _ _) deep
  · exact le_trans (Nat.le_max_right _ _) deep

theorem Deep.imp {p q : Nat → Prop} (first : Deep p) (further : ∀ depth, p depth → q depth) :
    Deep q := by
  obtain ⟨enough, holds⟩ := first
  exact ⟨enough, fun depth deep => further depth (holds depth deep)⟩

theorem Deep.of_forall {p : Nat → Prop} (all : ∀ depth, p depth) : Deep p := ⟨0, fun depth _ => all depth⟩

theorem Deep.exists {p : Nat → Prop} (deep : Deep p) : ∃ depth, p depth := by
  obtain ⟨enough, holds⟩ := deep
  exact ⟨enough, holds enough le_rfl⟩

variable {setting : Setting} {core : Engine} {entries : List Entry} {base m : Identity}
  {program : Module} {w w' x : World} {t t' u : Engine}

/-- What a phase comes to beside the table, when objects correspond as before. -/
structure Onward (core : Engine) (entries : List Entry) (m : Identity) (w w' : World) (t t' : Engine) :
    Prop where
  beside : Beside core entries m w' t'
  within : w.Within w'
  handles : w'.handles = w.handles

theorem Onward.refl (beside : Beside core entries m w t) : Onward core entries m w w t t :=
  ⟨beside, .refl w, rfl⟩

theorem Onward.trans (first : Onward core entries m w w' t t')
    (rest : Onward core entries m w' x t' u) : Onward core entries m w x t u :=
  ⟨rest.beside, first.within.trans rest.within, rest.handles.trans first.handles⟩

theorem Beside.onward (beside : Beside core entries m w t) (grown : Grown w w' t t')
    (after : Beside core entries m (w'.restrict m) t') :
    Onward core entries m w (w'.restrict m) t t' :=
  ⟨after, beside.within grown, grown.handles⟩

/-! The rule of an object. -/

/-- At the table the rule, or none, is chosen for an object that the model of the given name lists. -/
def Chosen (setting : Setting) (core : Engine) (entries : List Entry) (m : Identity) (program : Module)
    (item : String × Handle) (rule : Option MatchedRule) : Prop :=
  ∃ depth k, selectRule (watchedWithin setting.shut depth) setting.shut program (.object item.2) item.1
    (core.holding entries m) = .value rule k

theorem Chosen.unique {item : String × Handle} {rule other : Option MatchedRule}
    (first : Chosen setting core entries m program item rule)
    (second : Chosen setting core entries m program item other) : rule = other := by
  obtain ⟨depth, k, ended⟩ := first
  obtain ⟨deeper, k', ended'⟩ := second
  have further (n : Nat) (more : n ≤ max depth deeper) :
      Run.Below (selectRule (watchedWithin setting.shut n) setting.shut program (.object item.2) item.1)
        (selectRule (watchedWithin setting.shut (max depth deeper)) setting.shut program
          (.object item.2) item.1) :=
    ((watchedWithin_mono setting.shut more).heeds.selectRule _ _ _).below
  have same := ((further depth (Nat.le_max_left _ _)).value ended).symm.trans
    ((further deeper (Nat.le_max_right _ _)).value ended')
  cases same
  rfl

section
variable (basis : Basis setting base core entries m) {rule : Option MatchedRule}
include basis

/-- What the engine chooses is what is chosen at the table. -/
theorem Basis.chosen (item : String × Handle) (beside : Beside core entries m w t)
    (listed : w.handles item.2 item.2) {n : Nat}
    (ended : selectRule (watchedWithin setting n) setting program (.object item.2) item.1 t =
      .value rule t') :
    Chosen setting core entries m program item rule ∧ ∃ w', Onward core entries m w w' t t' := by
  have following := raising basis.innocent basis.closed basis.table basis.full n
    ⟨(w, t), beside.familiar, beside.resolves⟩
  have found : (Value.object item.2).Matches w.flip (.object item.2) :=
    Value.matches_object.2 ⟨_, listed, rfl⟩
  obtain ⟨_, k, w', grown, rfl, after, depth, chosen⟩ :=
    basis.raised beside (following.selectRule program item.1 found) ended
  exact ⟨⟨depth, k, chosen⟩, _, beside.onward grown after⟩

/-- What is chosen at the table the engine chooses. -/
theorem Basis.chooses (item : String × Handle) (beside : Beside core entries m w t)
    (listed : w.handles item.2 item.2) (chosen : Chosen setting core entries m program item rule) :
    ∃ t' w', Onward core entries m w w' t t' ∧ Deep fun depth =>
      selectRule (watchedWithin setting depth) setting program (.object item.2) item.1 t =
        .value rule t' := by
  obtain ⟨n, k, ended⟩ := chosen
  have following := lowering basis.innocent basis.closed basis.table n (w, t)
  have found : (Value.object item.2).Matches w (.object item.2) :=
    Value.matches_object.2 ⟨_, listed, rfl⟩
  obtain ⟨_, t', w', grown, rfl, after, goes⟩ :=
    basis.lowered beside (following.selectRule program item.1 found) ended
  exact ⟨t', _, beside.onward grown after, goes⟩

end

/-! The schedule. -/

/-- What the source models of the given names list, each object with the name of its model. -/
def enumeration (t : Transformation) (store : Store) (names : List String) : List (String × Handle) :=
  names.flatMap fun name =>
    match t.sources.get? name with
    | none => []
    | some provider => (store.members provider.model).map fun h => (name, h)

/-- The schedule with applications of the rules that are picked for further objects. -/
def planning (pick : String × Handle → Option MatchedRule) (schedule : Schedule)
    (items : List (String × Handle)) : Schedule :=
  items.foldl (fun schedule item => Schedule.add schedule (pick item) (.object item.2) item.1) schedule

/-- The applications that come of objects when rules are picked for them, in the order of the objects,
numbered from a position on. -/
def appointed (pick : String × Handle → Option MatchedRule) (position : Nat) :
    List (String × Handle) → List Application
  | [] => []
  | item :: rest =>
    match pick item with
    | none => appointed pick position rest
    | some rule => ⟨rule, .object item.2, item.1, position⟩ :: appointed pick (position + 1) rest

theorem planning_eq (pick : String × Handle → Option MatchedRule) (schedule : Schedule)
    (items : List (String × Handle)) :
    planning pick schedule items =
      { applications := schedule.applications ++ appointed pick schedule.applications.length items
        examined := schedule.examined + items.length } := by
  induction items generalizing schedule with
  | nil => simp [planning, appointed]
  | cons item rest ih =>
    have later := ih (Schedule.add schedule (pick item) (.object item.2) item.1)
    change planning pick _ rest = _
    rw [later, appointed]
    cases pick item <;> simp [Schedule.add, Nat.add_comm, Nat.add_left_comm]

/-- A rule together with the object that it is applied to. -/
def pairOf (a : Application) : MatchedRule × Value := (a.rule, a.source)

/-- The pairs that come of objects when rules are picked for them. -/
def pairs (pick : String × Handle → Option MatchedRule) (items : List (String × Handle)) :
    List (MatchedRule × Value) :=
  items.filterMap fun item => (pick item).map fun rule => (rule, .object item.2)

theorem appointed_pairs (pick : String × Handle → Option MatchedRule) (position : Nat)
    (items : List (String × Handle)) :
    (appointed pick position items).map pairOf = pairs pick items := by
  induction items generalizing position with
  | nil => rfl
  | cons item rest ih =>
    unfold appointed pairs
    cases chosen : pick item with
    | none => simpa [chosen, pairs] using ih position
    | some rule => simpa [chosen, pairs, pairOf] using ih (position + 1)

theorem planning_pairs (pick : String × Handle → Option MatchedRule) (schedule : Schedule)
    (items : List (String × Handle)) :
    (planning pick schedule items).applications.map pairOf =
      schedule.applications.map pairOf ++ pairs pick items := by
  rw [planning_eq, List.map_append, appointed_pairs]

/-- The source models of the given names are there, and list their objects. -/
def Listing (t : Transformation) (names : List String) : Prop :=
  ∀ name ∈ names, ∃ provider, t.sources.get? name = some provider ∧ provider.refusals.objects = none

theorem Innocent.watched_guards (innocent : Innocent setting) (n : Nat) (program : Module) :
    GuardsKeep quieting (watchedWithin setting n) program :=
  fun _ _ guard _ env => innocent.watched_quiet n env guard

section
variable (basis : Basis setting base core entries m)
include basis

theorem Basis.chosen_objects {n : Nat} {name : String} {objects : List Handle}
    {schedule final : Schedule} (beside : Beside core entries m w t)
    (listed : ∀ h ∈ objects, w.handles h h)
    (ended : matchObjects (watchedWithin setting n) setting program name schedule objects t =
      .value final t') :
    (∀ h ∈ objects, ∃ rule, Chosen setting core entries m program (name, h) rule) ∧
      ∃ w', Onward core entries m w w' t t' := by
  induction objects generalizing schedule t w with
  | nil =>
    obtain ⟨-, rfl⟩ := pure_eq_value.1 ended
    exact ⟨by simp, w, .refl beside⟩
  | cons h rest ih =>
    obtain ⟨here, others⟩ := List.forall_mem_cons.1 listed
    obtain ⟨rule, u, selected, ended⟩ := bind_eq_value.1 ended
    obtain ⟨chosen, w₁, first⟩ := basis.chosen (name, h) beside here selected
    obtain ⟨all, w₂, further⟩ := ih first.beside
      (fun g member => first.within.handles (others g member)) ended
    exact ⟨List.forall_mem_cons.2 ⟨⟨rule, chosen⟩, all⟩, w₂, first.trans further⟩

theorem Basis.chooses_objects {name : String} {objects : List Handle}
    {pick : String × Handle → Option MatchedRule} (schedule : Schedule)
    (beside : Beside core entries m w t) (listed : ∀ h ∈ objects, w.handles h h)
    (chosen : ∀ h ∈ objects, Chosen setting core entries m program (name, h) (pick (name, h))) :
    ∃ t' w', Onward core entries m w w' t t' ∧ Deep fun depth =>
      matchObjects (watchedWithin setting depth) setting program name schedule objects t =
        .value (planning pick schedule (objects.map fun h => (name, h))) t' := by
  induction objects generalizing schedule t w with
  | nil => exact ⟨t, w, .refl beside, .of_forall fun _ => rfl⟩
  | cons h rest ih =>
    obtain ⟨here, others⟩ := List.forall_mem_cons.1 listed
    obtain ⟨own, all⟩ := List.forall_mem_cons.1 chosen
    obtain ⟨u, w₁, first, selects⟩ := basis.chooses (name, h) beside here own
    obtain ⟨t', w₂, further, goes⟩ := ih (Schedule.add schedule (pick (name, h)) (.object h) name)
      first.beside (fun g member => first.within.handles (others g member)) all
    refine ⟨t', w₂, first.trans further, (selects.both goes).imp fun depth both => ?_⟩
    exact bind_eq_value.2 ⟨_, u, both.1, both.2⟩

/-- What is chosen for the objects of the models is what is chosen at the table. -/
theorem Basis.chosen_models {T : Transformation} {store : Store} {n : Nat} {names : List String}
    {schedule final : Schedule} (beside : Beside core entries m w t) (same : t.store = store)
    (listed : ∀ item ∈ enumeration T store names, w.handles item.2 item.2)
    (ended : matchModels (watchedWithin setting n) setting program T.sources schedule names t =
      .value final t') :
    Listing T names ∧
      (∀ item ∈ enumeration T store names, ∃ rule, Chosen setting core entries m program item rule) ∧
        ∃ w', Onward core entries m w w' t t' := by
  induction names generalizing schedule t w with
  | nil =>
    obtain ⟨-, rfl⟩ := pure_eq_value.1 ended
    exact ⟨by simp [Listing], by simp [enumeration], w, .refl beside⟩
  | cons name rest ih =>
    unfold matchModels at ended
    cases known : T.sources.get? name with
    | none =>
      simp only [known] at ended
      exact absurd ended fail_ne_value
    | some provider =>
      simp only [known] at ended
      rw [state_bind] at ended
      obtain ⟨objects, _, lists, matching⟩ := bind_eq_value.1 ended
      obtain ⟨lists, rfl⟩ := collaborate_eq_value.1 lists
      obtain ⟨between, u, matched, remaining⟩ := bind_eq_value.1 matching
      have willing : provider.refusals.objects = none ∧ store.members provider.model = objects := by
        rw [same] at lists
        unfold Provider.objects Provider.refuse at lists
        cases refusal : provider.refusals.objects with
        | none => simpa [refusal] using lists
        | some fault => simp [refusal] at lists
      obtain ⟨willing, rfl⟩ := willing
      have split : enumeration T store (name :: rest) =
          (store.members provider.model).map (fun h => (name, h)) ++ enumeration T store rest := by
        simp [enumeration, known]
      rw [split, List.forall_mem_append] at listed
      obtain ⟨here, others⟩ := listed
      obtain ⟨chosen, w₁, first⟩ := basis.chosen_objects beside (by simpa using here) matched
      have quiet : Quiet t u :=
        ((basis.innocent.watched_guards n program).matchObjects name _ _).value matched
      have kept : u.store = store := by
        obtain ⟨_, _, _, _, _, _, _, _, _, rfl⟩ := quiet
        exact same
      obtain ⟨willingly, all, w₂, further⟩ := ih first.beside kept
        (fun item member => first.within.handles (others item member)) remaining
      refine ⟨List.forall_mem_cons.2 ⟨⟨provider, known, willing⟩, willingly⟩, ?_, w₂,
        first.trans further⟩
      rw [split, List.forall_mem_append]
      exact ⟨by simpa using chosen, all⟩

/-- What is chosen at the table is chosen for the objects of the models. -/
theorem Basis.chooses_models {T : Transformation} {store : Store} {names : List String}
    {pick : String × Handle → Option MatchedRule} (schedule : Schedule)
    (beside : Beside core entries m w t) (same : t.store = store) (willing : Listing T names)
    (listed : ∀ item ∈ enumeration T store names, w.handles item.2 item.2)
    (chosen : ∀ item ∈ enumeration T store names,
      Chosen setting core entries m program item (pick item)) :
    ∃ t' w', Onward core entries m w w' t t' ∧ Deep fun depth =>
      matchModels (watchedWithin setting depth) setting program T.sources schedule names t =
        .value (planning pick schedule (enumeration T store names)) t' := by
  induction names generalizing schedule t w with
  | nil => exact ⟨t, w, .refl beside, .of_forall fun _ => rfl⟩
  | cons name rest ih =>
    obtain ⟨⟨provider, known, lists⟩, willing⟩ := List.forall_mem_cons.1 willing
    have split : enumeration T store (name :: rest) =
        (store.members provider.model).map (fun h => (name, h)) ++ enumeration T store rest := by
      simp [enumeration, known]
    rw [split, List.forall_mem_append] at listed chosen
    obtain ⟨here, others⟩ := listed
    obtain ⟨own, all⟩ := chosen
    obtain ⟨u, w₁, first, matched⟩ := basis.chooses_objects schedule beside
      (by simpa using here) (by simpa using own)
    have quiet : Quiet t u := by
      obtain ⟨n, ended⟩ := matched.exists
      exact ((basis.innocent.watched_guards n program).matchObjects name _ _).value ended
    have kept : u.store = store := by
      obtain ⟨_, _, _, _, _, _, _, _, _, rfl⟩ := quiet
      exact same
    obtain ⟨t', w₂, further, goes⟩ := ih (planning pick schedule _) first.beside kept willing
      (fun item member => first.within.handles (others item member)) all
    refine ⟨t', w₂, first.trans further, (matched.both goes).imp fun depth both => ?_⟩
    have objects : provider.objects t.store = .ok (store.members provider.model) := by
      simp [Provider.objects, Provider.refuse, lists, same]
    unfold matchModels
    simp only [known]
    rw [state_bind]
    refine bind_eq_value.2 ⟨_, t, collaborate_eq_value.2 ⟨objects, rfl⟩, ?_⟩
    refine bind_eq_value.2 ⟨_, u, both.1, ?_⟩
    rw [split]
    unfold planning
    rw [List.foldl_append]
    exact both.2

end

end Metamorph.Engine
