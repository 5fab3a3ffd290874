import Metamorph.Proofs.Resolution
import Metamorph.Proofs.Reach
import Metamorph.Proofs.Table

/-! How often an attribute of the module is evaluated. Its value is kept once the evaluation has ended,
and whoever reads it until then evaluates it again. So every attribute is evaluated once, unless an
evaluation that ends well reads the attribute it is evaluating. -/
namespace Metamorph

/-- Reading the attribute evaluated it. -/
def Reading.evaluates (name : String) (r : Reading) : Bool := r.name == name && r.meanwhile.isSome

/-- The attribute was evaluated for the reading, and that read the attribute itself. -/
def Reading.Reenters (r : Reading) : Prop := ∃ names ∈ r.meanwhile, r.name ∈ names

/-- The evaluations of an attribute that came to a value. -/
def evaluationsOf (name : String) (readings : List Reading) : List Reading :=
  readings.filter (·.evaluates name)

/-- The readings tell how the attributes kept at first became those kept at last. -/
inductive Tells : Named Value → List Reading → Named Value → Prop
  | nothing (kept : Named Value) : Tells kept [] kept
  | recalled {first last : Named Value} {done : List Reading} {name : String} {v : Value}
      (before : Tells first done last) (held : last.get? name = some v) :
      Tells first (done ++ [⟨name, v, none⟩]) last
  | evaluated {first amid last : Named Value} {done inner : List Reading} {name : String} {v : Value}
      (before : Tells first done amid) (missing : amid.get? name = none)
      (within : Tells amid inner last) :
      Tells first (done ++ inner ++ [⟨name, v, some (inner.map (·.name))⟩]) (last.set name v)

section
variable {name : String} {done more : List Reading}

theorem evaluationsOf_append (name : String) (done more : List Reading) :
    evaluationsOf name (done ++ more) = evaluationsOf name done ++ evaluationsOf name more :=
  List.filter_append _ _

theorem evaluationsOf_recalled (name other : String) (v : Value) :
    evaluationsOf name [⟨other, v, none⟩] = [] := by
  simp [evaluationsOf, Reading.evaluates]

theorem evaluationsOf_own (v : Value) (names : List String) :
    evaluationsOf name [⟨name, v, some names⟩] = [⟨name, v, some names⟩] := by
  simp [evaluationsOf, Reading.evaluates]

theorem evaluationsOf_other {other : String} (differs : name ≠ other) (v : Value)
    (names : List String) : evaluationsOf name [⟨other, v, some names⟩] = [] := by
  simp [evaluationsOf, Reading.evaluates, differs.symm]

theorem name_of_mem_evaluationsOf {r : Reading} (member : r ∈ evaluationsOf name done) :
    r.name = name := by
  have evaluates := (List.mem_filter.1 member).2
  simp only [Reading.evaluates, Bool.and_eq_true, beq_iff_eq] at evaluates
  exact evaluates.1

theorem prefix_append_cases {front : List Reading} {r : Reading}
    (part : front ++ [r] <+: done ++ more) :
    front ++ [r] <+: done ∨ ∃ since, front = done ++ since ∧ since ++ [r] <+: more := by
  obtain ⟨rest, whole⟩ := part
  rcases List.append_eq_append_iff.1 whole with ⟨between, same, -⟩ | ⟨between, same, rfl⟩
  · exact .inl ⟨between, same.symm⟩
  · rcases List.eq_nil_or_concat' between with rfl | ⟨since, last, rfl⟩
    · exact .inl (by simp [same])
    · obtain ⟨rfl, own⟩ := List.append_inj' (same.trans (List.append_assoc ..).symm) rfl
      cases own
      exact .inr ⟨since, rfl, List.prefix_append _ _⟩

end

namespace Tells
variable {first amid last : Named Value} {name : String} {done more : List Reading}

theorem trans (before : Tells first done amid) (behind : Tells amid more last) :
    Tells first (done ++ more) last := by
  induction behind with
  | nothing => simpa using before
  | recalled _ held ih =>
    rw [← List.append_assoc]
    exact .recalled (ih before) held
  | evaluated _ missing within ih _ =>
    rw [List.append_assoc, ← List.append_assoc, ← List.append_assoc]
    exact .evaluated (ih before) missing within

/-- What is kept in the end is what the last evaluation came to, or what was kept at first. -/
theorem get? (tells : Tells first done last) (name : String) :
    last.get? name =
      ((evaluationsOf name done).getLast?.map (·.value)).or (first.get? name) := by
  induction tells with
  | nothing => rfl
  | recalled _ _ ih => rw [evaluationsOf_append, evaluationsOf_recalled, List.append_nil, ih]
  | @evaluated first amid last done inner other v _ _ _ before within =>
    rw [Named.get?_set, evaluationsOf_append]
    split
    · rename_i same
      subst same
      rw [evaluationsOf_own, List.getLast?_concat]
      rfl
    · rename_i differs
      rw [evaluationsOf_other differs, List.append_nil, within, before, evaluationsOf_append,
        List.getLast?_append]
      cases (evaluationsOf name inner).getLast? <;> rfl

theorem evaluationsOf_nil {v : Value} (tells : Tells first done last)
    (held : first.get? name = some v) : evaluationsOf name done = [] := by
  induction tells generalizing v with
  | nothing => rfl
  | recalled _ _ ih => rw [evaluationsOf_append, evaluationsOf_recalled, List.append_nil, ih held]
  | @evaluated first amid last done inner other w before missing _ ih within =>
    have none := ih held
    have still : amid.get? name = some v := by rw [before.get? name, none, held]; rfl
    have differs : name ≠ other := by
      rintro rfl
      rw [still] at missing
      cases missing
    rw [evaluationsOf_append, evaluationsOf_append, none, within still, evaluationsOf_other differs]
    rfl

/-- Whoever reads an attribute gets what its last evaluation came to, which may be the one just made
for that. -/
theorem value (tells : Tells first done last) {front : List Reading} {r : Reading}
    (part : front ++ [r] <+: done) :
    ((evaluationsOf r.name (front ++ [r])).getLast?.map (·.value)).or (first.get? r.name) =
      some r.value := by
  induction tells generalizing front with
  | nothing => simp at part
  | recalled before held ih =>
    rcases List.prefix_concat_iff.1 part with whole | part
    · obtain ⟨rfl, same⟩ := List.append_inj' whole rfl
      cases same
      rw [evaluationsOf_append, evaluationsOf_recalled, List.append_nil, ← before.get?, held]
    · exact ih part
  | @evaluated first amid last done inner name v before missing _ ih within =>
    rcases List.prefix_concat_iff.1 part with whole | part
    · obtain ⟨rfl, same⟩ := List.append_inj' whole rfl
      cases same
      rw [evaluationsOf_append, evaluationsOf_own, List.getLast?_concat]
      rfl
    · rcases prefix_append_cases part with early | ⟨since, rfl, late⟩
      · exact ih early
      · rw [List.append_assoc, evaluationsOf_append, List.getLast?_append, ← within late, before.get?]
        cases (evaluationsOf r.name (since ++ [r])).getLast? <;> rfl

theorem unread (tells : Tells first done last) (missing : first.get? name = none)
    (none : evaluationsOf name done = []) {r : Reading} (member : r ∈ done) : r.name ≠ name := by
  rintro rfl
  obtain ⟨front, back, rfl⟩ := List.append_of_mem member
  have part : front ++ [r] <+: front ++ r :: back := ⟨back, by simp⟩
  have nothing : evaluationsOf r.name (front ++ [r]) = [] := by
    rw [List.append_cons, evaluationsOf_append] at none
    exact (List.append_eq_nil_iff.1 none).1
  have read := tells.value part
  rw [nothing, missing] at read
  cases read

/-- An attribute is evaluated twice just when an evaluation of it reads it. -/
theorem once_iff (tells : Tells first done last) (missing : first.get? name = none) :
    (evaluationsOf name done).length ≤ 1 ↔ ∀ r ∈ evaluationsOf name done, ¬ r.Reenters := by
  induction tells with
  | nothing => simp [evaluationsOf]
  | recalled _ _ ih =>
    rw [evaluationsOf_append, evaluationsOf_recalled, List.append_nil]
    exact ih missing
  | @evaluated first amid last done inner other v before unkept within ih ih' =>
    have kept := before.get? name
    rw [missing, Option.or_none] at kept
    by_cases same : name = other
    · subst same
      -- Nothing of it was kept, so the evaluations are this one and those within it.
      have none : evaluationsOf name done = [] := by
        rw [unkept] at kept
        simpa using kept.symm
      rw [evaluationsOf_append, evaluationsOf_append, none, List.nil_append, evaluationsOf_own]
      constructor
      · intro few r member
        have nothing : evaluationsOf name inner = [] := by simpa using few
        rw [nothing, List.nil_append, List.mem_singleton] at member
        rintro ⟨names, own, read⟩
        subst member
        cases own
        obtain ⟨r, member, named⟩ := List.mem_map.1 read
        exact within.unread unkept nothing member named
      · intro straight
        have nothing : evaluationsOf name inner = [] := by
          refine List.eq_nil_iff_forall_not_mem.2 fun r member => ?_
          refine straight _ (List.mem_append_right _ List.mem_cons_self) ⟨_, rfl, ?_⟩
          exact List.mem_map.2 ⟨r, List.mem_of_mem_filter member, name_of_mem_evaluationsOf member⟩
        rw [nothing]
        exact le_rfl
    · rw [evaluationsOf_append, evaluationsOf_append, evaluationsOf_other same, List.append_nil]
      cases earlier : evaluationsOf name done with
      | nil =>
        rw [earlier] at kept
        exact ih' kept
      | cons r rest =>
        -- Once it is kept it is not evaluated.
        obtain ⟨v, held⟩ : ∃ v, amid.get? name = some v := by
          rw [kept, earlier]
          exact ⟨_, by rw [List.getLast?_cons]; rfl⟩
        rw [within.evaluationsOf_nil held, List.append_nil, ← earlier]
        exact ih missing

end Tells

namespace Engine
open Run
variable {setting : Setting} {t : Transformation} {self : Evaluator} {s u w : Engine}

/-- Readings came to be that tell how the attributes kept did. -/
def Reads (s u : Engine) : Prop :=
  ∃ done, u.readings = s.readings ++ done ∧ Tells s.attributes done u.attributes

namespace Reads

theorem silent (attributes : u.attributes = s.attributes) (readings : u.readings = s.readings) :
    Reads s u :=
  ⟨[], by rw [readings, List.append_nil], attributes ▸ .nothing _⟩

theorem refl (s : Engine) : Reads s s := silent rfl rfl

theorem trans (first : Reads s u) (rest : Reads u w) : Reads s w := by
  obtain ⟨done, before, tells⟩ := first
  obtain ⟨more, behind, others⟩ := rest
  exact ⟨done ++ more, by rw [behind, before, List.append_assoc], tells.trans others⟩

theorem recollect {name : String} {v : Value} (held : s.attributes.get? name = some v) :
    Reads s (recollect name v s) :=
  ⟨[⟨name, v, none⟩], rfl, .recalled (.nothing _) held⟩

theorem keepAttribute {name : String} {v : Value} (missing : s.attributes.get? name = none)
    (reads : Reads s u) : Reads s (keepAttribute name v s.readings.length u) := by
  obtain ⟨inner, readings, within⟩ := reads
  refine ⟨inner ++ [⟨name, v, some (inner.map (·.name))⟩], ?_, .evaluated (.nothing _) missing within⟩
  rw [Engine.keepAttribute, readings, List.drop_left, List.append_assoc]

end Reads

/-- Runs that tell what they do with the attributes of the module. -/
def reading : Conduct Engine := .both Reads .refl .trans

theorem moduleAttribute_reading
    (invoked : ∀ {helper}, HasHelper setting helper →
      Keeps reading (invokeHelper self setting helper setting.handle [])) (name : String) :
    Keeps reading (moduleAttribute self setting name) := by
  intro s
  cases kept : s.attributes.get? name with
  | some v =>
    rw [moduleAttribute_hit kept]
    exact .recollect kept
  | none =>
    unfold moduleAttribute
    rw [state_bind, kept]
    cases known : (setting.helpers.module.get? name).filter (·.isAttribute) with
    | none => exact .refl s
    | some helper =>
      have within := invoked (.inl ⟨name, (Option.filter_eq_some_iff.1 known).1⟩) s
      simp only
      cases ended : invokeHelper self setting helper setting.handle [] s with
      | value v u =>
        rw [bind_of_value ended]
        exact .keepAttribute kept (within.value ended)
      | failure fault u =>
        rw [bind_of_failure ended]
        exact within.failure ended
      | exhausted =>
        rw [bind_eq_exhausted.2 (.inl ended)]
        trivial

/-- Whoever reads an attribute leaves a reading of it that gives what was read, and tells of an
evaluation just when nothing was kept. -/
theorem moduleAttribute_told {name : String} {v : Value}
    (read : moduleAttribute self setting name s = .value v u) :
    ∃ r, u.readings.getLast? = some r ∧ r.name = name ∧ r.value = v ∧
      (r.meanwhile = none ↔ (s.attributes.get? name).isSome) := by
  cases kept : s.attributes.get? name with
  | some held =>
    rw [moduleAttribute_hit kept] at read
    cases read
    exact ⟨_, List.getLast?_concat, rfl, rfl, by simp⟩
  | none =>
    obtain ⟨helper, w, known, invoked⟩ := moduleAttribute_missed kept read
    rw [moduleAttribute_miss kept known invoked] at read
    cases read
    exact ⟨_, List.getLast?_concat, rfl, rfl, by simp⟩

theorem reading_bears : Bears reading fun _ => True :=
  .of_abreast (fun abreast => .silent abreast.attributes abreast.readings)
    (fun kept abreast => Reads.trans kept (.silent abreast.attributes abreast.readings))
    fun _ => .silent rfl rfl

theorem reading_encloses : Encloses setting reading reading := by
  refine Encloses.of_abreast (fun abreast => Reads.silent abreast.attributes abreast.readings)
    (fun kept abreast => Reads.trans kept (.silent abreast.attributes abreast.readings)) ?_
  intro α s r run _ abreast inside
  have entered : reading.ends s r := Reads.silent abreast.attributes abreast.readings
  refine .since entered (inside.ensuring ?_ ?_)
  · exact fun _ => .silent rfl rfl
  · exact fun kept => Reads.trans kept (.silent rfl rfl)

theorem reading_asks (kept : ∀ env e, Keeps reading (self env e)) :
    AsksOn (fun _ => True) reading setting self := by
  have invoked (helper : Helper) (receiver : Value) (args : List Value) :
      Keeps reading (invokeHelper self setting helper receiver args) := by
    unfold invokeHelper
    split
    · exact .fail _
    · exact .bind (.modify fun _ => .silent rfl rfl) fun _ => kept _ _
  exact {
    aside := fun aside => .silent aside.stationary.attributes aside.stationary.readings
    expression := fun env _ _ => kept env _
    reading := moduleAttribute_reading fun _ => invoked _ _ _
    helper := fun _ => invoked _
    lazy := fun _ v => reading_bears.invokeLazy reading_bears reading_encloses
      (fun env _ _ => kept env _) (fun out _ => out.binds_any) v
    called := fun _ args => reading_bears.invokeCalled reading_bears reading_encloses
      (fun env _ _ => kept env _) (fun out _ => out.binds_any) (fun _ _ => trivial) args }

theorem evaluateUntil_reading (stop : Interruption) (bound : Nat) (env : Environment) (e : Expr) :
    Keeps reading (evaluateUntil stop setting bound env e) := by
  induction bound generalizing env e with
  | zero => exact .cutOff fun _ => trivial
  | succ bound ih =>
    exact evaluateUntil_succ_of_step ((reading_asks ih).step env fun _ _ => trivial)

/-- Wherever a pipeline is found, what was read of the attributes tells how those kept came about. -/
theorem Reaches.tells {store : Store} {log : List LogRecord}
    (reaches : Reaches setting t store log u) : Tells [] u.readings u.attributes := by
  obtain ⟨done, readings, tells⟩ := reaches.keeps reading_bears
    (fun calm => .silent calm.attributes calm.readings) reading_encloses evaluateUntil_reading
  rwa [readings]

/-- Every reading of an attribute gets what its last evaluation came to. The attribute is evaluated to a
value at most once just when no evaluation of it that comes to one reads it, and then all its
readings get the same. -/
theorem attribute_evaluated_once_iff {store : Store} {log : List LogRecord}
    (reaches : Reaches setting t store log u) (name : String) :
    ((evaluationsOf name u.readings).length ≤ 1 ↔
        ∀ r ∈ evaluationsOf name u.readings, ¬ r.Reenters) ∧
      ((evaluationsOf name u.readings).length ≤ 1 →
        ∃ v, ∀ r ∈ u.readings, r.name = name → r.value = v) ∧
      ∀ front r, front ++ [r] <+: u.readings → r.name = name →
        (evaluationsOf name (front ++ [r])).getLast?.map (·.value) = some r.value := by
  have tells := reaches.tells
  have last (front : List Reading) (r : Reading) (part : front ++ [r] <+: u.readings)
      (named : r.name = name) :
      (evaluationsOf name (front ++ [r])).getLast?.map (·.value) = some r.value := by
    subst named
    have read := tells.value part
    rwa [show Named.get? ([] : Named Value) r.name = none from rfl, Option.or_none] at read
  refine ⟨tells.once_iff rfl, fun few => ?_, last⟩
  -- With one evaluation at most, the last one so far is the only one there is.
  match every : evaluationsOf name u.readings with
  | [] => exact ⟨.undefined, fun r member named => absurd named (tells.unread rfl every member)⟩
  | [e] =>
    refine ⟨e.value, fun r member named => ?_⟩
    obtain ⟨front, back, whole⟩ := List.append_of_mem member
    have part : front ++ [r] <+: u.readings := ⟨back, by simp [whole]⟩
    obtain ⟨x, got, same⟩ := Option.map_eq_some_iff.1 (last front r part named)
    have early : x ∈ evaluationsOf name u.readings :=
      (part.sublist.filter _).subset (List.mem_of_getLast? got)
    rw [every, List.mem_singleton] at early
    rw [← same, early]
  | _ :: _ :: _ =>
    rw [every] at few
    exact absurd few (by simp)

end Engine

open Engine

namespace Looping

/-- The attribute of the module is read wherever the matched and the lazy rule assign something. -/
def attributed (body : Expr) : Transformation :=
  let read : Expr := .navigation (.variable "thisModule" {}) "k" {}
  let t := transformation [⟨"f", read⟩, ⟨"g", read⟩] [⟨"f", read⟩] [] []
  { t with module := { t.module with helpers := [{ name := "k", body }] } }

def attributedSetting (body : Expr) : Setting where
  helpers := { module := [("k", { name := "k", body })] }
  transformation := some (attributed body)

/-- The attribute makes an object. -/
def making : Expr := .call "C" [five] {}

/-- The lazy rule is applied before an object is made, and its binding reads the attribute. -/
def reentrant : Expr := .letIn "y" (.call "L" [five] {}) making none {}

/-- The reading of the attribute gave the object. -/
def gave (name : String) (h : Handle) (r : Reading) : Bool :=
  match r.value with
  | .object g => r.name == name && g == h
  | _ => false

theorem of_gave {name : String} {h : Handle} {r : Reading} (given : gave name h r = true) :
    r.name = name ∧ r.value = .object h := by
  unfold gave at given
  split at given
  · rename_i g same
    simp only [Bool.and_eq_true, beq_iff_eq] at given
    exact ⟨given.1, given.2 ▸ same⟩
  · cases given

theorem attributed_completes (body : Expr) (test : Engine → Bool)
    (passed : passes test (Engine.run (attributedSetting body) (attributed body) { store := objects })
      = true) :
    ∃ s, Completes (attributedSetting body) (attributed body) objects [] s ∧ test s = true := by
  obtain ⟨_, s, ended, tested⟩ := of_passes passed
  exact ⟨s, completes_of_run ended, tested⟩

end Looping

/-- An attribute that makes an object is read twice and makes one. -/
theorem attribute_evaluated_once_read_twice :
    ∃ s, Completes (Looping.attributedSetting Looping.making) (Looping.attributed Looping.making)
        Looping.objects [] s ∧
      (s.readings.filter (·.name == "k")).length = 2 ∧
      ∃ v, ∀ r ∈ s.readings, r.name = "k" → r.value = v := by
  obtain ⟨s, completes, tested⟩ := Looping.attributed_completes Looping.making (fun s =>
    (s.readings.filter (·.name == "k")).length == 2 &&
      (evaluationsOf "k" s.readings).length == 1) (by decide +kernel)
  simp only [Bool.and_eq_true, beq_iff_eq] at tested
  have once := attribute_evaluated_once_iff completes.reaches "k"
  exact ⟨s, completes, tested.1, once.2.1 (le_of_eq tested.2)⟩

/-- The evaluation of the attribute comes upon the attribute, so there are two of them, and they make an
object each. -/
theorem attribute_evaluated_twice :
    prepare (Looping.attributed Looping.reentrant) {} .full =
        .ok (Looping.attributedSetting Looping.reentrant) ∧
      ∃ s, Completes (Looping.attributedSetting Looping.reentrant)
          (Looping.attributed Looping.reentrant) Looping.objects [] s ∧
        ¬ (evaluationsOf "k" s.readings).length ≤ 1 ∧
        ∃ h h', h ≠ h' ∧
          (∃ r ∈ s.readings, r.name = "k" ∧ r.value = .object h) ∧
          ∃ r ∈ s.readings, r.name = "k" ∧ r.value = .object h' := by
  refine ⟨rfl, ?_⟩
  obtain ⟨s, completes, tested⟩ := Looping.attributed_completes Looping.reentrant (fun s =>
    !decide ((evaluationsOf "k" s.readings).length ≤ 1) &&
      s.readings.any (Looping.gave "k" 3) && s.readings.any (Looping.gave "k" 4)) (by decide +kernel)
  simp only [Bool.and_eq_true, Bool.not_eq_true', decide_eq_false_iff_not, List.any_eq_true] at tested
  obtain ⟨⟨twice, r, member, first⟩, r', member', second⟩ := tested
  exact ⟨s, completes, twice, 3, 4, by decide, ⟨r, member, Looping.of_gave first⟩,
    r', member', Looping.of_gave second⟩

end Metamorph
