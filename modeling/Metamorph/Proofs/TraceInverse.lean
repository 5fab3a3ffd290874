import Metamorph.Proofs.Reach

/-! Resolution through the trace as the inverse of creation: what was created for the schedule is
found by its source, its variable and its rule, and by source and variable alone where no other rule
applied to the source has an output of that name. -/
namespace Metamorph

namespace Named
variable {α : Type} {table : Named α} {name : String}

theorem has_of_mem_names (known : name ∈ table.names) : table.has name = true := by
  obtain ⟨entry, member, rfl⟩ := List.mem_map.1 known
  exact List.any_eq_true.2 ⟨entry, member, beq_self_eq_true _⟩

theorem has_of_get? {entry : α} (found : table.get? name = some entry) : table.has name = true :=
  has_of_mem_names (List.mem_map_of_mem (mem_of_get? found))

end Named

theorem eq_singleton_of_nodup {α : Type} {a : α} {items : List α} (nodup : items.Nodup) (member : a ∈ items)
    (only : ∀ b ∈ items, b = a) : items = [a] := by
  have same : items.Perm [a] := by
    refine (List.perm_ext_iff_of_nodup nodup (List.nodup_singleton a)).2 fun b => ?_
    rw [List.mem_singleton]
    constructor
    · exact only b
    · rintro rfl
      exact member
  exact List.perm_singleton.1 same

namespace Trace
variable {trace : Trace} {store : Store} {link : TraceLink} {output : String} {target : Value}

theorem mem_candidates {source : Value} {rule : Option String} :
    link ∈ trace.candidates source output rule ↔
      link ∈ trace.links ∧ link.isFor source = true ∧ link.outputs.has output = true ∧
        rule.all (link.rule == ·) = true := by
  simp only [candidates, mem_linksFor, List.mem_filter, Bool.and_eq_true, and_assoc]

theorem Unique.candidates_nodup (unique : trace.Unique) (source : Value) (rule : Option String) :
    (trace.candidates source output rule).Nodup := by
  rw [candidates, linksFor_eq]
  exact ((List.Nodup.of_map _ unique).filter _).filter _

/-- A link of the trace is the only one of its rule for its source. -/
theorem Unique.eq_of_rule (unique : trace.Unique) (member : link ∈ trace.links) {other : TraceLink}
    (present : other ∈ trace.links) (sourced : other.isFor link.source = true)
    (ruled : other.rule = link.rule) : other = link := by
  refine unique.eq_of_pair present member ?_
  rw [TraceLink.pair, TraceLink.pair, ruled, TraceLink.isFor_iff.1 sourced]

theorem resolve_singleton {source : Value} {rule : Option String}
    (only : trace.candidates source output rule = [link])
    (found : link.outputs.get? output = some target) :
    trace.resolve store source output rule = .ok target := by
  simp [resolve, only, found]

/-- With its rule a link is found. -/
theorem Unique.resolve_rule (unique : trace.Unique) (member : link ∈ trace.links)
    (found : link.outputs.get? output = some target) :
    trace.resolve store link.source output (some link.rule) = .ok target := by
  have own : link.isFor link.source = true := TraceLink.isFor_iff.2 rfl
  have only : trace.candidates link.source output (some link.rule) = [link] := by
    refine eq_singleton_of_nodup (unique.candidates_nodup _ _) ?_ fun other candidate => ?_
    · exact mem_candidates.2 ⟨member, own, Named.has_of_get? found, by simp⟩
    · obtain ⟨present, sourced, -, ruled⟩ := mem_candidates.1 candidate
      exact unique.eq_of_rule member present sourced (by simpa using ruled)
  exact resolve_singleton only found

/-- Without its rule a link is found if no other rule made such an output of the source. -/
theorem Unique.resolve_alone (unique : trace.Unique) (member : link ∈ trace.links)
    (found : link.outputs.get? output = some target)
    (alone : ∀ other ∈ trace.links, other.isFor link.source = true →
      other.outputs.has output = true → other.rule = link.rule) :
    trace.resolve store link.source output none = .ok target := by
  have own : link.isFor link.source = true := TraceLink.isFor_iff.2 rfl
  have only : trace.candidates link.source output none = [link] := by
    refine eq_singleton_of_nodup (unique.candidates_nodup _ _) ?_ fun other candidate => ?_
    · exact mem_candidates.2 ⟨member, own, Named.has_of_get? found, rfl⟩
    · obtain ⟨present, sourced, named, -⟩ := mem_candidates.1 candidate
      exact unique.eq_of_rule member present sourced (alone other present sourced named)
  exact resolve_singleton only found

theorem resolve_ambiguous {other : TraceLink} (member : link ∈ trace.links)
    (found : link.outputs.get? output = some target) (present : other ∈ trace.links)
    (sourced : other.isFor link.source = true) (named : other.outputs.has output = true)
    (apart : other.rule ≠ link.rule) :
    trace.resolve store link.source output none =
      .error (.of (.ambiguousTrace output
        ((trace.candidates link.source output none).map (·.rule)))) := by
  have own : link.isFor link.source = true := TraceLink.isFor_iff.2 rfl
  have first : link ∈ trace.candidates link.source output none :=
    mem_candidates.2 ⟨member, own, Named.has_of_get? found, rfl⟩
  have second : other ∈ trace.candidates link.source output none :=
    mem_candidates.2 ⟨present, sourced, named, rfl⟩
  unfold resolve
  match candidates : trace.candidates link.source output none with
  | [] => rw [candidates] at first; cases first
  | [a] =>
    rw [candidates, List.mem_singleton] at first second
    rw [first, second] at apart
    exact absurd rfl apart
  | a :: b :: rest => rfl

end Trace

namespace Engine

/-- Creation made the target for the variable of the scheduled application at the place. -/
def CreatedFor (s : Engine) (place : Nat) (e : Application) (output : String) (target : Value) :
    Prop :=
  (scheduled s)[place]? = some e ∧
    ∃ outputs, s.created[place]? = some outputs ∧ outputs.get? output = some target

namespace Recorded
variable {s : Engine} {place : Nat} {e : Application} {output : String} {target : Value}

theorem link (recorded : Recorded s) (created : CreatedFor s place e output target) :
    ∃ link ∈ s.trace.links, link.rule = e.rule.name ∧ link.source = e.source ∧
      link.outputs.get? output = some target := by
  obtain ⟨turn, outputs, known, found⟩ := created
  obtain ⟨-, link, member, ruled, sourced, rfl⟩ := recorded.linkedAt turn known
  exact ⟨link, member, ruled, sourced, found⟩

theorem object (recorded : Recorded s) (created : CreatedFor s place e output target) :
    ∃ h cls, target = .object h ∧ h < s.store.entities.size ∧
      (s.bindingsEvaluated = 0 → s.store.entities[h]? = some (.instance cls [])) := by
  obtain ⟨-, outputs, known, found⟩ := created
  have present : (output, target) ∈ s.created.flatten :=
    List.mem_flatten.2 ⟨outputs, List.mem_of_getElem? known, Named.mem_of_get? found⟩
  obtain ⟨h, cls, object, inside, -, empty⟩ := recorded.objects _ present
  exact ⟨h, cls, object, inside, empty⟩

/-- An object was created for one variable of one scheduled application. -/
theorem once (recorded : Recorded s) {elsewhere : Nat} {d : Application} {other : String}
    (created : CreatedFor s place e output target)
    (again : CreatedFor s elsewhere d other target) : place = elsewhere ∧ output = other := by
  obtain ⟨-, outputs, known, found⟩ := created
  obtain ⟨-, more, beside, present⟩ := again
  have here := Named.mem_of_get? found
  have there := Named.mem_of_get? present
  have distinct := recorded.distinct
  rw [List.map_flatten] at distinct
  have first : target ∈ outputs.map (·.2) := List.mem_map.2 ⟨_, here, rfl⟩
  have second : target ∈ more.map (·.2) := List.mem_map.2 ⟨_, there, rfl⟩
  have same : place = elsewhere := by
    refine place_unique_of_nodup distinct ?_ ?_ first second
    · rw [List.getElem?_map, known]
      rfl
    · rw [List.getElem?_map, beside]
      rfl
  subst same
  obtain rfl := Option.some.inj (known.symm.trans beside)
  have single := (List.nodup_flatten.1 distinct).1 (outputs.map (·.2))
    (List.mem_map_of_mem (List.mem_of_getElem? known))
  exact ⟨rfl, congrArg Prod.fst (List.inj_on_of_nodup_map single here there rfl)⟩

/-- Once everything is created, there is an object for every variable of every scheduled application.
-/
theorem all (recorded : Recorded s) (covered : s.created.length = (scheduled s).length)
    (turn : (scheduled s)[place]? = some e) {out : OutPattern} (declared : out ∈ e.rule.outputs) :
    ∃ target, CreatedFor s place e out.name target := by
  obtain ⟨inside, -⟩ := List.getElem?_eq_some_iff.1 turn
  obtain ⟨outputs, known⟩ : ∃ outputs, s.created[place]? = some outputs :=
    ⟨_, List.getElem?_eq_getElem (covered ▸ inside)⟩
  obtain ⟨names, -⟩ := recorded.linkedAt turn known
  have named : out.name ∈ outputs.names := names ▸ List.mem_map_of_mem declared
  obtain ⟨target, found⟩ := Named.get?_of_mem_names named
  exact ⟨target, turn, outputs, known, found⟩

end Recorded

end Engine

section
variable {setting : Setting} {t : Transformation} {store : Store} {log : List LogRecord}
  {u : Engine}

/-- Before everything is created no binding is evaluated, and from then on every output that was
created is found in the trace. It is found without its rule too, unless another rule applied to the
source has an output of the same name. No object is created for two outputs, and before a binding is
evaluated none has a value. -/
theorem resolution_inverts_creation (given : setting.transformation = some t)
    (reaches : Engine.Reaches setting t store log u) :
    (u.phase = .ready ∨ u.phase = .matching ∨ u.phase = .creation → u.bindingsEvaluated = 0) ∧
      (u.phase = .initialization ∨ u.phase = .resolution ∨ u.phase = .complete →
        ∀ place e, (Engine.scheduled u)[place]? = some e → ∀ out ∈ e.rule.outputs,
          ∃ target, u.CreatedFor place e out.name target) ∧
      (∀ place e output target, u.CreatedFor place e output target →
        u.trace.resolve u.store e.source output (some e.rule.name) = .ok target ∧
          ((∀ link ∈ u.trace.links, link.isFor e.source = true → link.outputs.has output = true →
              link.rule = e.rule.name) →
            u.trace.resolve u.store e.source output none = .ok target) ∧
          (∀ link ∈ u.trace.links, link.isFor e.source = true → link.outputs.has output = true →
            link.rule ≠ e.rule.name → u.trace.resolve u.store e.source output none =
              .error (.of (.ambiguousTrace output
                ((u.trace.candidates e.source output none).map (·.rule))))) ∧
          ∃ h cls, target = .object h ∧ h < u.store.entities.size ∧
            (u.bindingsEvaluated = 0 → u.store.entities[h]? = some (.instance cls []))) ∧
      ∀ place e output elsewhere d other target, u.CreatedFor place e output target →
        u.CreatedFor elsewhere d other target → place = elsewhere ∧ output = other := by
  obtain ⟨⟨done, career⟩, staged⟩ := reaches.career given
  have recorded : Engine.Recorded u := career.recorded .fresh
  refine ⟨staged.before, ?_, ?_, ?_⟩
  · intro late place e turn out declared
    exact recorded.all (staged.behind late) turn declared
  · intro place e output target created
    obtain ⟨link, member, ruled, sourced, found⟩ := recorded.link created
    rw [← ruled, ← sourced]
    refine ⟨recorded.unique.resolve_rule member found,
      recorded.unique.resolve_alone member found, ?_, recorded.object created⟩
    intro other present same named apart
    exact Trace.resolve_ambiguous member found present same named apart
  · intro place e output elsewhere d other target created again
    exact recorded.once created again

theorem resolution_inverts_creation_direct :
    ∃ u place e target,
      Engine.Reaches (Looping.settingOf Looping.direct) Looping.direct Looping.objects [] u ∧
      u.CreatedFor place e "o" target ∧
      u.trace.resolve u.store e.source "o" (some e.rule.name) = .ok target := by
  obtain ⟨u, completes, tested⟩ := Looping.completes_of_passes Looping.direct
    (fun u => decide (u.phase = .complete) &&
      (Engine.scheduled u).any fun e => e.rule.outputs.any (·.name == "o")) (by decide +kernel)
  simp only [Bool.and_eq_true, decide_eq_true_eq, List.any_eq_true, beq_iff_eq] at tested
  obtain ⟨complete, e, member, out, declared, named⟩ := tested
  obtain ⟨place, turn⟩ := List.mem_iff_getElem?.1 member
  obtain ⟨-, all, found, -⟩ := resolution_inverts_creation rfl completes.reaches
  obtain ⟨target, created⟩ := all (.inr (.inr complete)) place e turn out declared
  rw [named] at created
  exact ⟨u, place, e, target, completes.reaches, created, (found _ _ _ _ created).1⟩

end

end Metamorph
