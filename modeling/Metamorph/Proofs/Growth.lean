import Metamorph.Proofs.Making

/-! How the models grow. Objects are only added, to models that the transformation has as targets,
and nothing but the engine's own objects is ever changed. -/
namespace Metamorph

theorem Trace.register_eq_ok {trace next : Trace} {store : Store} {rule : String} {source : Value}
    {outputs : Outputs} {kind : LinkKind} {link : TraceLink}
    (registered : trace.register store rule source outputs kind = .ok (link, next)) :
    trace.lookup? rule source = none ∧ next.links = trace.links ++ [link] ∧ link.rule = rule ∧
      link.source = source ∧ link.outputs = outputs := by
  unfold register at registered
  split at registered
  · cases cited : store.cite source <;> rw [cited] at registered <;> cases registered
  · rename_i missing
    cases registered
    exact ⟨missing, rfl, rfl, rfl, rfl⟩

/-- The model is one that the transformation creates objects in. -/
def Transformation.HasTarget (t : Transformation) (model : Nat) : Prop :=
  ∃ name provider, (name, provider) ∈ t.targets ∧ provider.model = model

theorem Engine.targetProvider_mem {t : Transformation} {type : String} {provider : Provider}
    (chosen : targetProvider t type = .ok provider) : ∃ name, (name, provider) ∈ t.targets := by
  unfold targetProvider at chosen
  split at chosen
  · split at chosen
    · rename_i only
      cases chosen
      exact ⟨_, by rw [only]; exact List.mem_singleton_self _⟩
    · cases chosen
  · dsimp only at chosen
    split at chosen
    · rename_i found
      cases chosen
      obtain ⟨target, -, known⟩ := Option.bind_eq_some_iff.1 found
      exact ⟨_, Named.mem_of_get? known⟩
    · cases chosen

theorem Engine.targetProvider_refuses {t : Transformation} {type : String} {fault : Fault}
    (refused : targetProvider t type = .error fault) :
    ∃ reason, fault = .unsupported ("create " ++ type) reason := by
  unfold targetProvider at refused
  split at refused
  · split at refused
    · cases refused
    · cases refused
      exact ⟨_, rfl⟩
  · dsimp only at refused
    split at refused
    · cases refused
    · cases refused
      exact ⟨_, rfl⟩

/-- What one stretch of a run has made of the models and the trace. -/
structure Growth (transformation : Transformation) (s t : Engine) : Prop where
  size : s.store.entities.size ≤ t.store.entities.size
  owners : s.owners <:+ t.owners
  trace : s.trace.links <+: t.trace.links
  counted : s.bindingsEvaluated ≤ t.bindingsEvaluated
  members : ∀ model, s.store.members model <+: t.store.members model
  elsewhere : ∀ model, ¬ transformation.HasTarget model →
    t.store.members model = s.store.members model
  made : ∀ h provider, t.ownerOf? (.object h) = some provider →
    s.ownerOf? (.object h) = some provider ∨
      s.store.entities.size ≤ h ∧ h ∈ t.store.members provider.model ∧
        ∃ name, (name, provider) ∈ transformation.targets
  others : ∀ g, g < s.store.entities.size → ¬ s.Owns (.object g) →
    t.store.entities[g]? = s.store.entities[g]?
  waiting : ∃ added, t.deferred = s.deferred ++ added ∧ ∀ d ∈ added, t.Owns d.target
  /-- Nothing is assigned before a binding was evaluated. -/
  unwritten : t.bindingsEvaluated = 0 → ∀ g, g < s.store.entities.size →
    t.store.entities[g]? = s.store.entities[g]?

namespace Growth
variable {transformation : Transformation} {s t u : Engine}

/-- Nothing but the trace grows. -/
theorem of_same (store : t.store = s.store) (owners : t.owners = s.owners)
    (trace : s.trace.links <+: t.trace.links) (counted : s.bindingsEvaluated ≤ t.bindingsEvaluated)
    (deferred : t.deferred = s.deferred) : Growth transformation s t where
  size := Nat.le_of_eq (by rw [store])
  owners := owners ▸ List.suffix_rfl
  trace
  counted
  members model := store ▸ List.prefix_rfl
  elsewhere model _ := by rw [store]
  made h provider owned := .inl (by simpa [Engine.ownerOf?, owners] using owned)
  others g _ _ := by rw [store]
  waiting := ⟨[], by rw [deferred, List.append_nil], by simp⟩
  unwritten _ g _ := by rw [store]

/-- The states agree on what growth is about. -/
def Alike (s t : Engine) : Prop :=
  t.store = s.store ∧ t.owners = s.owners ∧ t.trace = s.trace ∧
    t.bindingsEvaluated = s.bindingsEvaluated ∧ t.deferred = s.deferred

theorem same (alike : Alike s t) : Growth transformation s t := by
  obtain ⟨store, owners, trace, counted, deferred⟩ := alike
  exact of_same store owners (trace ▸ List.prefix_rfl) (Nat.le_of_eq counted.symm) deferred

theorem idle (idle : Engine.Idle s t) : Growth transformation s t :=
  same ⟨idle.store, idle.owners, idle.trace, idle.bindingsEvaluated, idle.deferred⟩

theorem registered {store : Store} {rule : String} {source : Value} {outputs : Outputs}
    {kind : LinkKind} {link : TraceLink} {trace : Trace}
    (registered : s.trace.register store rule source outputs kind = .ok (link, trace)) :
    Growth transformation s { s with trace } :=
  of_same rfl rfl ⟨[link], (Trace.register_eq_ok registered).2.1.symm⟩ (Nat.le_refl _) rfl

theorem owned (growth : Growth transformation s t) {h : Handle} (owns : t.Owns (.object h)) :
    s.Owns (.object h) ∨ s.store.entities.size ≤ h := by
  obtain ⟨provider, known⟩ := Option.isSome_iff_exists.1 owns
  rcases growth.made h provider known with before | ⟨new, -⟩
  · exact .inl (Option.isSome_iff_exists.2 ⟨provider, before⟩)
  · exact .inr new

theorem owns (growth : Growth transformation s t) {v : Value} (owns : s.Owns v) : t.Owns v :=
  owns.mono growth.owners

theorem trans (first : Growth transformation s t) (rest : Growth transformation t u) :
    Growth transformation s u where
  size := Nat.le_trans first.size rest.size
  owners := first.owners.trans rest.owners
  trace := first.trace.trans rest.trace
  counted := Nat.le_trans first.counted rest.counted
  members model := (first.members model).trans (rest.members model)
  elsewhere model foreign := (rest.elsewhere model foreign).trans (first.elsewhere model foreign)
  made h provider known := by
    rcases rest.made h provider known with before | ⟨new, listed, target⟩
    · rcases first.made h provider before with earlier | ⟨new, listed, target⟩
      · exact .inl earlier
      · exact .inr ⟨new, (rest.members _).subset listed, target⟩
    · exact .inr ⟨Nat.le_trans first.size new, listed, target⟩
  others g inside foreign := by
    have still : ¬ t.Owns (.object g) := by
      intro owns
      rcases first.owned owns with before | new
      · exact foreign before
      · omega
    rw [rest.others g (Nat.lt_of_lt_of_le inside first.size) still, first.others g inside foreign]
  waiting := by
    obtain ⟨here, before, early⟩ := first.waiting
    obtain ⟨there, behind, late⟩ := rest.waiting
    refine ⟨here ++ there, by rw [behind, before, List.append_assoc], ?_⟩
    intro d member
    rcases List.mem_append.1 member with old | new
    · exact rest.owns (early d old)
    · exact late d new
  unwritten none g inside := by
    have before : t.bindingsEvaluated = 0 := Nat.eq_zero_of_le_zero (none ▸ rest.counted)
    rw [rest.unwritten none g (Nat.lt_of_lt_of_le inside first.size), first.unwritten before g inside]

/-- Growth between two states is growth between any that agree with them. -/
theorem between {a b : Engine} (growth : Growth transformation a b) (before : Alike s a)
    (after : Alike b t) : Growth transformation s t :=
  ((same before).trans growth).trans (same after)

theorem owning {provider : Provider} {type : String} {h : Handle} {store : Store}
    (chosen : Engine.targetProvider transformation type = .ok provider)
    (created : s.store.create provider.model type = .ok (h, store)) :
    Growth transformation s (Engine.owning h provider store s) := by
  obtain ⟨name, target⟩ := Engine.targetProvider_mem chosen
  obtain ⟨rfl, next⟩ := Store.size_create created
  have kept := (Store.entities_create created).2
  exact {
    size := by
      change _ ≤ store.entities.size
      omega
    owners := List.suffix_cons _ _
    trace := List.prefix_rfl
    counted := Nat.le_refl _
    members := fun model => by
      change _ <+: store.members model
      rw [Store.members_create created]
      exact List.prefix_append _ _
    elsewhere := fun model foreign => by
      change store.members model = _
      have other : model ≠ provider.model := by
        rintro rfl
        exact foreign ⟨name, provider, target, rfl⟩
      rw [Store.members_create created, if_neg other, List.append_nil]
    made := fun g owner known => by
      change (((_, provider) :: s.owners).lookup g) = some owner at known
      rw [List.lookup_cons] at known
      by_cases new : g = s.store.entities.size
      · subst new
        simp only [beq_self_eq_true, Option.some.injEq] at known
        subst known
        refine .inr ⟨Nat.le_refl _, ?_, name, target⟩
        change _ ∈ store.members provider.model
        simp [Store.members_create created]
      · rw [beq_false_of_ne new] at known
        exact .inl known
    others := fun g inside _ => kept g inside
    waiting := ⟨[], (List.append_nil _).symm, by simp⟩
    unwritten := fun _ g inside => kept g inside }

theorem write {h : Handle} {feature : String} {v : Value} {store : Store}
    (owned : s.Owns (.object h)) (evaluated : s.bindingsEvaluated ≠ 0)
    (accepted : s.store.set h feature v = .ok store) :
    Growth transformation s { s with store } where
  size := Nat.le_of_eq (Store.size_set accepted).symm
  owners := List.suffix_rfl
  trace := List.prefix_rfl
  counted := Nat.le_refl _
  members model := by
    have same : store.members model = s.store.members model := Store.members_set accepted model
    exact ⟨[], (List.append_nil _).trans same.symm⟩
  elsewhere model _ := Store.members_set accepted model
  made h provider known := .inl known
  others g _ foreign := by
    obtain ⟨cls, values, w, -, -, -, others⟩ := Store.entities_set accepted
    refine others g ?_
    rintro rfl
    exact foreign owned
  waiting := ⟨[], (List.append_nil _).symm, by simp⟩
  unwritten none := absurd none evaluated

theorem deferring {d : DeferredBinding} (owned : s.Owns d.target) :
    Growth transformation s { s with deferred := s.deferred ++ [d] } where
  size := Nat.le_refl _
  owners := List.suffix_rfl
  trace := List.prefix_rfl
  counted := Nat.le_refl _
  members _ := List.prefix_rfl
  elsewhere _ _ := rfl
  made _ _ known := .inl known
  others _ _ _ := rfl
  waiting := ⟨[d], rfl, fun _ member => List.mem_singleton.1 member ▸ owned⟩
  unwritten _ _ _ := rfl

end Growth

theorem Engine.Makes.growth {transformation : Transformation} {s t : Engine}
    (makes : Makes transformation s t) : Growth transformation s t := by
  induction makes with
  | idle idle => exact .idle idle
  | trans _ _ first rest => exact first.trans rest
  | make chosen created => exact .owning chosen created

end Metamorph
