import Metamorph.Proofs.Deferral
import Metamorph.Proofs.Growth

/-! The trail of a run, wherever it ends: with a value, with a fault, or broken off. A course knows
the state of a successful run in full; a trail knows less, but of every run. -/
namespace Metamorph.Engine

/-- The state in which the outputs of a lazy rule are made, for a pair that has none yet. -/
def asking (s : Engine) : Engine := { s with cache := s.cache.miss, history := [] }

/-- The state in which the outputs of a lazy rule are filled in, after they were made. -/
def starting (rule : String) (argument : Value) (outputs : Outputs) (trace : Trace) (s : Engine) :
    Engine :=
  { s with
    trace
    lazyApplied := s.lazyApplied + 1
    cache := s.cache.start rule argument outputs
    history := [] }

@[simp]
theorem starting_cache (rule : String) (argument : Value) (outputs : Outputs) (trace : Trace)
    (s : Engine) :
    (starting rule argument outputs trace s).cache = s.cache.start rule argument outputs := rfl

@[simp]
theorem starting_lazyApplied (rule : String) (argument : Value) (outputs : Outputs) (trace : Trace)
    (s : Engine) : (starting rule argument outputs trace s).lazyApplied = s.lazyApplied + 1 := rfl

@[simp]
theorem telling_cache (before : Engine) (event : Event) (s : Engine) :
    (telling before event s).cache = s.cache := rfl

@[simp]
theorem telling_lazyApplied (before : Engine) (event : Event) (s : Engine) :
    (telling before event s).lazyApplied = s.lazyApplied := rfl

theorem Makes.cache_of_asking {t : Transformation} {s u : Engine} (makes : Makes t (asking s) u) :
    u.cache = s.cache.miss :=
  makes.others.cache

theorem Makes.lazyApplied_of_asking {t : Transformation} {s u : Engine}
    (makes : Makes t (asking s) u) : u.lazyApplied = s.lazyApplied :=
  makes.others.lazyApplied

theorem growth_starting {t : Transformation} {rule : String} {argument : Value} {outputs : Outputs}
    {trace : Trace} {s u : Engine}
    (growth : Growth t (starting rule argument outputs trace s) u) :
    Growth t { s with trace } u :=
  growth.between ⟨rfl, rfl, rfl, rfl, rfl⟩ ⟨rfl, rfl, rfl, rfl, rfl⟩

/-- From one state to another by the given events, some of which may have failed. -/
inductive Trail (setting : Setting) (t : Transformation) : List Event → Engine → Engine → Prop
  | idle {s u} (idle : Idle s u) : Trail setting t [] s u
  | trans {s u w done more} (first : Trail setting t done s u) (rest : Trail setting t more u w) :
      Trail setting t (done ++ more) s w
  | counted {s n} (more : s.bindingsEvaluated ≤ n) :
      Trail setting t [] s { s with bindingsEvaluated := n }
  | made {s u} (makes : Makes t s u) : Trail setting t [] s u
  | write {s h feature v store}
      (owned : s.Owns (.object h))
      (evaluated : s.bindingsEvaluated ≠ 0)
      (accepted : s.store.set h feature v = .ok store) :
      Trail setting t [] s { s with store }
  | deferring {s d} (owned : s.Owns d.target) :
      Trail setting t [] s { s with deferred := s.deferred ++ [d] }
  | assignment {s u occasion work stored inner}
      (bound : occasion ≠ .statement → s.Owns work.target)
      (worked : Trail setting t inner { s with history := [] } u)
      (assigned : stored.isSome → u.Owns work.target) :
      Trail setting t [.assignment occasion work stored inner] s
        (telling s (.assignment occasion work stored inner) u)
  | application {s u rule patterns body outputs inner}
      (worked : Trail setting t inner { s with history := [] } u) :
      Trail setting t [.application rule patterns body outputs inner] s
        (telling s (.application rule patterns body outputs inner) u)
  | called {s u rule args result inner}
      (worked : Trail setting t inner { s with history := [] } u) :
      Trail setting t [.called rule args result inner] s
        (telling s (.called rule args result inner) u)
  | replayed {s rule args result} :
      Trail setting t [.replayed rule args result] s (s.note (.replayed rule args result))
  | hit {s rule argument entry}
      (known : t.module.lazyRule? rule.name = some rule)
      (found : s.cache.lookup? rule.name argument = some entry) :
      Trail setting t
        [.lazy rule.name argument entry.complete (some (answer rule entry.outputs)) []] s
        (telling s
          (.lazy rule.name argument entry.complete (some (answer rule entry.outputs)) [])
          { s with cache := s.cache.hit })
  /-- The outputs could not be made. -/
  | unmade {s u rule argument}
      (known : t.module.lazyRule? rule.name = some rule)
      (missing : s.cache.lookup? rule.name argument = none)
      (makes : Makes t (asking s) u) :
      Trail setting t [.lazy rule.name argument false none []] s
        (telling s (.lazy rule.name argument false none []) u)
  /-- The outputs were made but not all filled in. -/
  | broken {s u w rule argument outputs link trace inner}
      (known : t.module.lazyRule? rule.name = some rule)
      (missing : s.cache.lookup? rule.name argument = none)
      (makes : Makes t (asking s) u)
      (fresh : Fresh rule.outputs outputs s.store u)
      (registered : u.trace.register u.store rule.name argument outputs .lazy = .ok (link, trace))
      (filling : Trail setting t inner (starting rule.name argument outputs trace u) w) :
      Trail setting t
        [.lazy rule.name argument false none
          [.application rule.name rule.outputs [] outputs inner]] s
        (telling s
          (.lazy rule.name argument false none
            [.application rule.name rule.outputs [] outputs inner]) w)
  | filled {s u w rule argument outputs link trace inner}
      (known : t.module.lazyRule? rule.name = some rule)
      (missing : s.cache.lookup? rule.name argument = none)
      (makes : Makes t (asking s) u)
      (fresh : Fresh rule.outputs outputs s.store u)
      (registered : u.trace.register u.store rule.name argument outputs .lazy = .ok (link, trace))
      (filling : Trail setting t inner (starting rule.name argument outputs trace u) w)
      (ordered : jobs inner = outputJobs outputs
        (setting.rootEnvironment (Named.update [(rule.parameter.name, argument)] outputs)).snapshot
        rule.outputs)
      (stored : ∀ e ∈ evaluations inner, e.stored.isSome = true) :
      Trail setting t
        [.lazy rule.name argument ((w.cache.finish rule.name argument).isComplete rule.name argument)
          (some (answer rule outputs)) [.application rule.name rule.outputs [] outputs inner]] s
        (telling s
          (.lazy rule.name argument
            ((w.cache.finish rule.name argument).isComplete rule.name argument)
            (some (answer rule outputs)) [.application rule.name rule.outputs [] outputs inner])
          { w with cache := w.cache.finish rule.name argument })

namespace Trail
variable {setting : Setting} {t : Transformation} {s u : Engine} {done : List Event}

theorem refl (s : Engine) : Trail setting t [] s s := .idle (.refl s)

theorem history (trail : Trail setting t done s u) : u.history = s.history ++ done := by
  induction trail with
  | idle idle => rw [idle.history, List.append_nil]
  | trans _ _ first rest => rw [rest, first, List.append_assoc]
  | made makes => rw [makes.others.history, List.append_nil]
  | counted _ | write _ _ _ | deferring _ => exact (List.append_nil _).symm
  | _ => rfl

theorem thenIdle {w : Engine} (trail : Trail setting t done s u) (idle : Idle u w) :
    Trail setting t done s w := by
  simpa using trail.trans (.idle idle)

/-- The schedule, what was created for it and the phase stay. -/
theorem fixed (trail : Trail setting t done s u) :
    u.schedule = s.schedule ∧ u.created = s.created ∧ u.phase = s.phase := by
  induction trail with
  | idle idle => exact ⟨idle.schedule, idle.created, idle.phase⟩
  | trans _ _ first rest =>
    exact ⟨rest.1.trans first.1, rest.2.1.trans first.2.1, rest.2.2.trans first.2.2⟩
  | made makes | unmade _ _ makes =>
    exact ⟨makes.others.schedule, makes.others.created, makes.others.phase⟩
  | counted _ | write _ _ _ | deferring _ | replayed | hit _ _ => exact ⟨rfl, rfl, rfl⟩
  | assignment _ _ _ inner | application _ inner | called _ inner => exact inner
  | broken _ _ makes _ _ _ inner | filled _ _ makes _ _ _ _ _ inner =>
    have others := makes.others
    exact ⟨inner.1.trans others.schedule, inner.2.1.trans others.created,
      inner.2.2.trans others.phase⟩

theorem growth (trail : Trail setting t done s u) : Growth t s u := by
  induction trail with
  | idle idle => exact .idle idle
  | trans _ _ first rest => exact first.trans rest
  | counted more => exact .of_same rfl rfl List.prefix_rfl more rfl
  | made makes => exact makes.growth
  | write owned evaluated accepted => exact .write owned evaluated accepted
  | deferring owned => exact .deferring owned
  | assignment _ _ _ inner | application _ inner | called _ inner =>
    exact inner.between ⟨rfl, rfl, rfl, rfl, rfl⟩ ⟨rfl, rfl, rfl, rfl, rfl⟩
  | replayed | hit _ _ => exact .same ⟨rfl, rfl, rfl, rfl, rfl⟩
  | unmade _ _ makes =>
    exact makes.growth.between ⟨rfl, rfl, rfl, rfl, rfl⟩ ⟨rfl, rfl, rfl, rfl, rfl⟩
  | broken _ _ makes _ registered _ inner | filled _ _ makes _ registered _ _ _ inner =>
    have made := makes.growth.trans (.registered registered)
    exact (made.trans (growth_starting inner)).between ⟨rfl, rfl, rfl, rfl, rfl⟩
      ⟨rfl, rfl, rfl, rfl, rfl⟩

end Trail

end Metamorph.Engine
