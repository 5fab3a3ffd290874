import Metamorph.Proofs.Career

/-! The requests for lazy rules in a history, and the memory that answers them. For a rule and an
argument outputs are made at most once; whoever asks again gets those. -/
namespace Metamorph

/-- A request for a lazy rule that was not refused: what it was answered with, unless it failed,
the requests in the midst of which it was made, innermost first, and what happened within it. -/
structure Request where
  rule : String
  argument : Value
  result : Option Value
  around : List (String × Key)
  inner : List Event

namespace Request

/-- Requests with equal pairs are for one rule and equal arguments. -/
def pair (q : Request) : String × Key := (q.rule, q.argument.key)

/-- Outputs were made for the request. -/
def begins (q : Request) : Bool := !q.inner.isEmpty

def returns (q : Request) : Bool := q.result.isSome

theorem pair_eq_iff {q r : Request} :
    q.pair = r.pair ↔ q.rule = r.rule ∧ q.argument.same r.argument = true := by
  rw [pair, pair, Prod.mk.injEq, Value.same_iff]

end Request

mutual

/-- The requests within an event, in the order in which they ended. -/
def Event.requests (around : List (String × Key)) : Event → List Request
  | .assignment _ _ _ inner => requestsAmong around inner
  | .application _ _ _ _ inner => requestsAmong around inner
  | .lazy rule argument _ result inner =>
    requestsAmong ((rule, argument.key) :: around) inner ++ [⟨rule, argument, result, around, inner⟩]
  | .called _ _ _ inner => requestsAmong around inner
  | .replayed _ _ _ => []
  | .unowned _ _ => []

def requestsAmong (around : List (String × Key)) : List Event → List Request
  | [] => []
  | event :: rest => event.requests around ++ requestsAmong around rest

end

/-- All requests of a history. -/
def requests (events : List Event) : List Request := requestsAmong [] events

section
variable {around : List (String × Key)} {events more inner : List Event}

@[simp]
theorem requestsAmong_nil : requestsAmong around [] = [] := rfl

@[simp]
theorem requestsAmong_append :
    requestsAmong around (events ++ more) =
      requestsAmong around events ++ requestsAmong around more := by
  induction events with
  | nil => rfl
  | cons event rest ih => simp [requestsAmong, ih]

theorem requestsAmong_singleton (event : Event) :
    requestsAmong around [event] = event.requests around :=
  List.append_nil _

mutual

theorem Event.around_suffix {around : List (String × Key)} {event : Event} {q : Request}
    (member : q ∈ event.requests around) : around <:+ q.around := by
  cases event with
  | assignment _ _ _ inner | application _ _ _ _ inner | called _ _ _ inner =>
    exact around_suffix_among member
  | «lazy» rule argument complete result inner =>
    rcases List.mem_append.1 member with nested | own
    · exact (List.suffix_cons _ _).trans (around_suffix_among nested)
    · obtain rfl := List.mem_singleton.1 own
      exact List.suffix_rfl
  | replayed | unowned => cases member

/-- A request is made in the midst of those that what it happened in was part of. -/
theorem around_suffix_among {around : List (String × Key)} {events : List Event} {q : Request}
    (member : q ∈ requestsAmong around events) : around <:+ q.around := by
  cases events with
  | nil => cases member
  | cons event rest =>
    rcases List.mem_append.1 member with here | there
    · exact Event.around_suffix here
    · exact around_suffix_among there

end

end

def LazyEntry.pair (entry : LazyEntry) : String × Key := (entry.rule, entry.source.key)

theorem LazyEntry.isFor_iff {entry : LazyEntry} {rule : String} {source : Value} :
    entry.isFor rule source = true ↔ entry.pair = (rule, source.key) := by
  rw [isFor, pair, Bool.and_eq_true, beq_iff_eq, Value.same_iff, Prod.mk.injEq]

namespace LazyCache
variable {cache : LazyCache} {rule : String} {source : Value} {outputs : Outputs}

/-- What was made for which pair, whether it is filled in yet or not. -/
def table (cache : LazyCache) : List ((String × Key) × Outputs) :=
  cache.entries.map fun entry => (entry.pair, entry.outputs)

def pairs (cache : LazyCache) : List (String × Key) := cache.table.map (·.1)

theorem table_start :
    (cache.start rule source outputs).table = cache.table ++ [((rule, source.key), outputs)] := by
  simp [table, start, LazyEntry.pair]

theorem pairs_start :
    (cache.start rule source outputs).pairs = cache.pairs ++ [(rule, source.key)] := by
  simp [pairs, table_start]

theorem table_finish : (cache.finish rule source).table = cache.table := by
  simp only [table, finish, List.map_map]
  refine List.map_congr_left fun entry _ => ?_
  dsimp only [Function.comp_apply]
  split <;> rfl

theorem mem_pairs_of_mem {pair : String × Key} (member : (pair, outputs) ∈ cache.table) :
    pair ∈ cache.pairs :=
  List.mem_map_of_mem member

theorem mem_table_of_lookup? {entry : LazyEntry} (found : cache.lookup? rule source = some entry) :
    ((rule, source.key), entry.outputs) ∈ cache.table := by
  have found : cache.entries.find? (·.isFor rule source) = some entry := found
  have fits := List.find?_some found
  rw [← LazyEntry.isFor_iff.1 fits]
  exact List.mem_map_of_mem (List.mem_of_find?_eq_some found)

theorem not_mem_pairs_of_lookup? (missing : cache.lookup? rule source = none) :
    (rule, source.key) ∉ cache.pairs := by
  intro known
  simp only [pairs, table, List.map_map, List.mem_map] at known
  obtain ⟨entry, member, same⟩ := known
  have fits := LazyEntry.isFor_iff.2 same
  exact absurd fits (by simp [not_isFor_of_missing missing member])

end LazyCache

/-- What an application of the lazy rule assigns, all of it and in order, and nothing failed. -/
def LazyRule.FilledBy (rule : LazyRule) (setting : Setting) (argument : Value) (outputs : Outputs)
    (inner : List Event) : Prop :=
  jobs inner = outputJobs outputs
      (setting.rootEnvironment (Named.update [(rule.parameter.name, argument)] outputs)).snapshot
      rule.outputs ∧
    ∀ e ∈ evaluations inner, e.stored.isSome = true

namespace Request

/-- The outputs that were made for the request are remembered. If it was answered, then with them
and after they were filled in. -/
def Begun (setting : Setting) (t : Transformation) (cache : LazyCache) (q : Request) : Prop :=
  ∃ rule outputs inner, t.module.lazyRule? q.rule = some rule ∧
    q.inner = [.application rule.name rule.outputs [] outputs inner] ∧
    (q.pair, outputs) ∈ cache.table ∧
    ∀ v, q.result = some v →
      v = Engine.answer rule outputs ∧ rule.FilledBy setting q.argument outputs inner

/-- The request was answered with outputs that are remembered. -/
def Answered (t : Transformation) (cache : LazyCache) (q : Request) : Prop :=
  ∃ rule outputs, t.module.lazyRule? q.rule = some rule ∧ (q.pair, outputs) ∈ cache.table ∧
    q.result = some (Engine.answer rule outputs)

section
variable {setting : Setting} {t : Transformation} {cache next : LazyCache} {q : Request}

theorem Begun.mono (begun : q.Begun setting t cache) (kept : cache.table ⊆ next.table) :
    q.Begun setting t next := by
  obtain ⟨rule, outputs, inner, known, application, listed, filled⟩ := begun
  exact ⟨rule, outputs, inner, known, application, kept listed, filled⟩

theorem Answered.mono (answered : q.Answered t cache) (kept : cache.table ⊆ next.table) :
    q.Answered t next := by
  obtain ⟨rule, outputs, known, listed, result⟩ := answered
  exact ⟨rule, outputs, known, kept listed, result⟩

end

end Request

theorem split_append {α : Type} {xs ys front back : List α} {a : α}
    (same : xs ++ ys = front ++ a :: back) :
    (∃ rest, xs = front ++ a :: rest) ∨ ∃ more, front = xs ++ more ∧ ys = more ++ a :: back := by
  rcases List.append_eq_append_iff.1 same with ⟨more, before, behind⟩ | ⟨rest, before, behind⟩
  · exact .inr ⟨more, before, behind⟩
  · cases rest with
    | nil => exact .inr ⟨[], by simpa using before.symm, by simpa using behind.symm⟩
    | cons b rest =>
      obtain ⟨rfl, -⟩ := List.cons.inj behind
      exact .inl ⟨rest, before⟩

theorem split_singleton {α : Type} {front back : List α} {a b : α}
    (same : [b] = front ++ a :: back) : front = [] ∧ a = b := by
  cases front with
  | nil => exact ⟨rfl, (List.cons.inj same).1.symm⟩
  | cons c rest => simp at same

/-- How requests were served by the memory they found, and what they made of it. The memory lists
what was begun in the order of the beginnings and requests are listed as they ended, so the two
agree up to order. -/
structure Served (setting : Setting) (t : Transformation) (asked : List Request)
    (before after : LazyCache) : Prop where
  table : ∃ added, after.table = before.table ++ added ∧
    (added.map (·.1)).Perm ((asked.filter (·.begins)).map (·.pair))
  distinct : before.pairs.Nodup → after.pairs.Nodup
  hits : after.hits = before.hits + (asked.filter fun q => q.returns && !q.begins).length
  begun : ∀ q ∈ asked, q.begins = true → q.Begun setting t after
  answered : ∀ q ∈ asked, q.returns = true → q.Answered t after
  /-- Outputs were made before, or by a request that had ended or is still going on. -/
  origin : ∀ front q back, asked = front ++ q :: back → q.returns = true →
    q.pair ∈ before.pairs ∨ q.pair ∈ q.around ∨
      ∃ r ∈ front ++ [q], r.begins = true ∧ r.pair = q.pair
  /-- Outputs are made in vain only where none were made. -/
  vain : ∀ front q back, asked = front ++ q :: back → q.returns = false → q.begins = false →
    q.pair ∉ before.pairs ∧ ∀ r ∈ front, r.begins = true → r.pair ≠ q.pair

namespace Served
variable {setting : Setting} {t : Transformation} {asked others : List Request}
  {before between after : LazyCache}

theorem none (cache : LazyCache) : Served setting t [] cache cache where
  table := ⟨[], (List.append_nil _).symm, .nil⟩
  distinct := id
  hits := rfl
  begun := by simp
  answered := by simp
  origin := by simp
  vain := by simp

theorem subset (served : Served setting t asked before after) : before.table ⊆ after.table := by
  obtain ⟨added, same, -⟩ := served.table
  rw [same]
  exact List.subset_append_left _ _

theorem mem_pairs (served : Served setting t asked before after) {pair : String × Key} :
    pair ∈ after.pairs ↔ pair ∈ before.pairs ∨ ∃ r ∈ asked, r.begins = true ∧ r.pair = pair := by
  obtain ⟨added, same, begun⟩ := served.table
  rw [LazyCache.pairs, same, List.map_append, List.mem_append, begun.mem_iff]
  simp [LazyCache.pairs, and_assoc]

theorem trans (first : Served setting t asked before between)
    (rest : Served setting t others between after) :
    Served setting t (asked ++ others) before after where
  table := by
    obtain ⟨early, here, begun⟩ := first.table
    obtain ⟨late, there, next⟩ := rest.table
    refine ⟨early ++ late, by rw [there, here, List.append_assoc], ?_⟩
    simpa using begun.append next
  distinct unique := rest.distinct (first.distinct unique)
  hits := by
    rw [rest.hits, first.hits, List.filter_append, List.length_append, Nat.add_assoc]
  begun q member begins := by
    rcases List.mem_append.1 member with early | late
    · exact (first.begun q early begins).mono rest.subset
    · exact rest.begun q late begins
  answered q member returns := by
    rcases List.mem_append.1 member with early | late
    · exact (first.answered q early returns).mono rest.subset
    · exact rest.answered q late returns
  origin front q back split returns := by
    rcases split_append split with ⟨more, early⟩ | ⟨more, rfl, late⟩
    · exact first.origin front q more early returns
    · have mine : ∀ r ∈ more ++ [q], r ∈ asked ++ more ++ [q] := fun r member => by
        simpa using .inr (by simpa using member)
      rcases rest.origin more q back late returns with known | midst | ⟨r, member, begins, same⟩
      · rcases first.mem_pairs.1 known with old | ⟨r, member, begins, same⟩
        · exact .inl old
        · exact .inr (.inr ⟨r, by simp [member], begins, same⟩)
      · exact .inr (.inl midst)
      · exact .inr (.inr ⟨r, mine r member, begins, same⟩)
  vain front q back split fails idle := by
    rcases split_append split with ⟨more, early⟩ | ⟨more, rfl, late⟩
    · exact first.vain front q more early fails idle
    · obtain ⟨unknown, none⟩ := rest.vain more q back late fails idle
      rw [first.mem_pairs, not_or] at unknown
      refine ⟨unknown.1, fun r member begins same => ?_⟩
      rcases List.mem_append.1 member with before | between
      · exact unknown.2 ⟨r, before, begins, same⟩
      · exact none r between begins same

variable {rule : LazyRule} {argument : Value} {around : List (String × Key)} {cache : LazyCache}

theorem hit (known : t.module.lazyRule? rule.name = some rule) {entry : LazyEntry}
    (found : cache.lookup? rule.name argument = some entry) :
    Served setting t [⟨rule.name, argument, some (Engine.answer rule entry.outputs), around, []⟩]
      cache cache.hit where
  table := ⟨[], (List.append_nil _).symm, .nil⟩
  distinct := id
  hits := rfl
  begun q member begins := by
    obtain rfl := List.mem_singleton.1 member
    cases begins
  answered q member _ := by
    obtain rfl := List.mem_singleton.1 member
    exact ⟨rule, entry.outputs, known, LazyCache.mem_table_of_lookup? found, rfl⟩
  origin front q back split _ := by
    obtain ⟨-, rfl⟩ := split_singleton split
    exact .inl (LazyCache.mem_pairs_of_mem (LazyCache.mem_table_of_lookup? found))
  vain front q back split fails _ := by
    obtain ⟨-, rfl⟩ := split_singleton split
    cases fails

theorem unmade (missing : cache.lookup? rule.name argument = .none) :
    Served setting t [⟨rule.name, argument, .none, around, []⟩] cache cache.miss where
  table := ⟨[], (List.append_nil _).symm, .nil⟩
  distinct := id
  hits := rfl
  begun q member begins := by
    obtain rfl := List.mem_singleton.1 member
    cases begins
  answered q member returns := by
    obtain rfl := List.mem_singleton.1 member
    cases returns
  origin front q back split returns := by
    obtain ⟨-, rfl⟩ := split_singleton split
    cases returns
  vain front q back split _ _ := by
    obtain ⟨rfl, rfl⟩ := split_singleton split
    exact ⟨LazyCache.not_mem_pairs_of_lookup? missing, by simp⟩

/-- Outputs are made for a request and filled in, up to the end or not. -/
theorem beginning {outputs : Outputs} {inner : List Event} {result : Option Value}
    (known : t.module.lazyRule? rule.name = some rule)
    (missing : cache.lookup? rule.name argument = .none)
    (filling : Served setting t (requestsAmong ((rule.name, argument.key) :: around) inner)
      (cache.miss.start rule.name argument outputs) between)
    (same : after.table = between.table) (hits : after.hits = between.hits)
    (filled : ∀ v, result = some v →
      v = Engine.answer rule outputs ∧ rule.FilledBy setting argument outputs inner) :
    Served setting t
      (requestsAmong ((rule.name, argument.key) :: around) inner ++ [⟨rule.name, argument, result,
        around, [.application rule.name rule.outputs [] outputs inner]⟩]) cache after := by
  have start : (cache.miss.start rule.name argument outputs).table =
      cache.table ++ [((rule.name, argument.key), outputs)] := LazyCache.table_start
  have pairs : (cache.miss.start rule.name argument outputs).pairs =
      cache.pairs ++ [(rule.name, argument.key)] := LazyCache.pairs_start
  have fresh : (rule.name, argument.key) ∉ cache.pairs := LazyCache.not_mem_pairs_of_lookup? missing
  have kept : between.table ⊆ after.table := fun item member => by rwa [same]
  have own : ((rule.name, argument.key), outputs) ∈ after.table := by
    rw [same]
    exact filling.subset (by simp [start])
  exact {
    table := by
      obtain ⟨added, more, begun⟩ := filling.table
      refine ⟨((rule.name, argument.key), outputs) :: added, ?_, ?_⟩
      · rw [same, more, start, List.append_assoc]
        rfl
      · have last := (begun.cons (rule.name, argument.key)).trans (List.perm_append_singleton _ _).symm
        simpa [Request.begins, Request.pair] using last
    distinct := by
      intro unique
      have before := unique.concat fresh
      rw [List.concat_eq_append, ← pairs] at before
      rw [LazyCache.pairs, same]
      exact filling.distinct before
    hits := by
      rw [hits, filling.hits]
      simp [Request.begins, LazyCache.start, LazyCache.miss]
    begun := by
      intro q member begins
      rcases List.mem_append.1 member with nested | last
      · exact (filling.begun q nested begins).mono kept
      · obtain rfl := List.mem_singleton.1 last
        exact ⟨rule, outputs, inner, known, rfl, own, filled⟩
    answered := by
      intro q member returns
      rcases List.mem_append.1 member with nested | last
      · exact (filling.answered q nested returns).mono kept
      · obtain rfl := List.mem_singleton.1 last
        obtain ⟨v, result⟩ := Option.isSome_iff_exists.1 returns
        obtain ⟨rfl, -⟩ := filled v result
        exact ⟨rule, outputs, known, own, result⟩
    origin := by
      intro front q back split returns
      rcases split_append split with ⟨more, nested⟩ | ⟨more, rfl, last⟩
      · rcases filling.origin front q more nested returns with before | midst | began
        · rw [pairs, List.mem_append, List.mem_singleton] at before
          -- A request for the pair itself can only come from the midst of its own filling.
          refine before.imp_right fun here => .inl ?_
          have outer := around_suffix_among (q := q) (by rw [nested]; simp)
          rw [here]
          exact outer.subset List.mem_cons_self
        · exact .inr (.inl midst)
        · exact .inr (.inr began)
      · obtain ⟨-, rfl⟩ := split_singleton last
        exact .inr (.inr ⟨_, by simp, rfl, rfl⟩)
    vain := by
      intro front q back split fails idle
      rcases split_append split with ⟨more, nested⟩ | ⟨more, rfl, last⟩
      · obtain ⟨unknown, none⟩ := filling.vain front q more nested fails idle
        rw [pairs, List.mem_append, not_or] at unknown
        exact ⟨unknown.1, none⟩
      · obtain ⟨-, rfl⟩ := split_singleton last
        cases idle }

section
variable {cache : LazyCache}

/-- A memory that was empty has the pairs of the requests for which outputs were made. -/
theorem pairs_perm (served : Served setting t asked {} cache) :
    cache.pairs.Perm ((asked.filter (·.begins)).map (·.pair)) := by
  obtain ⟨added, table, begun⟩ := served.table
  have only : cache.table = added := table
  rw [LazyCache.pairs, only]
  exact begun

theorem pairs_nodup (served : Served setting t asked {} cache) : cache.pairs.Nodup :=
  served.distinct List.nodup_nil

theorem mem_pairs_iff (served : Served setting t asked {} cache) {pair : String × Key} :
    pair ∈ cache.pairs ↔ ∃ r ∈ asked, r.begins = true ∧ r.pair = pair := by
  rw [served.pairs_perm.mem_iff]
  simp [and_assoc]

end

end Served

namespace Engine
variable {setting : Setting} {t : Transformation} {s u : Engine} {done : List Event}

theorem Trail.served (trail : Trail setting t done s u) (around : List (String × Key)) :
    Served setting t (requestsAmong around done) s.cache u.cache := by
  induction trail generalizing around with
  | idle idle =>
    rw [idle.cache]
    exact .none _
  | trans _ _ first rest =>
    rw [requestsAmong_append]
    exact (first around).trans (rest around)
  | counted _ | write _ _ _ | deferring _ | replayed => exact .none _
  | made makes =>
    rw [makes.others.cache]
    exact .none _
  | assignment _ _ _ inner | application _ inner | called _ inner =>
    rw [requestsAmong_singleton]
    exact inner around
  | hit known found =>
    rw [requestsAmong_singleton]
    exact .hit known found
  | unmade _ missing makes =>
    rw [requestsAmong_singleton, telling_cache, makes.cache_of_asking]
    exact .unmade missing
  | @broken s u w rule argument outputs link trace inner known missing makes _ _ _ filling =>
    have nested := filling ((rule.name, argument.key) :: around)
    rw [starting_cache, makes.cache_of_asking] at nested
    rw [requestsAmong_singleton, Event.requests, requestsAmong_singleton]
    exact .beginning known missing nested rfl rfl (by simp)
  | @filled s u w rule argument outputs link trace inner known missing makes _ _ _ ordered stored
      filling =>
    have nested := filling ((rule.name, argument.key) :: around)
    rw [starting_cache, makes.cache_of_asking] at nested
    rw [requestsAmong_singleton, Event.requests, requestsAmong_singleton]
    refine .beginning known missing nested LazyCache.table_finish rfl fun v result => ?_
    exact ⟨(Option.some.inj result).symm, ordered, stored⟩

theorem Career.served (career : Career setting t done s u) :
    Served setting t (requests done) s.cache u.cache := by
  induction career with
  | trail trail => exact trail.served []
  | trans _ _ first rest =>
    rw [requests, requestsAmong_append]
    exact first.trans rest
  | advanced | planned _ => exact .none _
  | @matched s u _ _ _ _ _ makes _ _ =>
    have cache : u.cache = s.cache := makes.others.cache
    change Served setting t _ s.cache u.cache
    rw [cache]
    exact .none _

theorem applied_starting {u w : Engine} {rule : String} {argument : Value} {outputs : Outputs}
    {trace : Trace} (makes : Makes t (asking s) u)
    (filling : w.lazyApplied + (starting rule argument outputs trace u).cache.table.length =
      (starting rule argument outputs trace u).lazyApplied + w.cache.table.length) :
    w.lazyApplied + s.cache.table.length = s.lazyApplied + w.cache.table.length := by
  have longer : (s.cache.miss.start rule argument outputs).table.length =
      s.cache.table.length + 1 := by
    rw [LazyCache.table_start, List.length_append]
    rfl
  rw [starting_cache, starting_lazyApplied, makes.cache_of_asking, makes.lazyApplied_of_asking,
    longer] at filling
  omega

/-- An application of a lazy rule is counted when it is remembered. -/
theorem Trail.applied (trail : Trail setting t done s u) :
    u.lazyApplied + s.cache.table.length = s.lazyApplied + u.cache.table.length := by
  induction trail with
  | idle idle => rw [idle.lazyApplied, idle.cache]
  | trans _ _ first rest => omega
  | counted _ | write _ _ _ | deferring _ | replayed | hit _ _ => rfl
  | made makes => rw [makes.others.lazyApplied, makes.others.cache]
  | assignment _ _ _ inner | application _ inner | called _ inner => exact inner
  | unmade _ _ makes =>
    rw [telling_cache, telling_lazyApplied, makes.cache_of_asking, makes.lazyApplied_of_asking]
    rfl
  | broken _ _ makes _ _ _ filling => exact applied_starting makes filling
  | filled _ _ makes _ _ _ _ _ filling =>
    rw [telling_cache, LazyCache.table_finish]
    exact applied_starting makes filling

theorem Career.applied (career : Career setting t done s u) :
    u.lazyApplied + s.cache.table.length = s.lazyApplied + u.cache.table.length := by
  induction career with
  | trail trail => exact trail.applied
  | trans _ _ first rest => omega
  | advanced | planned _ => rfl
  | @matched s u _ _ _ _ _ makes _ _ =>
    change u.lazyApplied + _ = _ + u.cache.table.length
    rw [makes.others.lazyApplied, makes.others.cache]

end Engine

end Metamorph
