import Mathlib.Data.List.Dedup
import Metamorph.Proofs.Reach
import Metamorph.Proofs.Requests

/-! Lazy rules and their memory. Requests are answered with one object exactly if they are for one
rule and equal arguments; what is remembered for others is made of other objects. -/
namespace Metamorph

namespace LazyCache

/-- All the outputs that are remembered. -/
def outputs (cache : LazyCache) : List Outputs := cache.table.map (·.2)

theorem outputs_start {cache : LazyCache} {rule : String} {source : Value} {outputs : Outputs} :
    (cache.start rule source outputs).outputs = cache.outputs ++ [outputs] := by
  simp [LazyCache.outputs, table_start]

end LazyCache

namespace Engine

/-- What is remembered has an object for every output of its rule, and none of them twice. -/
structure Remembered (t : Transformation) (s : Engine) : Prop where
  named : ∀ item ∈ s.cache.table, ∃ rule, t.module.lazyRule? item.1.1 = some rule ∧
    item.2.names = rule.outputs.map (·.name)
  objects : ∀ output ∈ s.cache.outputs.flatten, ∃ h, output.2 = .object h ∧
    h < s.store.entities.size
  distinct : (s.cache.outputs.flatten.map (·.2)).Nodup

namespace Remembered
variable {setting : Setting} {t : Transformation} {s u : Engine}

theorem fresh {store : Store} {log : List LogRecord} : Remembered t { store, log } where
  named := by simp [LazyCache.table]
  objects := by simp [LazyCache.outputs, LazyCache.table]
  distinct := .nil

theorem grow (remembered : Remembered t s) (table : u.cache.table = s.cache.table)
    (size : s.store.entities.size ≤ u.store.entities.size) : Remembered t u where
  named := table ▸ remembered.named
  objects output member := by
    rw [LazyCache.outputs, table] at member
    obtain ⟨h, object, inside⟩ := remembered.objects output member
    exact ⟨h, object, Nat.lt_of_lt_of_le inside size⟩
  distinct := by
    rw [LazyCache.outputs, table]
    exact remembered.distinct

/-- Outputs that were just made are remembered besides. -/
theorem start {rule : LazyRule} {argument : Value} {outputs : Outputs} {trace : Trace}
    (remembered : Remembered t s) (known : t.module.lazyRule? rule.name = some rule)
    (makes : Makes t (asking s) u) (fresh : Fresh rule.outputs outputs s.store u) :
    Remembered t (starting rule.name argument outputs trace u) := by
  have table : (starting rule.name argument outputs trace u).cache.table =
      s.cache.table ++ [((rule.name, argument.key), outputs)] := by
    rw [starting_cache, makes.cache_of_asking, LazyCache.table_start]
    rfl
  have flat : (starting rule.name argument outputs trace u).cache.outputs.flatten =
      s.cache.outputs.flatten ++ outputs := by
    rw [starting_cache, makes.cache_of_asking, LazyCache.outputs_start, List.flatten_append,
      List.flatten_singleton]
    rfl
  exact {
    named := by
      intro item member
      rw [table, List.mem_append, List.mem_singleton] at member
      rcases member with old | rfl
      · exact remembered.named item old
      · exact ⟨rule, known, fresh.names⟩
    objects := by
      intro output member
      rw [flat, List.mem_append] at member
      rcases member with old | new
      · obtain ⟨h, object, inside⟩ := remembered.objects output old
        have size : s.store.entities.size ≤ u.store.entities.size := makes.growth.size
        exact ⟨h, object, Nat.lt_of_lt_of_le inside size⟩
      · obtain ⟨h, cls, object, -, -, found⟩ := fresh.made output new
        exact ⟨h, object, (Array.getElem?_eq_some_iff.1 found).1⟩
    distinct := by
      rw [flat]
      exact fresh.distinct_append remembered.distinct remembered.objects }

/-- The answer with what is remembered is one of its objects. -/
theorem answer_mem (remembered : Remembered t s) {pair : String × Key} {outputs : Outputs}
    {rule : LazyRule} (listed : (pair, outputs) ∈ s.cache.table)
    (known : t.module.lazyRule? pair.1 = some rule) :
    answer rule outputs ∈ outputs.map (·.2) ∧ ∃ h, answer rule outputs = .object h := by
  obtain ⟨other, same, names⟩ := remembered.named _ listed
  obtain rfl := Option.some.inj (same.symm.trans known)
  have declared : other.mainOutput ∈ other.outputs := List.head_mem _
  have named : other.mainOutput.name ∈ outputs.names := names ▸ List.mem_map_of_mem declared
  obtain ⟨v, found⟩ := Named.get?_of_mem_names named
  have member := Named.mem_of_get? found
  have answered : answer other outputs = v := by rw [answer, found]; rfl
  rw [answered]
  have flat : (other.mainOutput.name, v) ∈ s.cache.outputs.flatten :=
    List.mem_flatten.2 ⟨outputs, List.mem_map_of_mem listed, member⟩
  obtain ⟨h, object, -⟩ := remembered.objects _ flat
  exact ⟨List.mem_map_of_mem member, h, object⟩

end Remembered

variable {setting : Setting} {t : Transformation} {s u : Engine} {done : List Event}

theorem Trail.remembered (trail : Trail setting t done s u) (remembered : Remembered t s) :
    Remembered t u := by
  induction trail with
  | idle idle =>
    exact remembered.grow (by rw [idle.cache]) (Nat.le_of_eq (by rw [idle.store]))
  | trans _ _ first rest => exact rest (first remembered)
  | counted _ | deferring _ | replayed | hit _ _ => exact remembered.grow rfl (Nat.le_refl _)
  | made makes => exact remembered.grow (by rw [makes.others.cache]) makes.growth.size
  | write _ _ accepted =>
    exact remembered.grow rfl (Nat.le_of_eq (Store.size_set accepted).symm)
  | assignment _ _ _ inner | application _ inner | called _ inner =>
    exact (inner (remembered.grow rfl (Nat.le_refl _))).grow rfl (Nat.le_refl _)
  | unmade _ _ makes =>
    refine remembered.grow ?_ makes.growth.size
    rw [telling_cache, makes.cache_of_asking]
    rfl
  | broken known _ makes fresh _ _ filling =>
    exact (filling (remembered.start known makes fresh)).grow rfl (Nat.le_refl _)
  | filled known _ makes fresh _ _ _ _ filling =>
    exact (filling (remembered.start known makes fresh)).grow LazyCache.table_finish (Nat.le_refl _)

theorem Career.remembered (career : Career setting t done s u) (remembered : Remembered t s) :
    Remembered t u := by
  induction career with
  | trail trail => exact trail.remembered remembered
  | trans _ _ first rest => exact rest (first remembered)
  | advanced | planned _ => exact remembered.grow rfl (Nat.le_refl _)
  | @matched s u _ _ _ _ _ makes _ _ =>
    refine remembered.grow ?_ makes.growth.size
    change u.cache.table = _
    rw [makes.others.cache]

end Engine

/-- In a successful run every request is answered. -/
theorem Course.returns {setting : Setting} {s u : Engine} {done : List Event}
    (course : Course setting done s u) (around : List (String × Key)) :
    ∀ q ∈ requestsAmong around done, q.returns = true := by
  induction course generalizing around with
  | quiet _ | aside | create _ | link _ | replayed _ => simp [requestsAmong, Event.requests]
  | trans _ _ first rest =>
    rw [requestsAmong_append]
    intro q member
    exact (List.mem_append.1 member).elim (first around q) (rest around q)
  | binding _ _ _ _ inner | statement _ _ _ inner | application _ _ inner | called _ _ inner =>
    rw [requestsAmong_singleton]
    exact inner around
  | hit _ => simp [requestsAmong, Event.requests, Request.returns]
  | @miss _ _ _ rule argument _ _ _ _ _ _ _ _ _ _ inner =>
    rw [requestsAmong_singleton]
    intro q member
    rcases List.mem_append.1 member with nested | own
    · exact inner _ q nested
    · obtain rfl := List.mem_singleton.1 own
      rfl

theorem Redoing.returns {setting : Setting} {s u : Engine} {position : Nat} {done : List Event}
    (walk : Redoing setting position done s u) (around : List (String × Key)) :
    ∀ q ∈ requestsAmong around done, q.returns = true := by
  induction walk with
  | finished _ => simp
  | next _ _ evaluated _ _ rest =>
    intro q member
    exact (List.mem_append.1 member).elim (evaluated.returns around q) (rest q)

section
variable {setting : Setting} {t : Transformation} {store : Store} {log : List LogRecord}
  {s u : Engine}

theorem Completes.returns (completes : Completes setting t store log s) :
    ∀ q ∈ requests s.history, q.returns = true := by
  obtain ⟨before, walk, a, b, history, course, redoing, -, -⟩ := completes.course
  rw [history, requests, requestsAmong_append]
  intro q member
  exact (List.mem_append.1 member).elim (course.returns [] q) (redoing.returns [] q)

/-- Answers are one object for requests with one pair, and another for every other pair. -/
theorem Served.same_result_iff {asked : List Request} (served : Served setting t asked {} u.cache)
    (remembered : Engine.Remembered t u) {q r : Request} (member : q ∈ asked) (present : r ∈ asked)
    (returns : q.returns = true) (replies : r.returns = true) :
    q.result = r.result ↔ q.pair = r.pair := by
  obtain ⟨rule, outputs, known, listed, result⟩ := served.answered q member returns
  obtain ⟨other, others, found, registered, reply⟩ := served.answered r present replies
  constructor
  · intro same
    rw [result, reply, Option.some.injEq] at same
    obtain ⟨here, -⟩ := remembered.answer_mem listed known
    obtain ⟨there, -⟩ := remembered.answer_mem registered found
    rw [same] at here
    -- One object is remembered at one place only, so the two answers come from one entry.
    have distinct := remembered.distinct
    rw [List.map_flatten] at distinct
    obtain ⟨i, first⟩ := List.mem_iff_getElem?.1 listed
    obtain ⟨j, second⟩ := List.mem_iff_getElem?.1 registered
    have place : i = j := by
      refine place_unique_of_nodup distinct ?_ ?_ here there
      · simp [LazyCache.outputs, first]
      · simp [LazyCache.outputs, second]
    subst place
    exact congrArg Prod.fst (Option.some.inj (first.symm.trans second))
  · intro same
    have entry := List.inj_on_of_nodup_map served.pairs_nodup listed registered same
    obtain rfl : outputs = others := congrArg Prod.snd entry
    have rules : q.rule = r.rule := congrArg Prod.fst same
    obtain rfl := Option.some.inj (known.symm.trans (rules ▸ found))
    rw [result, reply]

/-- What is known of the requests and the memory wherever the pipeline is found. -/
theorem Engine.Reaches.served (given : setting.transformation = some t)
    (reaches : Engine.Reaches setting t store log u) :
    Served setting t (requests u.history) {} u.cache ∧ Remembered t u ∧
      u.lazyApplied = u.cache.pairs.length := by
  obtain ⟨⟨done, career⟩, -⟩ := reaches.career given
  obtain rfl : u.history = done := career.history
  have applied := career.applied
  refine ⟨career.served, career.remembered .fresh, ?_⟩
  rw [LazyCache.pairs, List.length_map]
  simpa [LazyCache.table] using applied

/-- If every request was answered, each was a hit or made outputs, and as many made some as there are
pairs. -/
theorem Served.counted {asked : List Request} {cache : LazyCache}
    (served : Served setting t asked {} cache) (all : ∀ q ∈ asked, q.returns = true) :
    cache.pairs.length = (asked.map (·.pair)).dedup.length ∧
      cache.hits + cache.pairs.length = asked.length := by
  constructor
  · have same : cache.pairs.Perm (asked.map (·.pair)).dedup := by
      refine (List.perm_ext_iff_of_nodup served.pairs_nodup (List.nodup_dedup _)).2 fun pair => ?_
      rw [List.mem_dedup, List.mem_map]
      constructor
      · intro known
        obtain ⟨r, member, -, same⟩ := served.mem_pairs_iff.1 known
        exact ⟨r, member, same⟩
      · rintro ⟨q, member, rfl⟩
        obtain ⟨rule, outputs, -, listed, -⟩ := served.answered q member (all q member)
        exact LazyCache.mem_pairs_of_mem listed
    exact same.length_eq
  · have hits : cache.hits = (asked.filter fun q => !q.begins).length := by
      rw [served.hits]
      refine (Nat.zero_add _).trans (congrArg _ (List.filter_congr fun q member => ?_))
      rw [all q member, Bool.true_and]
    have length := served.pairs_perm.length_eq
    rw [List.length_map] at length
    rw [hits, length, Nat.add_comm]
    exact (List.length_eq_length_filter_add Request.begins).symm

/-- Two requests are answered with one object exactly if they are for one rule and equal arguments.
Outputs are made and begun to be filled in once for each such pair, and once they are made nobody
tries to make them again. In a successful run as many applications are counted as there are pairs,
and every other request is a hit. -/
theorem lazy_rules_memoized (given : setting.transformation = some t)
    (reaches : Engine.Reaches setting t store log u) :
    (∀ q ∈ requests u.history, ∀ r ∈ requests u.history, q.returns = true → r.returns = true →
        (q.result = r.result ↔ q.rule = r.rule ∧ q.argument.same r.argument = true)) ∧
      (∀ q ∈ requests u.history, q.returns = true → (∃ h, q.result = some (.object h)) ∧
        ∃ r ∈ requests u.history, r.begins = true ∧ r.pair = q.pair) ∧
      (((requests u.history).filter (·.begins)).map (·.pair)).Nodup ∧
      (∀ q ∈ requests u.history, q.begins = true → q.Begun setting t u.cache) ∧
      (∀ front q back, requests u.history = front ++ q :: back → q.returns = false →
        q.begins = false → ∀ r ∈ front, r.begins = true → r.pair ≠ q.pair) ∧
      (Completes setting t store log u → (∀ q ∈ requests u.history, q.returns = true) ∧
        u.lazyApplied = ((requests u.history).map (·.pair)).dedup.length ∧
        u.cache.hits + u.lazyApplied = (requests u.history).length) := by
  obtain ⟨served, remembered, applied⟩ := reaches.served given
  refine ⟨?_, ?_, ?_, served.begun, ?_, ?_⟩
  · intro q member r present returns replies
    rw [← Request.pair_eq_iff]
    exact served.same_result_iff remembered member present returns replies
  · intro q member returns
    obtain ⟨rule, outputs, known, listed, result⟩ := served.answered q member returns
    obtain ⟨-, h, object⟩ := remembered.answer_mem listed known
    have begun := served.mem_pairs_iff.1 (LazyCache.mem_pairs_of_mem listed)
    exact ⟨⟨h, by rw [result, object]⟩, begun⟩
  · exact served.pairs_perm.nodup_iff.1 served.pairs_nodup
  · intro front q back split fails idle
    exact (served.vain front q back split fails idle).2
  · intro completes
    have all := completes.returns
    obtain ⟨distinct, total⟩ := served.counted all
    exact ⟨all, applied.trans distinct, by rw [applied]; exact total⟩

/-- The lazy rule asks for its own result while it is filled in. -/
theorem lazy_rules_memoized_direct :
    ∃ u, Engine.Reaches (Looping.settingOf Looping.direct) Looping.direct Looping.objects [] u ∧
      (∃ q ∈ requests u.history, ∃ r ∈ requests u.history, q.begins = true ∧ q.pair ∈ r.around ∧
        q.result = r.result) ∧
      u.cache.hits + u.lazyApplied = (requests u.history).length := by
  obtain ⟨u, completes, tested⟩ := Looping.completes_of_passes Looping.direct
    (fun u => (requests u.history).any fun q => (requests u.history).any fun r =>
      q.begins && q.returns && r.returns && q.rule == r.rule && q.argument.same r.argument &&
        decide (q.pair ∈ r.around)) (by decide +kernel)
  simp only [List.any_eq_true, Bool.and_eq_true, beq_iff_eq, decide_eq_true_eq] at tested
  obtain ⟨q, member, r, present, ⟨⟨⟨⟨begins, returns⟩, replies⟩, ruled⟩, same⟩, midst⟩ := tested
  obtain ⟨one, -, -, -, -, counted⟩ := lazy_rules_memoized rfl completes.reaches
  have answered := (one q member r present returns replies).2 ⟨ruled, same⟩
  exact ⟨u, completes.reaches, ⟨q, member, r, present, begins, midst, answered⟩,
    (counted completes).2.2⟩

end

end Metamorph
