import Metamorph.Proofs.RoundTrip
import Metamorph.Proofs.TypeTests

/-! Dispatch by the class of the receiver. Among the helpers of a name the first one at the least distance is
chosen, and helpers for classes that the receiver does not belong to make no difference. A feature that the
class has is read whatever helpers there are. -/
namespace Metamorph

namespace Metaclass
variable {c d : Metaclass} {n k : Nat} {level : List Metaclass} {seen : Std.TreeSet String} {name : String}

/-- Climbing finds nothing but what some class of the level inherits from. -/
theorem inherits_of_mem_climb (found : (name, k) ∈ climb n level seen) :
    ∃ b ∈ level, ∃ d, b.Inherits d ∧ d.name = name := by
  fun_induction climb n level seen with
  | case1 => cases found
  | case2 n seen b rest next ih =>
    rcases List.mem_append.1 found with here | above
    · obtain ⟨d, member, same⟩ := List.mem_map.1 here
      cases same
      exact ⟨d, member, d, .refl d, rfl⟩
    · obtain ⟨d, new, e, inherits, named⟩ := ih above
      obtain ⟨a, member, step⟩ := List.mem_flatMap.1 (mem_of_mem_newcomers new).1
      exact ⟨a, member, e, inherits_iff.2 (.inr ⟨d, step, inherits⟩), named⟩

theorem inherits_of_get?_ancestry (found : c.ancestry.get? name = some n) :
    ∃ d, c.Inherits d ∧ d.name = name := by
  obtain ⟨b, member, inherits⟩ := inherits_of_mem_climb (Named.mem_of_get? found)
  obtain rfl := List.mem_singleton.1 member
  exact inherits

end Metaclass

namespace HelperTable
variable {ancestry : Named Nat} {helpers more seen rest : List Helper} {h g : Helper} {d n : Nat}
  {best : Option (Helper × Nat)} {table next : HelperTable} {natives : Named Native} {name : String}

/-! The choice. -/

/-- The helper is at the distance, those before it are farther and those after it no nearer. -/
structure First (ancestry : Named Nat) (helpers : List Helper) (h : Helper) (d : Nat) : Prop where
  distance : distance? ancestry h = some d
  split : ∃ before after, helpers = before ++ h :: after ∧
    (∀ g ∈ before, ∀ n, distance? ancestry g = some n → d < n) ∧
    ∀ g ∈ after, ∀ n, distance? ancestry g = some n → d ≤ n

theorem First.least (first : First ancestry helpers h d) (member : g ∈ helpers)
    (distance : distance? ancestry g = some n) : d ≤ n := by
  obtain ⟨before, after, rfl, farther, notNearer⟩ := first.split
  rcases List.mem_append.1 member with early | late
  · exact Nat.le_of_lt (farther g early n distance)
  · rcases List.mem_cons.1 late with rfl | late
    · exact Nat.le_of_eq (Option.some.inj (first.distance.symm.trans distance))
    · exact notNearer g late n distance

/-- The best so far: the first at the least distance, if any of those seen has a distance. -/
def Leads (ancestry : Named Nat) (seen : List Helper) : Option (Helper × Nat) → Prop
  | none => ∀ g ∈ seen, distance? ancestry g = none
  | some (h, d) => First ancestry seen h d

theorem Leads.keep (leads : Leads ancestry seen best)
    (notNearer : ∀ n, distance? ancestry g = some n → best.all (n < ·.2) = false) :
    Leads ancestry (seen ++ [g]) best := by
  cases best with
  | none =>
    intro f member
    rcases List.mem_append.1 member with early | last
    · exact leads f early
    · obtain rfl := List.mem_singleton.1 last
      exact Option.eq_none_iff_forall_ne_some.2 fun n distance => by cases notNearer n distance
  | some entry =>
    obtain ⟨before, after, rfl, farther, others⟩ := leads.split
    refine ⟨leads.distance, before, after ++ [g], by simp, farther, ?_⟩
    intro f member n distance
    rcases List.mem_append.1 member with early | last
    · exact others f early n distance
    · obtain rfl := List.mem_singleton.1 last
      simpa using notNearer n distance

theorem Leads.replace (leads : Leads ancestry seen best) (distance : distance? ancestry g = some d)
    (nearer : best.all (d < ·.2) = true) : Leads ancestry (seen ++ [g]) (some (g, d)) := by
  refine ⟨distance, seen, [], rfl, ?_, nofun⟩
  intro f member n other
  cases best with
  | none => cases (leads f member).symm.trans other
  | some entry => exact Nat.lt_of_lt_of_le (by simpa using nearer) (First.least leads member other)

/-- The search carries the best of what it has seen to the end. -/
theorem Leads.nearest (leads : Leads ancestry seen best) (rest : List Helper) :
    ∃ found, nearest ancestry best rest = found.map (·.1) ∧ Leads ancestry (seen ++ rest) found := by
  induction rest generalizing seen best with
  | nil => exact ⟨best, rfl, by rwa [List.append_nil]⟩
  | cons g rest ih =>
    rw [List.append_cons]
    unfold HelperTable.nearest
    split
    · rename_i apart
      exact ih (leads.keep fun n distance => by cases apart.symm.trans distance)
    · rename_i d distance
      split
      · rename_i nearer
        exact ih (leads.replace distance nearer)
      · rename_i notNearer
        refine ih (leads.keep fun n other => ?_)
        obtain rfl := Option.some.inj (distance.symm.trans other)
        exact Bool.eq_false_iff.2 notNearer

theorem First.mem (first : First ancestry helpers h d) : h ∈ helpers := by
  obtain ⟨before, after, rfl, -, -⟩ := first.split
  exact List.mem_append_right before List.mem_cons_self

theorem First.find? (first : First ancestry helpers h d) :
    helpers.find? (fun g => distance? ancestry g = some d) = some h := by
  obtain ⟨before, after, rfl, farther, -⟩ := first.split
  have passed : before.find? (fun g => distance? ancestry g = some d) = none := by
    refine List.find?_eq_none.2 fun g member same => ?_
    exact Nat.lt_irrefl d (farther g member d (of_decide_eq_true same))
  rw [List.find?_append, passed, Option.none_or]
  exact List.find?_cons_of_pos (decide_eq_true first.distance)

theorem First.unique (first : First ancestry helpers h d) (other : First ancestry helpers g n) :
    h = g := by
  obtain rfl : d = n :=
    Nat.le_antisymm (first.least other.mem other.distance) (other.least first.mem first.distance)
  exact Option.some.inj (first.find?.symm.trans other.find?)

theorem nearest_eq_some_iff :
    nearest ancestry none helpers = some h ↔ ∃ d, First ancestry helpers h d := by
  have start : Leads ancestry [] none := nofun
  obtain ⟨found, is, leads⟩ := start.nearest helpers
  rw [is, Option.map_eq_some_iff]
  constructor
  · rintro ⟨⟨g, d⟩, rfl, rfl⟩
    exact ⟨d, leads⟩
  · rintro ⟨d, first⟩
    cases found with
    | none => cases (leads h first.mem).symm.trans first.distance
    | some entry => exact ⟨entry, rfl, First.unique leads first⟩

theorem nearest_eq_none_iff :
    nearest ancestry none helpers = none ↔ ∀ g ∈ helpers, distance? ancestry g = none := by
  have start : Leads ancestry [] none := nofun
  obtain ⟨found, is, leads⟩ := start.nearest helpers
  rw [is, Option.map_eq_none_iff]
  constructor
  · rintro rfl
    exact leads
  · intro none
    cases found with
    | none => rfl
    | some entry => cases (none entry.1 (First.mem leads)).symm.trans (First.distance leads)

/-! The table. -/

/-- The helpers of the name that are declared for a context. -/
def declared (helpers : List Helper) (name : String) : List Helper :=
  helpers.filter fun h => h.context.isSome && h.name == name

theorem contextual_add (added : table.add h = .ok next) (name : String) :
    (next.contextual.get? name).getD [] =
      (table.contextual.get? name).getD [] ++ declared [h] name := by
  unfold add at added
  split at added
  · rename_i free
    split at added
    · cases added
    · obtain rfl := Except.ok.inj added
      simp [declared, free]
  · rename_i type given
    obtain rfl := Except.ok.inj added
    rw [Named.get?_set]
    by_cases same : name = h.name
    · subst same
      simp [declared, given]
    · simp [declared, same, Ne.symm same]

theorem contextual_build (built : helpers.foldlM add table = .ok next) (name : String) :
    (next.contextual.get? name).getD [] =
      (table.contextual.get? name).getD [] ++ declared helpers name := by
  induction helpers generalizing table with
  | nil =>
    obtain rfl := Except.ok.inj built
    simp [declared]
  | cons h rest ih =>
    rw [List.foldlM_cons] at built
    cases added : table.add h with
    | error fault => simp [added, bind, Except.bind] at built
    | ok middle =>
      rw [added] at built
      rw [ih built, contextual_add added, List.append_assoc, declared, declared, declared,
        ← List.filter_append]
      rfl

/-- The helpers among which a look-up chooses. -/
def candidates (helpers : List Helper) (name : String) (isAttribute : Option Bool) : List Helper :=
  (declared helpers name).filter fun h => isAttribute.all (h.isAttribute == ·)

theorem lookup_build (built : build helpers natives = .ok table) (name : String) (ancestry : Named Nat)
    (isAttribute : Option Bool) :
    table.lookup name ancestry isAttribute =
      nearest ancestry none (candidates helpers name isAttribute) := by
  unfold lookup
  rw [contextual_build built]
  rfl

/-! More helpers. -/

/-- The helper is for a class that is neither this one nor one that it inherits from. -/
def Foreign (cls : Metaclass) (h : Helper) : Prop :=
  ∃ type, h.context = some type ∧ ∀ d, cls.Inherits d → d.name ≠ className type

theorem distance?_of_foreign {cls : Metaclass} (foreign : Foreign cls h) :
    distance? cls.ancestry h = none := by
  obtain ⟨type, given, apart⟩ := foreign
  refine Option.eq_none_iff_forall_ne_some.2 fun n found => ?_
  rw [distance?, given] at found
  obtain ⟨d, inherits, named⟩ := Metaclass.inherits_of_get?_ancestry found
  exact apart d inherits named

/-- Helpers that are foreign to the class were added, anywhere among the others. -/
inductive Padded (cls : Metaclass) : List Helper → List Helper → Prop
  | nil : Padded cls [] []
  | keep {helpers more : List Helper} (h : Helper) (rest : Padded cls helpers more) :
      Padded cls (h :: helpers) (h :: more)
  | add {helpers more : List Helper} {h : Helper} (foreign : Foreign cls h)
      (rest : Padded cls helpers more) : Padded cls helpers (h :: more)

theorem nearest_append_congr {others front : List Helper}
    (same : ∀ best, nearest ancestry best rest = nearest ancestry best others) :
    nearest ancestry best (front ++ rest) = nearest ancestry best (front ++ others) := by
  induction front generalizing best with
  | nil => exact same best
  | cons h front ih => simp only [List.cons_append, nearest, ih]

theorem nearest_append_of_none {front : List Helper} (apart : ∀ g ∈ front, distance? ancestry g = none) :
    nearest ancestry best (front ++ rest) = nearest ancestry best rest := by
  induction front with
  | nil => rfl
  | cons h front ih =>
    obtain ⟨here, others⟩ := List.forall_mem_cons.1 apart
    simp only [List.cons_append, nearest, here, ih others]

theorem candidates_cons (h : Helper) (helpers : List Helper) (name : String) (isAttribute : Option Bool) :
    candidates (h :: helpers) name isAttribute =
      candidates [h] name isAttribute ++ candidates helpers name isAttribute := by
  simp only [candidates, declared, ← List.filter_append, List.singleton_append]

theorem nearest_padded {cls : Metaclass} (padded : Padded cls helpers more) (name : String)
    (isAttribute : Option Bool) (best : Option (Helper × Nat)) :
    nearest cls.ancestry best (candidates more name isAttribute) =
      nearest cls.ancestry best (candidates helpers name isAttribute) := by
  induction padded generalizing best with
  | nil => rfl
  | @keep helpers more h rest ih =>
    rw [candidates_cons h helpers, candidates_cons h more]
    exact nearest_append_congr ih
  | @add helpers more h foreign rest ih =>
    rw [candidates_cons h more, ← ih]
    refine nearest_append_of_none fun g member => ?_
    obtain rfl := List.mem_singleton.1 (List.mem_of_mem_filter (List.mem_of_mem_filter member))
    exact distance?_of_foreign foreign

/-- Whether a helper can be added depends on those without a context. -/
theorem add_alike {start : HelperTable} (same : start.module = table.module)
    (added : table.add h = .ok next) : ∃ last, start.add h = .ok last ∧ last.module = next.module := by
  unfold add at added ⊢
  rw [same]
  split at added
  · split at added
    · cases added
    · rename_i new
      obtain rfl := Except.ok.inj added
      exact ⟨_, if_neg new, rfl⟩
  · obtain rfl := Except.ok.inj added
    exact ⟨_, rfl, rfl⟩

theorem build_padded {cls : Metaclass} {start : HelperTable} (padded : Padded cls helpers more)
    (same : start.module = table.module) (built : helpers.foldlM add table = .ok next) :
    ∃ last, more.foldlM add start = .ok last := by
  induction padded generalizing table start with
  | nil => exact ⟨start, rfl⟩
  | @keep helpers more h rest ih =>
    rw [List.foldlM_cons] at built ⊢
    cases added : table.add h with
    | error fault => simp [added, bind, Except.bind] at built
    | ok middle =>
      obtain ⟨middle', added', same⟩ := add_alike same added
      rw [added] at built
      rw [added']
      exact ih same built
  | @add helpers more h foreign rest ih =>
    obtain ⟨type, given, -⟩ := foreign
    rw [List.foldlM_cons]
    simp only [add, given]
    exact ih same built

theorem lookup_padded {cls : Metaclass} (padded : Padded cls helpers more)
    (built : build helpers natives = .ok table) :
    ∃ wider, build more natives = .ok wider ∧ ∀ name isAttribute,
      wider.lookup name cls.ancestry isAttribute = table.lookup name cls.ancestry isAttribute := by
  obtain ⟨wider, built'⟩ : ∃ wider, build more natives = .ok wider := build_padded padded rfl built
  refine ⟨wider, built', fun name isAttribute => ?_⟩
  rw [lookup_build built', lookup_build built, nearest_padded padded]

end HelperTable

namespace Engine
open Run HelperTable
variable {self other : Evaluator} {setting : Setting} {s : Engine} {o : Handle} {cls : Metaclass}
  {f : String} {helper : Helper}

theorem contextHelper?_instance (known : s.store.class? o = some cls) (name : String)
    (isAttribute : Option Bool) :
    contextHelper? setting (.object o) name isAttribute s =
      .value (setting.helpers.lookup name cls.ancestry isAttribute) s := by
  unfold contextHelper?
  split
  · rw [bind_of_value (ancestry_instance known)]
    rfl
  · rename_i missing
    have free : setting.helpers.contextual.get? name = none := by
      simp only [HelperTable.has, Bool.or_eq_true, Named.has_eq_isSome, not_or] at missing
      exact Option.not_isSome_iff_eq_none.1 missing.1.2
    simp only [lookup, free]
    rfl

theorem hasFeature_instance (full : setting.navigator = .full) (known : s.store.class? o = some cls)
    (f : String) : hasFeature setting (.object o) f s = .value (cls.feature? f).isSome s := by
  obtain ⟨values, held⟩ := Store.class?_eq_some.1 known
  unfold hasFeature
  rw [full]
  refine collaborate_eq_value.2 ⟨?_, rfl⟩
  simp only [Store.hasFeature, held]

/-- A helper is in the place of a feature only where the class has none. -/
theorem navigation_instance (full : setting.navigator = .full) (known : s.store.class? o = some cls) :
    navigation self setting (.object o) f s =
      match setting.helpers.lookup f cls.ancestry (some true) with
      | none => navigate (.object o) f s
      | some helper =>
        if (cls.feature? f).isSome then navigate (.object o) f s
        else invokeHelper self setting helper (.object o) [] s := by
  change (contextHelper? setting (.object o) f (some true) >>= _) s = _
  rw [bind_of_value (contextHelper?_instance known f (some true))]
  cases setting.helpers.lookup f cls.ancestry (some true) with
  | none => rfl
  | some helper =>
    change (hasFeature setting (.object o) f >>= _) s = _
    rw [bind_of_value (hasFeature_instance full known f)]
    cases (cls.feature? f).isSome <;> rfl

theorem navigate_declared (known : s.store.class? o = some cls) (declared : cls.Declares f) :
    ∃ v, s.store.navigate (.object o) f = .ok v ∧
      navigate (.object o) f s = .value v { s with navigations := s.navigations + 1 } := by
  obtain ⟨feature, found⟩ := Option.isSome_iff_exists.1 ((Metaclass.feature?_isSome_iff cls).2 declared)
  obtain ⟨values, held⟩ := Store.class?_eq_some.1 known
  have read : ∃ v, s.store.navigate (.object o) f = .ok v := by
    simp only [Store.navigate, Store.readFeature, held, Store.read, found]
    exact ⟨_, rfl⟩
  obtain ⟨v, read⟩ := read
  exact ⟨v, read, collaborate_eq_value.2 ⟨read, rfl⟩⟩

theorem navigate_undeclared (known : s.store.class? o = some cls) (missing : ¬cls.Declares f) :
    navigate (.object o) f s =
      .failure (.of (.unknownFeature cls.name f)) { s with navigations := s.navigations + 1 } := by
  have found : cls.feature? f = none :=
    Option.not_isSome_iff_eq_none.1 fun some => missing ((Metaclass.feature?_isSome_iff cls).1 some)
  obtain ⟨values, held⟩ := Store.class?_eq_some.1 known
  have refused : s.store.navigate (.object o) f = .error (.of (.unknownFeature cls.name f)) := by
    simp only [Store.navigate, Store.readFeature, held, Store.read, found]
    rfl
  change collaborate f (s.store.navigate (.object o) f) { s with navigations := s.navigations + 1 } = _
  rw [refused]
  rfl

/-- What an attribute sees: the receiver and the module. -/
def attributeEnvironment (setting : Setting) (helper : Helper) (receiver : Value) : Environment :=
  (setting.rootEnvironment []).push ("helper " ++ helper.name) [("self", receiver)]

theorem invokeHelper_attribute (bare : helper.isAttribute = true) (receiver : Value) :
    invokeHelper self setting helper receiver [] s =
      self (attributeEnvironment setting helper receiver) helper.body
        (noteHelper helper.name { s with helperInvocations := s.helperInvocations + 1 }) := by
  have alone : helper.parameters = [] := List.isEmpty_iff.1 bare
  unfold invokeHelper attributeEnvironment helperBindings
  rw [alone]
  rfl

theorem isAttribute_of_lookup {table : HelperTable} {ancestry : Named Nat}
    (chosen : table.lookup f ancestry (some true) = some helper) : helper.isAttribute = true := by
  obtain ⟨d, first⟩ := nearest_eq_some_iff.1 chosen
  simpa using (List.mem_filter.1 first.mem).2

/-- Navigation with other helpers comes to the same if they lead to the same choice, and if what is chosen
comes to the same. -/
theorem navigation_congr {wider : HelperTable} (full : setting.navigator = .full)
    (known : s.store.class? o = some cls)
    (chosen : wider.lookup f cls.ancestry (some true) =
      setting.helpers.lookup f cls.ancestry (some true))
    (bodies : ∀ h, ¬cls.Declares f → setting.helpers.lookup f cls.ancestry (some true) = some h →
      ∀ env, other env h.body = self env h.body) :
    navigation other { setting with helpers := wider } (.object o) f s =
      navigation self setting (.object o) f s := by
  rw [navigation_instance full known, @navigation_instance other { setting with helpers := wider } _ _ _ _
    full known, chosen]
  cases found : setting.helpers.lookup f cls.ancestry (some true) with
  | none => rfl
  | some helper =>
    by_cases declared : cls.Declares f
    · simp only [(Metaclass.feature?_isSome_iff cls).2 declared, if_true]
    · have bare := isAttribute_of_lookup found
      have missing : (cls.feature? f).isSome = false :=
        Bool.eq_false_iff.2 fun some => declared ((Metaclass.feature?_isSome_iff cls).1 some)
      simp only [missing, Bool.false_eq_true, if_false, invokeHelper_attribute bare,
        bodies helper declared found]
      rfl

end Engine

namespace Diamond

def attributeOf (context : String) (n : Int) : Helper :=
  { name := "x", context := some context, body := .literal (.integer n) {} }

/-- The first is declared for a class that is farther away, the others for two at one distance. -/
def helpers : List Helper := [attributeOf "M!Top" 0, attributeOf "Right" 1, attributeOf "Left" 2]

theorem helpers_first :
    HelperTable.First bottom.ancestry (HelperTable.candidates helpers "x" (some true))
      (attributeOf "Right" 1) 1 := by
  have farther : HelperTable.distance? bottom.ancestry (attributeOf "M!Top" 0) = some 2 := by decide +kernel
  have level : HelperTable.distance? bottom.ancestry (attributeOf "Left" 2) = some 1 := by decide +kernel
  refine ⟨by decide +kernel, [attributeOf "M!Top" 0], [attributeOf "Left" 2], rfl, ?_, ?_⟩
  · intro g member n distance
    obtain rfl := List.mem_singleton.1 member
    obtain rfl := Option.some.inj (farther.symm.trans distance)
    decide
  · intro g member n distance
    obtain rfl := List.mem_singleton.1 member
    exact Nat.le_of_eq (Option.some.inj (level.symm.trans distance))

end Diamond

end Metamorph
