import Mathlib.Data.List.Nodup
import Mathlib.Data.Nat.Find
import Metamorph.Proofs.Scope

/-! The ancestry of a class. Climbing from level to level finds every class that the class inherits from, by
whatever ways, at the length of the shortest of them, provided that no two of these classes have one
name. -/
namespace Metamorph

namespace Metaclass

/-- So many steps, each of them to a supertype, lead from the one class up to the other. -/
inductive Path : Metaclass → Nat → Metaclass → Prop
  | here (c) : Path c 0 c
  | up {c d e n} (step : d ∈ c.supertypes) (rest : Path d n e) : Path c (n + 1) e

/-- The other class is the class itself or one that it inherits from. -/
def Inherits (c d : Metaclass) : Prop := ∃ n, Path c n d

/-- The shortest way up to the other class has so many steps. -/
structure Distance (c : Metaclass) (n : Nat) (d : Metaclass) : Prop where
  path : Path c n d
  least : ∀ m, Path c m d → n ≤ m

variable {c d e : Metaclass} {m n : Nat} {classes level : List Metaclass} {seen : Std.TreeSet String}
  {name : String}

theorem path_zero_iff : Path c 0 d ↔ d = c := by
  constructor
  · intro path
    cases path
    rfl
  · rintro rfl
    exact .here d

/-- A way up has a last step, too. -/
theorem path_succ_iff : Path c (n + 1) e ↔ ∃ d, Path c n d ∧ e ∈ d.supertypes := by
  constructor
  · intro path
    induction n generalizing c with
    | zero =>
      cases path with
      | up step rest =>
        obtain rfl := path_zero_iff.1 rest
        exact ⟨c, .here c, step⟩
    | succ n ih =>
      cases path with
      | up step rest =>
        obtain ⟨d, before, last⟩ := ih rest
        exact ⟨d, .up step before, last⟩
  · rintro ⟨d, path, last⟩
    induction path with
    | here c => exact .up last (.here e)
    | up step _ ih => exact .up step (ih last)

theorem Path.trans (first : Path c m d) (rest : Path d n e) : Path c (m + n) e := by
  induction first with
  | here c => rwa [Nat.zero_add]
  | @up c b d m step _ ih =>
    rw [Nat.add_right_comm]
    exact .up step (ih rest)

theorem Inherits.refl (c : Metaclass) : c.Inherits c := ⟨0, .here c⟩

theorem Inherits.trans : c.Inherits d → d.Inherits e → c.Inherits e
  | ⟨_, first⟩, ⟨_, rest⟩ => ⟨_, first.trans rest⟩

theorem Inherits.distance (inherits : c.Inherits d) : ∃ n, Distance c n d := by
  classical
  exact ⟨Nat.find inherits, Nat.find_spec inherits, fun m => Nat.find_min' inherits⟩

theorem Distance.unique (first : Distance c m d) (second : Distance c n d) : m = n :=
  Nat.le_antisymm (first.least n second.path) (second.least m first.path)

/-- The last step of a shortest way is taken from a class that is one step nearer. -/
theorem Distance.last (distance : Distance c (n + 1) e) : ∃ d, Distance c n d ∧ e ∈ d.supertypes := by
  obtain ⟨d, path, step⟩ := path_succ_iff.1 distance.path
  refine ⟨d, ⟨path, fun m other => ?_⟩, step⟩
  have longer := distance.least (m + 1) (path_succ_iff.2 ⟨d, other, step⟩)
  omega

/-- Where no class is at a distance none is farther away. -/
theorem Distance.lt_of_none (none : ∀ d, ¬ Distance c n d) (distance : Distance c m e) : m < n := by
  induction m generalizing e with
  | zero =>
    refine Nat.pos_of_ne_zero fun zero => ?_
    exact none e (zero ▸ distance)
  | succ m ih =>
    obtain ⟨d, nearer, -⟩ := distance.last
    have before := ih nearer
    have apart : m + 1 ≠ n := fun same => none e (same ▸ distance)
    omega

/-- No two classes among the ancestors have one name. -/
def Apart (c : Metaclass) : Prop :=
  ∀ d e, c.Inherits d → c.Inherits e → d.name = e.name → d = e

/-! One level. -/

theorem mem_of_mem_newcomers (member : d ∈ (newcomers seen classes).1) :
    d ∈ classes ∧ d.name ∉ seen := by
  induction classes generalizing seen with
  | nil => cases member
  | cons c rest ih =>
    rw [newcomers] at member
    split at member
    · obtain ⟨inside, new⟩ := ih member
      exact ⟨List.mem_cons_of_mem c inside, new⟩
    · rename_i new
      rcases List.mem_cons.1 member with rfl | later
      · exact ⟨List.mem_cons_self, by simpa using new⟩
      · obtain ⟨inside, other⟩ := ih later
        rw [Std.TreeSet.mem_insert, not_or] at other
        exact ⟨List.mem_cons_of_mem c inside, other.2⟩

/-- A class is passed over only for one of the same name. -/
theorem exists_mem_newcomers (member : d ∈ classes) (new : d.name ∉ seen) :
    ∃ e ∈ (newcomers seen classes).1, e.name = d.name := by
  induction classes generalizing seen with
  | nil => cases member
  | cons c rest ih =>
    rw [newcomers]
    split
    · rename_i known
      rcases List.mem_cons.1 member with rfl | later
      · exact absurd known (by simpa using new)
      · exact ih later new
    · by_cases same : c.name = d.name
      · exact ⟨c, List.mem_cons_self, same⟩
      · have later : d ∈ rest := (List.mem_cons.1 member).resolve_left fun equal => same (by rw [equal])
        have other : d.name ∉ seen.insert c.name := by simpa [Std.TreeSet.mem_insert, new] using same
        obtain ⟨e, found, equal⟩ := ih later other
        exact ⟨e, List.mem_cons_of_mem c found, equal⟩

theorem newcomers_nodup (seen : Std.TreeSet String) (classes : List Metaclass) :
    ((newcomers seen classes).1.map (·.name)).Nodup := by
  induction classes generalizing seen with
  | nil => exact List.nodup_nil
  | cons c rest ih =>
    rw [newcomers]
    split
    · exact ih seen
    · refine List.nodup_cons.2 ⟨fun repeated => ?_, ih _⟩
      obtain ⟨d, member, same⟩ := List.mem_map.1 repeated
      have new := (mem_of_mem_newcomers member).2
      rw [same] at new
      exact new Std.TreeSet.mem_insert_self

theorem mem_newcomers_seen :
    name ∈ (newcomers seen classes).2 ↔ name ∈ seen ∨ ∃ d ∈ classes, d.name = name := by
  induction classes generalizing seen with
  | nil => simp [newcomers]
  | cons c rest ih =>
    rw [newcomers]
    split
    · rename_i known
      simp only [ih, List.mem_cons, exists_eq_or_imp]
      constructor
      · exact Or.imp_right .inr
      · rintro (before | rfl | later)
        · exact .inl before
        · exact .inl (Std.TreeSet.contains_iff_mem.1 known)
        · exact .inr later
    · simp only [ih, List.mem_cons, exists_eq_or_imp, Std.TreeSet.mem_insert, Std.compare_eq_iff_eq,
        or_assoc, or_left_comm]

/-- The level holds the classes at a distance, and seen are the names of those that some way reaches in as
many steps or fewer. -/
structure Level (c : Metaclass) (n : Nat) (level : List Metaclass) (seen : Std.TreeSet String) :
    Prop where
  members : ∀ d, d ∈ level ↔ Distance c n d
  once : (level.map (·.name)).Nodup
  seen : ∀ name, name ∈ seen ↔ ∃ m d, m ≤ n ∧ Path c m d ∧ d.name = name

theorem Level.start (c : Metaclass) : Level c 0 [c] (.ofList [c.name]) where
  members d := by
    rw [List.mem_singleton]
    constructor
    · rintro rfl
      exact ⟨.here d, fun m _ => Nat.zero_le m⟩
    · intro distance
      exact path_zero_iff.1 distance.path
  once := List.nodup_singleton _
  seen name := by
    have none : name ∈ Std.TreeSet.ofList [c.name] ↔ c.name = name := by
      rw [Std.TreeSet.mem_ofList, List.contains_iff_mem, List.mem_singleton, eq_comm]
    rw [none]
    constructor
    · rintro rfl
      exact ⟨0, c, Nat.le_refl 0, .here c, rfl⟩
    · rintro ⟨m, d, bound, path, rfl⟩
      obtain rfl := Nat.le_zero.1 bound
      rw [path_zero_iff.1 path]

/-- One step up from the classes of a level are those of the next, unless their names were seen. -/
theorem Level.next (apart : c.Apart) (now : Level c n level seen) :
    Level c (n + 1) (newcomers seen (level.flatMap (·.supertypes))).1
      (newcomers seen (level.flatMap (·.supertypes))).2 where
  members e := by
    constructor
    · intro member
      obtain ⟨above, new⟩ := mem_of_mem_newcomers member
      obtain ⟨d, here, step⟩ := List.mem_flatMap.1 above
      refine ⟨path_succ_iff.2 ⟨d, ((now.members d).1 here).path, step⟩, fun m other => ?_⟩
      refine Nat.lt_of_not_le fun bound => new ?_
      exact (now.seen e.name).2 ⟨m, e, bound, other, rfl⟩
    · intro distance
      obtain ⟨d, nearer, step⟩ := distance.last
      have above : e ∈ level.flatMap (·.supertypes) :=
        List.mem_flatMap.2 ⟨d, (now.members d).2 nearer, step⟩
      have new : e.name ∉ seen := by
        intro known
        obtain ⟨m, b, bound, path, same⟩ := (now.seen e.name).1 known
        obtain rfl := apart b e ⟨m, path⟩ ⟨n + 1, distance.path⟩ same
        have := distance.least m path
        omega
      obtain ⟨b, member, same⟩ := exists_mem_newcomers above new
      obtain ⟨a, here, last⟩ := List.mem_flatMap.1 (mem_of_mem_newcomers member).1
      have path := path_succ_iff.2 ⟨a, ((now.members a).1 here).path, last⟩
      rwa [apart b e ⟨n + 1, path⟩ ⟨n + 1, distance.path⟩ same] at member
  once := newcomers_nodup _ _
  seen name := by
    rw [mem_newcomers_seen, now.seen]
    constructor
    · rintro (⟨m, d, bound, path, rfl⟩ | ⟨e, above, rfl⟩)
      · exact ⟨m, d, Nat.le_succ_of_le bound, path, rfl⟩
      · obtain ⟨d, here, step⟩ := List.mem_flatMap.1 above
        exact ⟨n + 1, e, Nat.le_refl _, path_succ_iff.2 ⟨d, ((now.members d).1 here).path, step⟩, rfl⟩
    · rintro ⟨m, e, bound, path, rfl⟩
      obtain ⟨k, distance⟩ := Inherits.distance ⟨m, path⟩
      have shorter := distance.least m path
      by_cases near : k ≤ n
      · exact .inl ⟨k, e, near, distance.path, rfl⟩
      · obtain rfl : k = n + 1 := by omega
        obtain ⟨d, nearer, step⟩ := distance.last
        exact .inr ⟨e, List.mem_flatMap.2 ⟨d, (now.members d).2 nearer, step⟩, rfl⟩

/-! All levels. -/

/-- From a level on the climb gives every class at that distance or a greater one. -/
theorem Level.mem_climb (apart : c.Apart) (now : Level c n level seen) {k : Nat} :
    (name, k) ∈ climb n level seen ↔ n ≤ k ∧ ∃ d, Distance c k d ∧ d.name = name := by
  fun_induction climb n level seen with
  | case1 n seen =>
    have none (d : Metaclass) : ¬ Distance c n d := fun distance =>
      List.not_mem_nil ((now.members d).2 distance)
    constructor
    · exact fun member => absurd member List.not_mem_nil
    · rintro ⟨bound, d, distance, -⟩
      exact absurd bound (Nat.not_le.2 (distance.lt_of_none none))
  | case2 n seen b rest next ih =>
    have here : (name, k) ∈ (b :: rest).map (fun d => (d.name, n)) ↔
        n = k ∧ ∃ d, Distance c n d ∧ d.name = name := by
      simp only [List.mem_map, Prod.mk.injEq, now.members]
      constructor
      · rintro ⟨d, distance, named, same⟩
        exact ⟨same, d, distance, named⟩
      · rintro ⟨same, d, distance, named⟩
        exact ⟨d, distance, named, same⟩
    rw [List.mem_append, here, ih (now.next apart)]
    constructor
    · rintro (⟨rfl, found⟩ | ⟨bound, found⟩)
      · exact ⟨Nat.le_refl n, found⟩
      · exact ⟨Nat.le_of_succ_le bound, found⟩
    · rintro ⟨bound, found⟩
      rcases Nat.eq_or_lt_of_le bound with rfl | farther
      · exact .inl ⟨rfl, found⟩
      · exact .inr ⟨farther, found⟩

theorem Level.climb_nodup (apart : c.Apart) (now : Level c n level seen) :
    (Named.names (climb n level seen)).Nodup := by
  fun_induction climb n level seen with
  | case1 n seen => exact List.nodup_nil
  | case2 n seen b rest next ih =>
    have behind := now.next apart
    rw [Named.names, List.map_append, List.map_map]
    refine List.nodup_append.2 ⟨now.once, ih behind, ?_⟩
    rintro name here other there rfl
    obtain ⟨d, member, rfl⟩ := List.mem_map.1 here
    obtain ⟨⟨same, k⟩, later, rfl⟩ := List.mem_map.1 there
    obtain ⟨bound, e, distance, named⟩ := (behind.mem_climb apart).1 later
    have own := (now.members d).1 member
    obtain rfl := apart e d ⟨k, distance.path⟩ ⟨n, own.path⟩ named
    have := own.unique distance
    omega

theorem ancestry_nodup (apart : c.Apart) : c.ancestry.names.Nodup :=
  (Level.start c).climb_nodup apart

theorem get?_ancestry (apart : c.Apart) :
    c.ancestry.get? name = some n ↔ ∃ d, Distance c n d ∧ d.name = name := by
  have listed : (name, n) ∈ c.ancestry ↔ ∃ d, Distance c n d ∧ d.name = name := by
    rw [ancestry, (Level.start c).mem_climb apart]
    simp
  rw [← listed]
  exact ⟨Named.mem_of_get?, Named.get?_of_mem (ancestry_nodup apart)⟩

theorem mem_names_ancestry (apart : c.Apart) :
    name ∈ c.ancestry.names ↔ ∃ d, c.Inherits d ∧ d.name = name := by
  constructor
  · intro known
    obtain ⟨n, found⟩ := Named.get?_of_mem_names known
    obtain ⟨d, distance, named⟩ := (get?_ancestry apart).1 found
    exact ⟨d, ⟨n, distance.path⟩, named⟩
  · rintro ⟨d, inherits, named⟩
    obtain ⟨n, distance⟩ := inherits.distance
    have found := (get?_ancestry apart).2 ⟨d, distance, named⟩
    exact List.mem_map_of_mem (Named.mem_of_get? found)

theorem conformsTo_iff (apart : c.Apart) {type : String} :
    c.conformsTo type = true ↔ ∃ d, c.Inherits d ∧ d.name = className type := by
  rw [← mem_names_ancestry apart]
  simp [conformsTo, Named.has, Named.names]

end Metaclass

/-- Classes with all that they inherit from, no two of one name. -/
structure Hierarchy where
  classes : List Metaclass
  closed : ∀ c ∈ classes, ∀ d ∈ c.supertypes, d ∈ classes
  named : ∀ c ∈ classes, ∀ d ∈ classes, c.name = d.name → c = d

namespace Hierarchy
open Metaclass
variable {hierarchy : Hierarchy} {c d : Metaclass}

theorem mem_of_inherits (member : c ∈ hierarchy.classes) (inherits : c.Inherits d) :
    d ∈ hierarchy.classes := by
  obtain ⟨n, path⟩ := inherits
  induction path with
  | here c => exact member
  | up step _ ih => exact ih (hierarchy.closed _ member _ step)

theorem apart (member : c ∈ hierarchy.classes) : c.Apart := fun d e first second =>
  hierarchy.named d (mem_of_inherits member first) e (mem_of_inherits member second)

end Hierarchy

open Metaclass in
/-- The ancestry of a class names the class and all that it inherits from, each once and with the length of
the shortest way up, which is zero for the class alone. So a class conforms to a type if and only if it is
or inherits from the class of that name, and then also to whatever that class conforms to. -/
theorem ancestry_shortest (hierarchy : Hierarchy) {c : Metaclass} (member : c ∈ hierarchy.classes) :
    c.ancestry.names.Nodup ∧
    (∀ name, name ∈ c.ancestry.names ↔ ∃ d, c.Inherits d ∧ d.name = name) ∧
    (∀ d n, c.Inherits d →
      (c.ancestry.get? d.name = some n ↔ Path c n d ∧ ∀ m, Path c m d → n ≤ m)) ∧
    (∀ d, c.Inherits d → (c.ancestry.get? d.name = some 0 ↔ d = c)) ∧
    (∀ type, c.conformsTo type = true ↔ ∃ d, c.Inherits d ∧ d.name = className type) ∧
    ∀ d ∈ hierarchy.classes, ∀ type, d.name = className type →
      (c.conformsTo type = true ↔ c.Inherits d) ∧
      ∀ other, c.conformsTo type = true → d.conformsTo other = true → c.conformsTo other = true := by
  have apart := hierarchy.apart member
  have distances (d : Metaclass) (n : Nat) (inherits : c.Inherits d) :
      c.ancestry.get? d.name = some n ↔ Path c n d ∧ ∀ m, Path c m d → n ≤ m := by
    rw [get?_ancestry apart]
    constructor
    · rintro ⟨e, distance, same⟩
      obtain rfl := apart e d ⟨n, distance.path⟩ inherits same
      exact ⟨distance.path, distance.least⟩
    · rintro ⟨path, least⟩
      exact ⟨d, ⟨path, least⟩, rfl⟩
  have named {d : Metaclass} (known : d ∈ hierarchy.classes) {type : String}
      (names : d.name = className type) : c.conformsTo type = true ↔ c.Inherits d := by
    rw [conformsTo_iff apart]
    constructor
    · rintro ⟨e, inherits, same⟩
      have listed := Hierarchy.mem_of_inherits member inherits
      rwa [hierarchy.named e listed d known (same.trans names.symm)] at inherits
    · exact fun inherits => ⟨d, inherits, names⟩
  refine ⟨ancestry_nodup apart, fun name => mem_names_ancestry apart, distances, fun d inherits => ?_,
    fun type => conformsTo_iff apart, ?_⟩
  · rw [distances d 0 inherits, path_zero_iff]
    exact and_iff_left fun m _ => Nat.zero_le m
  · intro d known type names
    refine ⟨named known names, fun other first second => ?_⟩
    obtain ⟨e, inherits, same⟩ := (conformsTo_iff (hierarchy.apart known)).1 second
    exact (conformsTo_iff apart).2 ⟨e, ((named known names).1 first).trans inherits, same⟩

namespace Diamond

def top : Metaclass := ⟨"Top", [], [], true⟩
def middle : Metaclass := ⟨"Middle", [], [top], false⟩
def left : Metaclass := ⟨"Left", [], [middle], false⟩
def right : Metaclass := ⟨"Right", [], [top], false⟩

/-- Three steps lead up on the left, two on the right; one supertype is repeated. -/
def bottom : Metaclass := ⟨"Bottom", [], [left, right, left], false⟩

def hierarchy : Hierarchy where
  classes := [top, middle, left, right, bottom]
  closed := by simp [top, middle, left, right, bottom]
  named := by simp [top, middle, left, right, bottom]

end Diamond

/-- The way on the right counts, not the longer one on the left. -/
theorem ancestry_shortest_diamond :
    Diamond.bottom ∈ Diamond.hierarchy.classes ∧ Diamond.bottom.Inherits Diamond.top ∧
      (Metaclass.Path Diamond.bottom 2 Diamond.top ∧
        ∀ m, Metaclass.Path Diamond.bottom m Diamond.top → 2 ≤ m) ∧
      Diamond.bottom.conformsTo "M!Top" = true := by
  have member : Diamond.bottom ∈ Diamond.hierarchy.classes := by simp [Diamond.hierarchy]
  have onRight : Diamond.right ∈ Diamond.bottom.supertypes := by simp [Diamond.bottom]
  have inherits : Diamond.bottom.Inherits Diamond.top :=
    ⟨2, .up onRight (.up (List.mem_singleton.2 rfl) (.here Diamond.top))⟩
  obtain ⟨-, -, distances, -, conforms, -⟩ := ancestry_shortest Diamond.hierarchy member
  have shortest := (distances Diamond.top 2 inherits).1 (by decide +kernel)
  exact ⟨member, inherits, shortest, (conforms "M!Top").2 ⟨Diamond.top, inherits, by decide +kernel⟩⟩

end Metamorph
