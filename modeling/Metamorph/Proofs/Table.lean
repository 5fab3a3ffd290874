import Mathlib.Data.List.Perm.Subperm
import Metamorph.Proofs.Following

/-! The attributes of the module as a table. An attribute is evaluated when it is first read, by whatever
happens to read it. The table holds what the attributes come to when they are evaluated one by one, each
with those before it at hand. What the engine then keeps of an attribute is what the table says, up to the
identities of complex numbers. -/
namespace Metamorph

namespace World
variable {w : World} {bound : Identity} {size : Nat}

/-- Identities and objects below bounds, each corresponding to itself. -/
def below (bound : Identity) (size : Nat) : World :=
  ⟨fun i j => i = j ∧ i < bound, fun h k => h = k ∧ h < size⟩

/-- Whatever corresponds corresponds to itself, identities below a bound. -/
def Inward (bound : Identity) (w : World) : Prop :=
  (∀ {i j}, w.ids i j → i = j ∧ i < bound) ∧ ∀ {h k}, w.handles h k → h = k

/-- On the left only identities below a bound. -/
def restrict (w : World) (bound : Identity) : World :=
  { w with ids := fun i j => w.ids i j ∧ i < bound }

theorem OneToOne.restrict (oneToOne : w.OneToOne) : (w.restrict bound).OneToOne :=
  ⟨fun paired other => oneToOne.ids paired.1 other.1, oneToOne.handles⟩

theorem below_oneToOne : (below bound size).OneToOne :=
  ⟨fun ⟨same, _⟩ ⟨same', _⟩ => by rw [same, same'], fun ⟨same, _⟩ ⟨same', _⟩ => by rw [same, same']⟩

theorem below_inward {limit : Identity} (lower : bound ≤ limit) : (below bound size).Inward limit :=
  ⟨fun ⟨same, less⟩ => ⟨same, Nat.lt_of_lt_of_le less lower⟩, And.left⟩

theorem below_within {limit : Identity} {most : Nat} (lower : bound ≤ limit) (smaller : size ≤ most) :
    (below bound size).Within (below limit most) :=
  ⟨fun ⟨same, less⟩ => ⟨same, Nat.lt_of_lt_of_le less lower⟩,
    fun ⟨same, less⟩ => ⟨same, Nat.lt_of_lt_of_le less smaller⟩⟩

theorem below_pair : (below bound size).pair bound bound = below (bound + 1) size := by
  unfold below pair
  congr
  funext i j
  refine propext ⟨?_, fun ⟨same, less⟩ => ?_⟩
  · rintro (⟨same, less⟩ | ⟨rfl, rfl⟩)
    · exact ⟨same, Nat.lt_succ_of_lt less⟩
    · exact ⟨rfl, Nat.lt_succ_self _⟩
  · rcases Nat.lt_succ_iff_lt_or_eq.1 less with inside | edge
    · exact .inl ⟨same, inside⟩
    · exact .inr ⟨edge, same ▸ edge⟩

theorem flip_pair (w : World) (i j : Identity) : (w.pair i j).flip = w.flip.pair j i := by
  unfold flip pair
  simp only [and_comm]

end World

namespace Value
variable {w x : World} {u v : Value} {bound limit : Identity} {size most : Nat}

/-- A value whose identities and objects are below bounds. -/
abbrev ClosedBelow (bound : Identity) (size : Nat) (v : Value) : Prop :=
  v.Matches (.below bound size) v

theorem Matches.restrict (found : u.Matches w v) (closed : u.Matches x u) (inward : x.Inward limit) :
    u.Matches (w.restrict limit) v := by
  refine (closed.through found).within ⟨?_, ?_⟩
  · rintro i j ⟨_, same, paired⟩
    obtain ⟨rfl, less⟩ := inward.1 same
    exact ⟨paired, less⟩
  · rintro h k ⟨_, same, paired⟩
    obtain rfl := inward.2 same
    exact paired

/-- What corresponds to itself only is the same. -/
theorem Matches.eq_of_below (found : u.Matches (.below bound size) v) : v = u := by
  refine Lifts.matched (w := .below bound size) (P := fun u v => v = u) ?_ found
  have all {items others : List Value} (paired : List.Forall₂
      (fun u v => Matches (.below bound size) u v ∧ v = u) items others) : others = items := by
    induction paired with
    | nil => rfl
    | cons both _ ih => rw [both.2, ih]
  exact {
    plain := fun _ => rfl
    complex := fun paired => by rw [paired.1]
    object := fun paired => by rw [paired.1]
    collection := fun paired => by rw [all paired]
    tuple := fun {fields others} paired => by
      congr 1
      induction paired with
      | nil => rfl
      | cons both _ ih => rw [ih, Prod.ext both.1.symm both.2.2]
    list := fun paired => by rw [all paired] }

/-- What matches in a bounded world is bounded. -/
theorem Matches.closedBelow (found : u.Matches w v) (ids : ∀ {i j}, w.ids i j → i < bound)
    (handles : ∀ {h k}, w.handles h k → h < size) : u.ClosedBelow bound size := by
  refine Lifts.matched (w := w) (P := fun u _ => u.ClosedBelow bound size) ?_ found
  have all {items others : List Value}
      (paired : List.Forall₂ (fun u v => Matches w u v ∧ u.ClosedBelow bound size) items others) :
      List.Forall₂ (Matches (.below bound size)) items items := by
    induction paired with
    | nil => exact .nil
    | cons both _ ih => exact .cons both.2 ih
  exact {
    plain := fun plain => (matches_plain plain).2 rfl
    complex := fun paired => matches_complex.2 ⟨_, ⟨rfl, ids paired⟩, rfl⟩
    object := fun paired => matches_object.2 ⟨_, ⟨rfl, handles paired⟩, rfl⟩
    collection := fun paired => matches_collection.2 ⟨_, all paired, rfl⟩
    tuple := fun {fields others} paired => by
      refine matches_tuple.2 ⟨_, ?_, rfl⟩
      unfold NamedMatch
      induction paired with
      | nil => exact .nil
      | cons both _ ih => exact .cons ⟨rfl, both.2.2⟩ ih
    list := fun paired => matches_list.2 ⟨_, all paired, rfl⟩ }

end Value

/-- The attribute without its body: it can be read where its value is at hand, and not be evaluated. -/
def Helper.shut (helper : Helper) : Helper :=
  if helper.isAttribute then { helper with body := .foreign "" {} } else helper

/-- A setting in which no attribute of the module can be evaluated. -/
def Setting.shut (setting : Setting) : Setting :=
  { setting with helpers := { setting.helpers with
      module := setting.helpers.module.map fun entry => (entry.1, entry.2.shut) } }

namespace Engine
open Run

/-! What a scene depends on. -/

/-- The states show the same to an evaluation, which does not see what objects of the engine hold. -/
structure Backdrop (s s' : Engine) : Prop where
  owners : s'.owners = s.owners
  trace : s'.trace = s.trace
  given : ∀ {h : Handle}, s.owns h = false → s'.store.entities[h]? = s.store.entities[h]?
  made : ∀ {h : Handle} {cls : Metaclass} {values : Named Value}, s.store.entities[h]? = some (.instance cls values) →
    ∃ values', s'.store.entities[h]? = some (.instance cls values')

variable {w : World} {s s' t t' : Engine}

theorem Still.backdrop (still : Still s s') : Backdrop s s' where
  owners := still.owners
  trace := still.trace
  given _ := by rw [still.store]
  made found := ⟨_, by rw [still.store]; exact found⟩

theorem Backdrop.trans {s'' : Engine} (first : Backdrop s s') (rest : Backdrop s' s'') :
    Backdrop s s'' where
  owners := rest.owners.trans first.owners
  trace := rest.trace.trans first.trace
  given {h} unowned := by
    have same : s'.owns h = s.owns h := by simp [owns, Engine.ownerOf?, first.owners]
    exact (rest.given (same.trans unowned)).trans (first.given unowned)
  made found := by
    obtain ⟨values', found'⟩ := first.made found
    exact rest.made found'

theorem Backdrop.ownerOf? (backdrop : Backdrop s s') (v : Value) : s'.ownerOf? v = s.ownerOf? v := by
  unfold Engine.ownerOf?
  rw [backdrop.owners]

theorem resolve_congr {trace : Trace} {store store' : Store} {source v : Value} {output : String}
    {rule : Option String} (resolved : trace.resolve store source output rule = .ok v) :
    trace.resolve store' source output rule = .ok v := by
  unfold Trace.resolve at resolved ⊢
  split at resolved
  · cases text : store.cite source <;> rw [text] at resolved <;> cases resolved
  · exact resolved
  · cases resolved

theorem Resolves.congr {w' : World} (resolves : Resolves w s t) (handles : w'.handles = w.handles)
    (left : s'.trace = s.trace) (right : t'.trace = t.trace) : Resolves w' s' t' := by
  intro source output rule v resolved
  rw [left] at resolved
  obtain ⟨h, g, rfl, rfl, goes⟩ := resolves (resolve_congr resolved)
  refine ⟨h, g, rfl, rfl, fun {k} paired => ?_⟩
  rw [handles] at paired ⊢
  obtain ⟨g', found, resolved'⟩ := goes paired
  exact ⟨g', found, by rw [right]; exact resolve_congr resolved'⟩

theorem Scene.congr (scene : Scene w s t) (left : Backdrop s s') (right : Backdrop t t') :
    Scene w s' t' where
  oneToOne := scene.oneToOne
  object paired := by
    rcases scene.object paired with given | ⟨provider, cls, made⟩
    · obtain rfl := given.same
      refine .inl { given with
        unowned := (left.ownerOf? _).trans given.unowned
        twinUnowned := (right.ownerOf? _).trans given.twinUnowned
        entity := ?_
        closed := fun read => ?_ }
      · rw [right.given (by simp [Engine.owns, given.twinUnowned]), given.entity,
          left.given (by simp [Engine.owns, given.unowned])]
      · rw [readFeature_congr (left.given (by simp [Engine.owns, given.unowned]))] at read
        exact given.closed read
    · obtain ⟨values, entity⟩ := made.entity
      obtain ⟨values', entity'⟩ := made.twinEntity
      exact .inr ⟨provider, cls, (left.ownerOf? _).trans made.owner,
        (right.ownerOf? _).trans made.twinOwner, left.made entity, right.made entity'⟩
  resolve := Resolves.congr scene.resolve rfl left.trace right.trace

/-- A larger one-to-one world with the same objects does as well. -/
theorem Scene.grow {w' : World} (scene : Scene w s t) (oneToOne : w'.OneToOne)
    (handles : w'.handles = w.handles) (within : w.Within w') : Scene w' s t where
  oneToOne := oneToOne
  object paired := by
    rw [handles] at paired
    refine (scene.object paired).imp_left fun given => ?_
    exact { given with closed := fun read => (given.closed read).within within }
  resolve := Resolves.congr scene.resolve handles rfl rfl

theorem Given.flip {h k : Handle} (given : Given w s t h k) : Given w.flip t s k h := by
  obtain rfl := given.same
  refine ⟨rfl, given.twinUnowned, given.unowned, given.entity.symm, fun read => ?_⟩
  exact (given.closed (by rwa [← readFeature_congr given.entity])).flip

theorem Scene.flip (scene : Scene w s t) (resolved : Resolves w.flip t s) : Scene w.flip t s where
  oneToOne := scene.oneToOne.flip
  object paired := (scene.object paired).imp Given.flip fun ⟨provider, cls, made⟩ =>
    ⟨provider, cls, made.twinOwner, made.owner, made.twinEntity, made.entity⟩
  resolve := resolved

/-! The table. -/

theorem shut_isAttribute (helper : Helper) : helper.shut.isAttribute = helper.isAttribute := by
  unfold Helper.shut
  split <;> rfl

theorem shut_plan (setting : Setting) : SamePlan setting setting.shut where
  navigator := rfl
  settings := rfl
  transformation := rfl
  contextual := rfl
  natives := rfl
  has name := by
    have same : Named.has setting.shut.helpers.module name = setting.helpers.module.has name := by
      simp [Setting.shut, Named.has, Function.comp_def]
    unfold HelperTable.has
    rw [same]
    rfl
  module name := by
    have read : setting.shut.helpers.module.get? name = (setting.helpers.module.get? name).map
        Helper.shut := Named.get?_map _ _ _
    rw [read]
    cases setting.helpers.module.get? name with
    | none => exact .none
    | some helper =>
      refine .some ⟨shut_isAttribute helper, fun operation => ?_⟩
      simp [Helper.shut, operation]

theorem SamePlan.flip {setting setting' : Setting} (plan : SamePlan setting setting') :
    SamePlan setting' setting where
  navigator := plan.navigator.symm
  settings := plan.settings.symm
  transformation := plan.transformation.symm
  contextual := plan.contextual.symm
  natives := plan.natives.symm
  has name := (plan.has name).symm
  module name := by
    have related := plan.module name
    generalize setting.helpers.module.get? name = found,
      setting'.helpers.module.get? name = found' at related
    cases related with
    | none => exact .none
    | some both =>
      refine .some ⟨both.1.symm, fun operation => ?_⟩
      exact (both.2 (both.1 ▸ operation)).symm

theorem foreign_ne_value {setting : Setting} {n : Nat} {env : Environment} {kind : String}
    {loc : Location} {s s' : Engine} {v : Value} :
    watchedWithin setting n env (.foreign kind loc) s ≠ .value v s' := by
  cases n with
  | zero => nofun
  | succ n => simp [watchedWithin, watchedStep, step]

/-! An attribute that is read. -/
section
variable {name : String} {v : Value} {s s' : Engine} {setting : Setting} {self : Evaluator}

/-- An attribute that is at hand is read. -/
theorem moduleAttribute_hit (known : s.attributes.get? name = some v) :
    moduleAttribute self setting name s = .value v (recollect name v s) := by
  unfold moduleAttribute
  rw [state_bind, known]
  rfl

theorem still_recollect (name : String) (v : Value) (s : Engine) : Still s (recollect name v s) :=
  ⟨rfl, rfl, rfl, rfl, rfl⟩

/-- An attribute that is not is evaluated and kept. -/
theorem moduleAttribute_miss {helper : Helper} (missing : s.attributes.get? name = none)
    (known : (setting.helpers.module.get? name).filter (·.isAttribute) = some helper)
    (invoked : invokeHelper self setting helper setting.handle [] s = .value v s') :
    moduleAttribute self setting name s =
      .value v (keepAttribute name v s.readings.length s') := by
  unfold moduleAttribute
  rw [state_bind, missing]
  simp only [known]
  rw [bind_of_value invoked]
  rfl

/-- What a read that had to evaluate the attribute went through. -/
theorem moduleAttribute_missed (missing : s.attributes.get? name = none)
    (read : moduleAttribute self setting name s = .value v s') : ∃ helper u,
    (setting.helpers.module.get? name).filter (·.isAttribute) = some helper ∧
      invokeHelper self setting helper setting.handle [] s = .value v u := by
  unfold moduleAttribute at read
  rw [state_bind, missing] at read
  cases known : (setting.helpers.module.get? name).filter (·.isAttribute) with
  | none =>
    simp only [known] at read
    cases read
  | some helper =>
    simp only [known] at read
    obtain ⟨v', u, invoked, rest⟩ := bind_eq_value.1 read
    obtain ⟨_, _, -, rest⟩ := bind_eq_value.1 rest
    obtain ⟨rfl, -⟩ := pure_eq_value.1 rest
    exact ⟨helper, u, rfl, invoked⟩

end

/-- Where attributes cannot be evaluated those are read that are at hand. -/
theorem moduleAttribute_shut {setting : Setting} {self : Evaluator} {name : String} {v : Value}
    {s s' : Engine} (blind : ∀ {env s v s'}, self env (.foreign "" {}) s ≠ .value v s')
    (read : moduleAttribute self setting.shut name s = .value v s') :
    s.attributes.get? name = some v ∧ s' = recollect name v s := by
  cases known : s.attributes.get? name with
  | some value =>
    rw [moduleAttribute_hit known] at read
    cases read
    exact ⟨rfl, rfl⟩
  | none =>
    unfold moduleAttribute at read
    rw [state_bind] at read
    cases found : (setting.shut.helpers.module.get? name).filter (·.isAttribute) with
    | none =>
      simp only [known, found] at read
      cases read
    | some helper =>
      simp only [known, found] at read
      obtain ⟨listed, isAttribute⟩ := Option.filter_eq_some_iff.1 found
      have shut : setting.shut.helpers.module.get? name =
          (setting.helpers.module.get? name).map Helper.shut := Named.get?_map _ _ _
      rw [shut] at listed
      obtain ⟨original, -, rfl⟩ := Option.map_eq_some_iff.1 listed
      rw [shut_isAttribute] at isAttribute
      have body : original.shut.body = .foreign "" {} := by simp [Helper.shut, isAttribute]
      obtain ⟨v', u, invoked, -⟩ := bind_eq_value.1 read
      unfold invokeHelper at invoked
      split at invoked
      · cases invoked
      · obtain ⟨-, u, -, evaluated⟩ := bind_eq_value.1 invoked
        rw [body] at evaluated
        exact absurd evaluated blind

/-- An attribute with its value, and the identities that its evaluation may have brought, from the first up
to the last. -/
structure Entry where
  name : String
  value : Value
  lo : Identity
  hi : Identity

def size (s : Engine) : Nat := s.store.entities.size

/-- The state in which attributes are at hand and so many identities are given out. -/
def holding (s : Engine) (entries : List Entry) (made : Identity) : Engine :=
  { s with attributes := entries.map fun e => (e.name, e.value), made }

/-- Objects that are none of the engine's hold only what there is. -/
def ClosedStore (base : Identity) (s : Engine) : Prop :=
  ∀ {h feature v}, s.ownerOf? (.object h) = none →
    s.store.readFeature (.object h) feature = .ok v → v.ClosedBelow base s.size

/-- Entries that come one after the other, each of those before it, the last one first. Identities below
the base were given out before. -/
inductive Chain (comes : List Entry → Entry → Prop) (base : Identity) : List Entry → Identity → Prop
  | nil : Chain comes base [] base
  | cons {entries : List Entry} {e : Entry} (chain : Chain comes base entries e.lo)
      (new : ∀ d ∈ entries, d.name ≠ e.name) (made : comes entries e) (upward : e.lo ≤ e.hi) :
      Chain comes base (e :: entries) e.hi

variable {setting : Setting} {core : Engine} {entries older : List Entry} {base m : Identity}
  {e d : Entry} {comes : List Entry → Entry → Prop}

namespace Chain

theorem start_le (chain : Chain comes base entries m) : base ≤ m := by
  induction chain with
  | nil => exact le_rfl
  | cons _ _ _ upward ih => exact Nat.le_trans ih upward

theorem hi_le (chain : Chain comes base entries m) (member : e ∈ entries) : e.hi ≤ m := by
  induction chain with
  | nil => cases member
  | cons _ _ _ upward ih =>
    rcases List.mem_cons.1 member with rfl | member
    · exact le_rfl
    · exact Nat.le_trans (ih member) upward

theorem unique (chain : Chain comes base entries m) (member : e ∈ entries)
    (other : d ∈ entries) (same : d.name = e.name) : d = e := by
  induction chain with
  | nil => cases member
  | cons _ new _ _ ih =>
    rcases List.mem_cons.1 member with rfl | inner <;> rcases List.mem_cons.1 other with rfl | inner'
    · rfl
    · exact absurd same (new _ inner')
    · exact absurd same.symm (new _ inner)
    · exact ih inner inner'

theorem get? (chain : Chain comes base entries m) {name : String} {v : Value} :
    Named.get? (entries.map fun e => (e.name, e.value)) name = some v ↔
      ∃ e ∈ entries, e.name = name ∧ e.value = v := by
  have all : ∀ {name : String} {v : Value}, Named.get? (entries.map fun e => (e.name, e.value)) name = some v →
      ∃ e ∈ entries, e.name = name ∧ e.value = v := by
    intro name v found
    obtain ⟨e, member, same⟩ := List.mem_map.1 (Named.mem_of_get? found)
    exact ⟨e, member, by simpa using same⟩
  refine ⟨all, ?_⟩
  rintro ⟨e, member, rfl, rfl⟩
  have names : e.name ∈ Named.names (entries.map fun e => (e.name, e.value)) :=
    List.mem_map.2 ⟨_, List.mem_map.2 ⟨e, member, rfl⟩, rfl⟩
  obtain ⟨v, found⟩ := Named.get?_of_mem_names names
  obtain ⟨d, other, same, value⟩ := all found
  obtain rfl := chain.unique member other same
  rw [value]
  exact found

theorem last_unique {m' : Identity} (chain : Chain comes base entries m)
    (other : Chain comes base entries m') : m = m' := by
  cases chain <;> cases other <;> rfl

/-- How an entry came in. -/
structure Origin (comes : List Entry → Entry → Prop) (base : Identity) (entries older : List Entry)
    (e : Entry) : Prop where
  chain : Chain comes base older e.lo
  made : comes older e
  shorter : older.length < entries.length
  mem : ∀ d ∈ older, d ∈ entries
  split : ∀ d ∈ entries, d ∈ older ∨ d = e ∨ e.hi ≤ d.lo

theorem origin (chain : Chain comes base entries m) (member : e ∈ entries) :
    ∃ older, Origin comes base entries older e := by
  induction chain with
  | nil => cases member
  | @cons entries d chain new made upward ih =>
    rcases List.mem_cons.1 member with rfl | inner
    · refine ⟨entries, chain, made, by simp, fun d member => List.mem_cons_of_mem _ member, ?_⟩
      intro d member
      rcases List.mem_cons.1 member with rfl | member
      · exact .inr (.inl rfl)
      · exact .inl member
    · obtain ⟨older, origin⟩ := ih inner
      have shorter := origin.shorter
      refine ⟨older, origin.chain, origin.made, by simp; omega,
        fun d member => List.mem_cons_of_mem _ (origin.mem d member), fun d' member' => ?_⟩
      rcases List.mem_cons.1 member' with rfl | member'
      · exact .inr (.inr (chain.hi_le inner))
      · exact origin.split d' member'

/-- The names of the entries are distinct, and among those that there are. -/
theorem names {names : List String} (listed : ∀ {older e}, comes older e → e.name ∈ names)
    (chain : Chain comes base entries m) :
    (entries.map (·.name)).Nodup ∧ entries.map (·.name) ⊆ names := by
  induction chain with
  | nil => exact ⟨.nil, fun _ member => by cases member⟩
  | @cons entries e chain new made upward ih =>
    rw [List.map_cons]
    refine ⟨List.nodup_cons.2 ⟨fun member => ?_, ih.1⟩, List.cons_subset.2 ⟨listed made, ih.2⟩⟩
    obtain ⟨d, listed, same⟩ := List.mem_map.1 member
    exact new d listed same

/-- Every chain is the beginning of one that has all that can come. -/
theorem exists_full {names : List String} (listed : ∀ {older e}, comes older e → e.name ∈ names)
    (chain : Chain comes base entries m) : ∃ more m', Chain comes base (more ++ entries) m' ∧
      (∀ e : Entry, ¬ Chain comes base (e :: (more ++ entries)) e.hi) ∧ m ≤ m' ∧
        ∀ e ∈ more, m ≤ e.lo := by
  induction left : names.length - entries.length using Nat.strong_induction_on
    generalizing entries m with
  | _ left ih =>
  by_cases full : ∀ e : Entry, ¬ Chain comes base (e :: entries) e.hi
  · exact ⟨[], m, chain, full, le_rfl, by simp⟩
  · simp only [not_forall, not_not] at full
    obtain ⟨e, larger⟩ := full
    obtain ⟨distinct, among⟩ := larger.names listed
    have room := (List.Nodup.subperm distinct among).length_le
    simp only [List.length_map, List.length_cons] at room
    obtain ⟨more, m', chain', full, most, above⟩ :=
      ih _ (by simp only [List.length_cons]; omega) larger rfl
    obtain ⟨start, upward⟩ : m ≤ e.lo ∧ e.lo ≤ e.hi := by
      cases larger with
      | cons inner _ _ upward => exact ⟨le_of_eq (chain.last_unique inner), upward⟩
    have later : m ≤ e.hi := Nat.le_trans start upward
    refine ⟨more ++ [e], m', by simpa using chain', by simpa using full, Nat.le_trans later most, ?_⟩
    intro d member
    rcases List.mem_append.1 member with member | member
    · exact Nat.le_trans later (above d member)
    · obtain rfl := List.mem_singleton.1 member
      exact start

end Chain

/-- The attribute comes to the value with the others at hand. -/
def Arises (setting : Setting) (core : Engine) (older : List Entry) (e : Entry) : Prop :=
  ∃ helper n k, (setting.helpers.module.get? e.name).filter (·.isAttribute) = some helper ∧
    invokeHelper (watchedWithin setting.shut n) setting.shut helper setting.handle []
      (core.holding older e.lo) = .value e.value k ∧ k.made = e.hi ∧
    e.value.ClosedBelow e.hi core.size

/-- What attributes come to when each is evaluated with those before it at hand. -/
def Table (setting : Setting) (base : Identity) (core : Engine) : List Entry → Identity → Prop :=
  Chain (Arises setting core) base

/-- The table has all attributes that can be evaluated. -/
def Full (setting : Setting) (base : Identity) (core : Engine) (entries : List Entry) : Prop :=
  ∀ e : Entry, ¬ Table setting base core (e :: entries) e.hi

namespace Table

theorem closed (table : Table setting base core entries m) (member : e ∈ entries) :
    e.value.ClosedBelow e.hi core.size := by
  obtain ⟨_, origin⟩ := Chain.origin table member
  obtain ⟨_, _, _, -, -, -, closed⟩ := origin.made
  exact closed

theorem get?_holding (table : Table setting base core entries m) {name : String} {v : Value} :
    (core.holding entries m).attributes.get? name = some v ↔
      ∃ e ∈ entries, e.name = name ∧ e.value = v := Chain.get? table

/-- Every table is the beginning of a full one. -/
theorem exists_full (table : Table setting base core entries m) : ∃ more m',
    Table setting base core (more ++ entries) m' ∧ Full setting base core (more ++ entries) ∧
      m ≤ m' ∧ ∀ e ∈ more, m ≤ e.lo := by
  have listed {older : List Entry} {e : Entry} (arises : Arises setting core older e) :
      e.name ∈ setting.helpers.module.names := by
    obtain ⟨helper, n, k, known, -⟩ := arises
    obtain ⟨found, -⟩ := Option.filter_eq_some_iff.1 known
    exact List.mem_map.2 ⟨_, Named.mem_of_get? found, rfl⟩
  exact Chain.exists_full listed table

end Table

/-! Tables carried on to a later state. -/

/-- A state before the engine made any objects: the objects that there were are none of the engine's
later, and the trace told of nothing. -/
structure Before (first core : Engine) : Prop where
  size : first.size ≤ core.size
  unowned : ∀ {h}, h < first.size → core.ownerOf? (.object h) = none
  nothing : ∀ {h}, first.ownerOf? (.object h) = none
  entity : ∀ {h : Handle}, h < first.size → core.store.entities[h]? = first.store.entities[h]?
  untold : ∀ {source output rule v}, first.trace.resolve first.store source output rule ≠ .ok v

/-- The states hold the same attributes, of objects that there were in the first state. -/
structure Alongside (first : Engine) (entries : List Entry) (m : Identity) (w : World) (s t : Engine) :
    Prop where
  world : w = .below s.made first.size
  scene : Scene w s t
  made : t.made = s.made
  held : s.attributes = (first.holding entries m).attributes
  same : t.attributes = s.attributes
  above : m ≤ s.made

variable {first : Engine}

theorem alongside_twins : Twins (Alongside first entries m) where
  scene alongside := alongside.scene
  still {w s t s' t'} alongside left right :=
    { world := by rw [alongside.world, left.made]
      scene := alongside.scene.congr left.backdrop right.backdrop
      made := by rw [left.made, right.made, alongside.made]
      held := left.attributes.trans alongside.held
      same := by rw [left.attributes, right.attributes, alongside.same]
      above := by rw [left.made]; exact alongside.above }
  fresh {w s t} alongside := by
    have larger : w.pair s.made t.made = .below (s.made + 1) first.size := by
      rw [alongside.world, alongside.made, World.below_pair]
    have grown : Scene (w.pair s.made t.made) s t :=
      alongside.scene.grow (larger ▸ World.below_oneToOne) rfl (w.within_pair _ _)
    exact {
      world := larger
      scene := grown.congr ⟨rfl, rfl, fun _ => rfl, fun found => ⟨_, found⟩⟩
        ⟨rfl, rfl, fun _ => rfl, fun found => ⟨_, found⟩⟩
      made := congrArg (· + 1) alongside.made
      held := alongside.held
      same := alongside.same
      above := Nat.le_succ_of_le alongside.above }

theorem Before.alongside (before : Before first core) (sound : ClosedStore base first) (low : base ≤ m)
    (entries : List Entry) :
    Alongside first entries m (.below m first.size) (first.holding entries m)
      (core.holding entries m) where
  world := rfl
  scene := {
    oneToOne := World.below_oneToOne
    object := by
      rintro h _ ⟨rfl, inside⟩
      refine .inl ⟨rfl, before.nothing, before.unowned inside, before.entity inside, fun read => ?_⟩
      exact (sound before.nothing read).within (World.below_within low le_rfl)
    resolve := fun resolved => absurd resolved before.untold }
  made := rfl
  held := rfl
  same := rfl
  above := le_rfl

theorem Table.alongside_reads (table : Table setting base first entries m) (n : Nat) (w : World)
    (name : String) :
    Tracks (Alongside first entries m) alike w
      (moduleAttribute (watchedWithin setting.shut n) setting.shut name)
      fun n => moduleAttribute (watchedWithin setting.shut n) setting.shut name := by
  intro s t alongside v s' read
  obtain ⟨known, rfl⟩ := moduleAttribute_shut foreign_ne_value read
  have known' : t.attributes.get? name = some v := by rw [alongside.same, known]
  rw [alongside.held, table.get?_holding] at known
  obtain ⟨e, member, rfl, rfl⟩ := known
  refine ⟨e.value, _, w, .refl w, ?_, ?_, 0, fun n _ => moduleAttribute_hit known'⟩
  swap
  · exact alongside_twins.still alongside (still_recollect _ _ s) (still_recollect _ _ t)
  have inside := Nat.le_trans (table.hi_le member) alongside.above
  rw [alongside.world]
  exact (table.closed member).within (World.below_within inside le_rfl)

theorem SamePlan.refl (setting : Setting) : SamePlan setting setting where
  navigator := rfl
  settings := rfl
  transformation := rfl
  contextual := rfl
  natives := rfl
  has _ := rfl
  module name := by
    cases setting.helpers.module.get? name with
    | none => exact .none
    | some helper => exact .some ⟨rfl, fun _ => rfl⟩

/-- What attributes came to before any objects were made they come to later. -/
theorem Table.later (innocent : Innocent setting) (before : Before first core)
    (sound : ClosedStore base first) (table : Table setting base first entries m) :
    Table setting base core entries m := by
  induction table with
  | nil => exact .nil
  | @cons entries e table new made upward ih =>
    obtain ⟨helper, n, k, known, evaluated, finish, closed⟩ := made
    have following := watchedWithin_following (ι := Unit) (fun _ => alongside_twins)
      (SamePlan.refl setting.shut) ((shut_plan setting).innocent innocent)
      (fun n _ _ w name => Table.alongside_reads table n w name) n ()
    obtain ⟨v, t', w', within, matched, alongside, enough, goes⟩ :=
      following.led.invokeHelper helper (Value.matches_thisModule.2 rfl) .nil _ _
        (before.alongside sound table.start_le entries) _ _ evaluated
    rw [alongside.world] at matched
    obtain rfl := matched.eq_of_below
    exact .cons ih new ⟨helper, enough, t', known, goes enough le_rfl, alongside.made.trans finish,
      closed.within (World.below_within le_rfl before.size)⟩ upward

end Engine

end Metamorph
