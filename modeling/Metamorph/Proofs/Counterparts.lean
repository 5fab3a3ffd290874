import Metamorph.Proofs.Founding
import Metamorph.Proofs.Likeness

/-! Counterparts in two runs. The objects that were created for the same output of the same rule and the
same source correspond to each other, whatever the order of the schedules. What the one trace tells of a
source, the other one tells, up to that. -/
namespace Metamorph

namespace Engine
open Run

theorem forall₂_left {α β : Type} {R : α → β → Prop} {xs : List α} {ys : List β}
    (related : List.Forall₂ R xs ys) {x : α} (member : x ∈ xs) : ∃ y ∈ ys, R x y :=
  forall₂_right (R := fun y x => R x y) (List.Forall₂.flip related) member

/-- What is related to the same. -/
theorem forall₂_join {α β γ : Type} {P : α → β → Prop} {Q : α → γ → Prop} {xs : List α} {ys : List β}
    {zs : List γ} (left : List.Forall₂ P xs ys) (right : List.Forall₂ Q xs zs) :
    List.Forall₂ (fun y z => y ∈ ys ∧ z ∈ zs ∧ ∃ x, P x y ∧ Q x z) ys zs := by
  induction left generalizing zs with
  | nil =>
    cases right
    exact .nil
  | cons here _ ih =>
    obtain _ | ⟨there, rest⟩ := right
    refine .cons ⟨List.mem_cons_self, List.mem_cons_self, _, here, there⟩ ?_
    exact (ih rest).imp fun _ _ both =>
      ⟨List.mem_cons_of_mem _ both.1, List.mem_cons_of_mem _ both.2.1, both.2.2⟩

/-- The object was created for the output of the rule when that was applied to the source. -/
def Product (s : Engine) (rule : MatchedRule) (source : Value) (output : String) (h : Handle) : Prop :=
  ∃ c ∈ creations s, pairOf c.1 = (rule, source) ∧ (output, .object h) ∈ c.2

/-- The objects were created for the same output of the same rule when that was applied to the same
source. -/
def Counterparts (s t : Engine) (h k : Handle) : Prop :=
  ∃ rule source output, Product s rule source output h ∧ Product t rule source output k

theorem Counterparts.symm {s t : Engine} {h k : Handle} (paired : Counterparts s t h k) :
    Counterparts t s k h := by
  obtain ⟨rule, source, output, left, right⟩ := paired
  exact ⟨rule, source, output, right, left⟩

theorem Counterparts.self {s t : Engine} {h k : Handle} (paired : Counterparts s t h k) :
    Counterparts s s h h := by
  obtain ⟨rule, source, output, left, -⟩ := paired
  exact ⟨rule, source, output, left, left⟩

variable {T : Transformation} {first other s t : Engine}

/-- Everything was created, for different objects that there were before. -/
structure Foundation (T : Transformation) (first t : Engine) : Prop where
  founded : Founded T first (creations t) t
  all : (creations t).map (·.1) = scheduled t
  apart : ((creations t).map (·.1.source.key)).Nodup
  given : ∀ c ∈ creations t, ∃ h < first.size, c.1.source = .object h
  unowned : ∀ {h}, first.ownerOf? (.object h) = none

namespace Foundation
variable {rule rule' : MatchedRule} {source source' : Value} {output output' : String} {h k : Handle}
  (foundation : Foundation T first t)
include foundation

theorem entity {g : Handle} (inside : g < first.size) :
    t.store.entities[g]? = first.store.entities[g]? := foundation.founded.enlarged.entity inside

theorem stays {g : Handle} (inside : g < first.size) : t.ownerOf? (.object g) = none :=
  (foundation.founded.enlarged.owner inside).trans foundation.unowned

/-- What is created for one source is created together. -/
theorem once {c d : Application × Outputs} (member : c ∈ creations t) (other : d ∈ creations t)
    (same : d.1.source.key = c.1.source.key) : d = c :=
  List.inj_on_of_nodup_map foundation.apart other member same

theorem made (product : Product t rule source output h) : ∃ out ∈ rule.outputs, output = out.name ∧
    first.size ≤ h ∧ ∃ provider cls, Supplies T first.store out.type provider cls ∧
      Blank t h provider cls := by
  obtain ⟨c, member, pair, entry⟩ := product
  obtain ⟨out, declared, name, g, provider, cls, object, newer, supplies, blank⟩ :=
    foundation.founded.entry member entry
  cases object
  obtain ⟨rfl, -⟩ := Prod.mk.inj pair
  exact ⟨out, declared, name, newer, provider, cls, supplies, blank⟩

theorem inside (product : Product t rule source output h) : h < t.size := by
  obtain ⟨_, -, -, -, _, _, -, blank⟩ := foundation.made product
  exact (Array.getElem?_eq_some_iff.1 blank.entity).1

/-- The names of outputs are distinct. -/
theorem names {c : Application × Outputs} (member : c ∈ creations t) : (c.2.map (·.1)).Nodup := by
  have same : c.2.map (·.1) = c.1.rule.outputs.map (·.name) := by
    have supplied := foundation.founded.supplied c member
    generalize c.1.rule.outputs = patterns, c.2 = outputs at supplied
    induction supplied with
    | nil => rfl
    | cons here _ ih => rw [List.map_cons, List.map_cons, ih, here.1]
  rw [same]
  exact c.1.rule.distinct

/-- What the engine has it made. -/
theorem inside_of_owns (owned : t.owns h = true) : first.size ≤ h ∧ h < t.size := by
  obtain ⟨provider, owner⟩ := Option.isSome_iff_exists.1 owned
  constructor
  · by_contra older
    rw [foundation.stays (Nat.lt_of_not_le older)] at owner
    cases owner
  · by_contra outside
    rw [foundation.founded.enlarged.beyond (Nat.le_of_not_lt outside), foundation.unowned] at owner
    cases owner

/-- One object is created for an output. -/
theorem unique (product : Product t rule source output h) (again : Product t rule source output k) :
    k = h := by
  obtain ⟨c, member, pair, entry⟩ := product
  obtain ⟨d, member', pair', entry'⟩ := again
  have sources : d.1.source = c.1.source := congrArg Prod.snd (pair'.trans pair.symm)
  obtain rfl := foundation.once member member' (by rw [sources])
  cases List.inj_on_of_nodup_map (foundation.names member) entry' entry rfl
  rfl

/-- An object is created for one output. -/
theorem determined (product : Product t rule source output h)
    (again : Product t rule' source' output' h) : rule' = rule ∧ source' = source ∧ output' = output := by
  obtain ⟨c, member, pair, entry⟩ := product
  obtain ⟨d, member', pair', entry'⟩ := again
  have all := foundation.founded.distinct
  have here := List.mem_flatMap.2 ⟨c, member, entry⟩
  have there := List.mem_flatMap.2 ⟨d, member', entry'⟩
  cases List.inj_on_of_nodup_map all there here rfl
  obtain ⟨i, turn⟩ := List.mem_iff_getElem?.1 member
  obtain ⟨j, turn'⟩ := List.mem_iff_getElem?.1 member'
  have flat : ((creations t).map (·.2)).flatten.Nodup := List.Nodup.of_map _ all
  obtain rfl : i = j := place_unique_of_nodup flat (by rw [List.getElem?_map, turn]; rfl)
    (by rw [List.getElem?_map, turn']; rfl) entry entry'
  rw [turn] at turn'
  cases turn'
  obtain ⟨rfl, rfl⟩ := Prod.mk.inj (pair'.symm.trans pair)
  exact ⟨rfl, rfl, rfl⟩

/-- The trace tells of objects only. -/
theorem ofObjects : OfObjects t.trace := by
  intro link member
  obtain ⟨c, listed, like⟩ := forall₂_right foundation.founded.links member
  obtain ⟨h, -, object⟩ := foundation.given c listed
  refine ⟨⟨h, like.source.trans object⟩, fun entry made => ?_⟩
  rw [like.outputs] at made
  obtain ⟨_, -, -, g, _, _, object, -⟩ := foundation.founded.entry listed made
  exact ⟨g, object⟩

/-- Objects that are none of the engine's still hold only what there was. -/
theorem closedStore {base : Identity} (sound : ClosedStore base first) : ClosedStore base t := by
  intro h feature v unowned read
  by_cases inside : h < first.size
  · rw [readFeature_congr (foundation.entity inside)] at read
    refine (sound foundation.unowned read).within (World.below_within le_rfl ?_)
    exact foundation.founded.enlarged.size
  · by_cases inside' : h < t.size
    · obtain ⟨provider, cls, blank⟩ := foundation.founded.enlarged.own (Nat.le_of_not_lt inside) inside'
      rw [blank.owner] at unowned
      cases unowned
    · have nothing : t.store.entities[h]? = none := Array.getElem?_eq_none (Nat.le_of_not_lt inside')
      simp [Store.readFeature, nothing] at read

/-- Whatever was made was created for an output. -/
theorem product {g : Handle} (older : first.size ≤ g) (newer : g < t.size) :
    ∃ rule source output, Product t rule source output g := by
  obtain ⟨c, member, ⟨name, v⟩, entry, object⟩ := foundation.founded.covered older newer
  cases object
  exact ⟨_, _, name, c, member, rfl, entry⟩

end Foundation

/-! The links for a source. -/
section
variable {done : List (Application × Outputs)} {links : List TraceLink} {v : Value}

theorem Links.isFor {c : Application × Outputs} {link : TraceLink} (like : Links c link) :
    link.isFor v = true ↔ c.1.source.key = v.key := by
  rw [TraceLink.isFor_iff, like.source]

theorem filter_links_none (related : List.Forall₂ Links done links)
    (others : ∀ c ∈ done, c.1.source.key ≠ v.key) : links.filter (·.isFor v) = [] := by
  refine List.filter_eq_nil_iff.2 fun link member own => ?_
  obtain ⟨c, listed, like⟩ := forall₂_right related member
  exact others c listed (like.isFor.1 own)

theorem filter_links (related : List.Forall₂ Links done links)
    (apart : (done.map (·.1.source.key)).Nodup) {c : Application × Outputs} (member : c ∈ done)
    (same : c.1.source.key = v.key) : ∃ link, Links c link ∧ links.filter (·.isFor v) = [link] := by
  induction related with
  | nil => cases member
  | @cons d link rest more like related ih =>
    obtain ⟨new, apart⟩ := List.nodup_cons.1 apart
    have others : ∀ e ∈ rest, e.1.source.key ≠ d.1.source.key := fun e listed other =>
      new (List.mem_map.2 ⟨e, listed, other⟩)
    rcases List.mem_cons.1 member with rfl | member
    · refine ⟨link, like, ?_⟩
      rw [List.filter_cons, if_pos (like.isFor.2 same), filter_links_none related]
      exact fun e listed => same ▸ others e listed
    · obtain ⟨found, like', only⟩ := ih apart member
      refine ⟨found, like', ?_⟩
      rw [List.filter_cons, if_neg, only]
      exact fun own => others c member (same.trans (like.isFor.1 own).symm)

end

/-- The creations of two runs, from objects that are the same in both. -/
structure Paired (T : Transformation) (first s other t : Engine) : Prop where
  left : Foundation T first s
  right : Foundation T other t
  size : other.size = first.size
  models : first.store.SameModels other.store
  entities : ∀ {h : Handle}, h < first.size → other.store.entities[h]? = first.store.entities[h]?
  pairs : ((creations t).map fun c => pairOf c.1).Perm ((creations s).map fun c => pairOf c.1)

/-- Objects that there were before correspond to themselves, and those that were created to their
counterparts. -/
def pairing (size : Nat) (s t : Engine) (h k : Handle) : Prop := h = k ∧ h < size ∨ Counterparts s t h k

end Engine

/-- The world in which identities correspond as before, and objects as they were created. -/
def World.paired (w : World) (first s t : Engine) : World :=
  { w with handles := Engine.pairing first.size s t }

namespace Engine
variable {T : Transformation} {first other s t : Engine}

namespace Paired
variable {h k h' k' : Handle} {w : World} (paired : Paired T first s other t)
include paired

theorem symm : Paired T other t first s where
  left := paired.right
  right := paired.left
  size := paired.size.symm
  models := paired.models.symm
  entities inside := (paired.entities (paired.size ▸ inside)).symm
  pairs := paired.pairs.symm

theorem scheduled : ((scheduled t).map pairOf).Perm ((Engine.scheduled s).map pairOf) := by
  rw [← paired.left.all, ← paired.right.all, List.map_map, List.map_map]
  exact paired.pairs

/-- What was created for an application was created in the other run, too. -/
theorem counterpart {c : Application × Outputs} (member : c ∈ creations s) :
    ∃ d ∈ creations t, pairOf d.1 = pairOf c.1 := by
  have listed := paired.pairs.mem_iff.2 (List.mem_map_of_mem member)
  obtain ⟨d, other, same⟩ := List.mem_map.1 listed
  exact ⟨d, other, same⟩

theorem total (product : first.size ≤ h ∧ h < s.size) : ∃ k, Counterparts s t h k := by
  obtain ⟨rule, source, output, product⟩ := paired.left.product product.1 product.2
  obtain ⟨out, declared, named, -⟩ := paired.left.made product
  obtain ⟨c, member, pair, entry⟩ := product
  obtain ⟨d, member', same⟩ := paired.counterpart member
  obtain ⟨rules, sources⟩ := Prod.mk.inj (same.trans pair)
  rw [← rules] at declared
  obtain ⟨entry', listed, name, g, _, _, object, -⟩ :=
    forall₂_left (paired.right.founded.supplied d member') declared
  obtain ⟨name', v⟩ := entry'
  cases object
  cases name
  exact ⟨g, rule, source, output, ⟨c, member, pair, entry⟩, d, member', same.trans pair,
    named ▸ listed⟩

theorem right_unique (here : Counterparts s t h k) (again : Counterparts s t h k') : k' = k := by
  obtain ⟨rule, source, output, product, product'⟩ := here
  obtain ⟨_, _, _, other, other'⟩ := again
  obtain ⟨rfl, rfl, rfl⟩ := paired.left.determined product other
  exact paired.right.unique product' other'

/-- Counterparts come from the same model and are of the same class. -/
theorem made (here : Counterparts s t h k) : first.size ≤ h ∧ other.size ≤ k ∧ ∃ provider cls,
    Blank s h provider cls ∧ Blank t k provider cls := by
  obtain ⟨rule, source, output, product, product'⟩ := here
  obtain ⟨out, declared, named, newer, provider, cls, supplies, blank⟩ := paired.left.made product
  obtain ⟨out', declared', named', newer', provider', cls', supplies', blank'⟩ :=
    paired.right.made product'
  obtain rfl := List.inj_on_of_nodup_map rule.distinct declared' declared (named'.symm.trans named)
  obtain ⟨rfl, rfl⟩ := supplies.unique (supplies'.congr paired.models.symm)
  exact ⟨newer, newer', provider', cls', blank, blank'⟩

theorem oneToOne (here : pairing first.size s t h k) (there : pairing first.size s t h' k') :
    h = h' ↔ k = k' := by
  have apart {h k h' : Handle} (given : h < first.size) (here : Counterparts s t h' k) :
      h ≠ h' ∧ h ≠ k := by
    obtain ⟨newer, newer', -⟩ := paired.made here
    rw [paired.size] at newer'
    exact ⟨fun same => absurd (same ▸ given) (Nat.not_lt_of_le newer),
      fun same => absurd (same ▸ given) (Nat.not_lt_of_le newer')⟩
  rcases here with ⟨rfl, given⟩ | here <;> rcases there with ⟨rfl, given'⟩ | there
  · rfl
  · obtain ⟨left, right⟩ := apart given there
    exact iff_of_false left right
  · obtain ⟨left, right⟩ := apart given' here
    exact iff_of_false left.symm right.symm
  · refine ⟨fun same => ?_, fun same => ?_⟩
    · subst same
      exact paired.right_unique there here
    · subst same
      exact paired.symm.right_unique there.symm here.symm

/-- What was created for corresponding applications corresponds. -/
theorem outputs (handles : ∀ {h k}, Counterparts s t h k → w.handles h k) {c d : Application × Outputs}
    (member : c ∈ creations s) (other' : d ∈ creations t) (same : pairOf d.1 = pairOf c.1) :
    NamedMatch w c.2 d.2 := by
  have left := paired.left.founded.supplied c member
  have right := paired.right.founded.supplied d other'
  obtain ⟨rules, sources⟩ := Prod.mk.inj same
  rw [rules] at right
  refine (forall₂_join left right).imp fun entry entry' both => ?_
  obtain ⟨listed, listed', out, ⟨name, h, _, _, object, -⟩, name', k, _, _, object', -⟩ := both
  refine ⟨name.trans name'.symm, ?_⟩
  rw [object, object']
  refine Value.matches_object.2 ⟨k, handles ⟨c.1.rule, c.1.source, out.name, ?_, ?_⟩, rfl⟩
  · exact ⟨c, member, rfl, by rw [← name, ← object]; exact listed⟩
  · exact ⟨d, other', same, by rw [← name', ← object']; exact listed'⟩

theorem traces (handles : w.handles = pairing first.size s t) : TraceAlike w s.trace t.trace := by
  have given {h k : Handle} (inside : h < first.size ∨ k < first.size) (found : w.handles h k) :
      k = h := by
    rw [handles] at found
    rcases found with ⟨same, -⟩ | found
    · exact same.symm
    · obtain ⟨newer, newer', -⟩ := paired.made found
      rw [paired.size] at newer'
      exact (inside.elim (Nat.not_lt_of_le newer) (Nat.not_lt_of_le newer')).elim
  intro v v' found
  by_cases known : ∃ c ∈ creations s, c.1.source.key = v.key
  · obtain ⟨c, member, same⟩ := known
    obtain ⟨d, member', pair⟩ := paired.counterpart member
    have sources : d.1.source = c.1.source := congrArg Prod.snd pair
    obtain ⟨h, inside, object⟩ := paired.left.given c member
    rw [object] at same
    obtain rfl := Value.eq_of_key_object same.symm
    obtain ⟨k, corresponds, rfl⟩ := Value.matches_object.1 found
    obtain rfl := given (.inl inside) corresponds
    obtain ⟨link, like, only⟩ :=
      filter_links paired.left.founded.links paired.left.apart member (by rw [object])
    obtain ⟨link', like', only'⟩ :=
      filter_links paired.right.founded.links paired.right.apart member' (by rw [sources, object])
    rw [Trace.linksFor_eq, Trace.linksFor_eq, only, only']
    refine .cons ⟨?_, like'.kind.trans like.kind.symm, ?_⟩ .nil
    · rw [like'.rule, like.rule]
      exact congrArg (·.1.name) pair
    · rw [like.outputs, like'.outputs]
      exact paired.outputs (fun found => by rw [handles]; exact .inr found) member member' pair
  · simp only [not_exists, not_and] at known
    have unknown : ∀ d ∈ creations t, d.1.source.key ≠ v'.key := by
      intro d member same
      obtain ⟨c, member', pair⟩ := paired.symm.counterpart member
      have sources : c.1.source = d.1.source := congrArg Prod.snd pair
      obtain ⟨k, inside, object⟩ := paired.right.given d member
      rw [object] at same
      obtain rfl := Value.eq_of_key_object same.symm
      obtain ⟨h, corresponds, rfl⟩ := Value.matches_object.1 found.flip
      obtain rfl := given (.inr (paired.size ▸ inside)) corresponds
      exact known c member' (by rw [sources, object])
    rw [Trace.linksFor_eq, Trace.linksFor_eq, filter_links_none paired.left.founded.links known,
      filter_links_none paired.right.founded.links unknown]
    exact .nil

/-- The states after both creations show corresponding things. -/
theorem scene {base : Identity} (sound : ClosedStore base first)
    (within : (World.below base first.size).Within w) (distinct : w.OneToOne)
    (handles : w.handles = pairing first.size s t) : Scene w s t where
  oneToOne := distinct
  object {h k} corresponds := by
    rw [handles] at corresponds
    rcases corresponds with ⟨rfl, inside⟩ | found
    · have inside' : h < other.size := paired.size ▸ inside
      refine .inl ⟨rfl, paired.left.stays inside, paired.right.stays inside', ?_, fun read => ?_⟩
      · rw [paired.right.entity inside', paired.left.entity inside, paired.entities inside]
      · rw [readFeature_congr (paired.left.entity inside)] at read
        exact (sound paired.left.unowned read).within within
    · obtain ⟨-, -, provider, cls, left, right⟩ := paired.made found
      exact .inr ⟨provider, cls, left.owner, right.owner, ⟨_, left.entity⟩, ⟨_, right.entity⟩⟩
  resolve := (paired.traces handles).resolves paired.left.ofObjects

end Paired

/-- After its creation the second run is beside the first one's, with more attributes at hand. -/
theorem Paired.beside {setting : Setting} {start : Engine} {base m m' : Identity}
    {entries more : List Entry} {w : World} (paired : Paired T first s other t)
    (sound : ClosedStore base first)
    (later : Table setting base s (more ++ entries) m') (most : m ≤ m') (above : ∀ e ∈ more, m ≤ e.lo)
    (beside : Beside start entries m w other)
    (handles : w.handles = fun h k => h = k ∧ h < first.size)
    (within : (World.below base first.size).Within w) :
    Beside s (more ++ entries) m' (w.paired first s t) t := by
  have larger : w.Within (w.paired first s t) :=
    ⟨id, fun corresponds => .inl (by rw [handles] at corresponds; exact corresponds)⟩
  have distinct : (w.paired first s t).OneToOne :=
    ⟨beside.shows.scene.oneToOne.ids, fun here there => paired.oneToOne here there⟩
  have enlarged := paired.right.founded.enlarged
  have scene := paired.scene sound (within.trans larger) distinct rfl
  have familiar {name : String} (known : (t.attributes.get? name).isSome = true) :
      ∃ e ∈ entries, e.name = name := beside.familiar (enlarged.attributes ▸ known)
  exact {
    shows := {
      scene := scene
      backdrop := ⟨rfl, rfl, fun _ => rfl, fun found => ⟨_, found⟩⟩
      held := rfl
      inside := fun corresponds => by
        rcases corresponds with ⟨-, inside⟩ | ⟨_, _, _, product, -⟩
        · exact Nat.lt_of_lt_of_le inside paired.left.founded.enlarged.size
        · exact paired.left.inside product
      told := rfl
      toLagging := by
        refine .start le_rfl (fun corresponds => Nat.lt_of_lt_of_le (beside.shows.left corresponds) most)
          (fun corresponds => ?_) (fun {e v} member read => ?_) fun {e i j} member corresponds low high => ?_
        · rw [enlarged.made]
          exact beside.shows.right corresponds
        · obtain ⟨e', member', same⟩ := familiar (by rw [read]; rfl)
          obtain rfl := later.unique member (List.mem_append_right _ member') same
          rw [enlarged.attributes] at read
          exact (beside.shows.hit member' read).within larger
        · rw [enlarged.attributes]
          rcases List.mem_append.1 member with new | old
          · have small := Nat.lt_of_lt_of_le (beside.shows.left corresponds) (above e new)
            exact absurd low (Nat.not_le_of_lt small)
          · exact beside.shows.zone old corresponds low high }
    familiar := fun known => by
      obtain ⟨e, member, same⟩ := familiar known
      exact ⟨e, List.mem_append_right _ member, same⟩
    resolves := (paired.traces (w := w.paired first s t) rfl).flip.resolves paired.right.ofObjects }

end Engine
end Metamorph
