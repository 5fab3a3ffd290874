import Metamorph.Proofs.Twin

/-! What twins have in common. The same is read of corresponding objects that were given; of those that
were made the classes are the same, which is all that evaluations find out unless they peek. -/
namespace Metamorph

/-! Native operations. -/

/-- Everything corresponds to itself. -/
def World.itself : World := ⟨Eq, Eq⟩

theorem World.itself_oneToOne : World.itself.OneToOne where
  ids := by rintro _ _ _ _ rfl rfl; rfl
  handles := by rintro _ _ _ _ rfl rfl; rfl

mutual

theorem Value.matches_itself : ∀ v : Value, v.Matches .itself v
  | .undefined | .boolean _ | .integer _ | .real _ | .string _ | .type _ | .thisModule _ => by simp
  | .complex _ _ _ => Value.matches_complex.2 ⟨_, rfl, rfl⟩
  | .object _ => Value.matches_object.2 ⟨_, rfl, rfl⟩
  | .collection _ items => Value.matches_collection.2 ⟨_, alike_itself items, rfl⟩
  | .tuple fields => Value.matches_tuple.2 ⟨_, namedMatch_itself fields, rfl⟩
  | .list _ items => Value.matches_list.2 ⟨_, alike_itself items, rfl⟩

theorem alike_itself : ∀ items : List Value, Value.Alike .itself items items
  | [] => .nil
  | v :: rest => .cons v.matches_itself (alike_itself rest)

theorem namedMatch_itself : ∀ fields : List (String × Value), NamedMatch .itself fields fields
  | [] => .nil
  | (_, v) :: rest => .cons ⟨rfl, v.matches_itself⟩ (namedMatch_itself rest)

end

/-- What matches where everything corresponds to itself is the same. -/
theorem Value.Matches.eq_of_itself {u v : Value} (found : u.Matches .itself v) : v = u := by
  have lists {items others : List Value}
      (paired : List.Forall₂ (fun u v => Value.Matches .itself u v ∧ v = u) items others) :
      others = items := by
    induction paired with
    | nil => rfl
    | cons both _ ih => rw [both.2, ih]
  refine Value.Lifts.matched (w := .itself) (P := fun u v => v = u) ?_ found
  exact {
    plain := fun _ => rfl
    complex := fun same => by cases same; rfl
    object := fun same => by cases same; rfl
    collection := fun paired => by rw [lists paired]
    tuple := fun {fields others} paired => by
      congr 1
      induction paired with
      | nil => rfl
      | cons all _ ih => rw [ih, Prod.ext all.1.symm all.2.2]
    list := fun paired => by rw [lists paired] }

/-- A native operation is pure if its answer comes of the values it is given, whatever their names: it
answers matching values alike. Texts it may ask for, as far as there are any. -/
structure Native.Pure (native : Native) : Prop where
  answers : ∀ {w : World} {cite cite' : Value → Result String}, w.OneToOne →
    (∀ {u u'}, u.Matches w u' → Brings Eq (cite u) (cite' u')) →
      ∀ {args args'}, Value.Alike w args args' →
        Brings (Value.Matches w) (native.run cite args) (native.run cite' args')

/-- More texts do not change an answer. -/
theorem Native.Pure.same {native : Native} (pure : native.Pure) {cite cite' : Value → Result String}
    (more : ∀ u text, cite u = .ok text → cite' u = .ok text) {args : List Value} {v : Value}
    (ended : native.run cite args = .ok v) : native.run cite' args = .ok v := by
  obtain ⟨v', ended', found⟩ := pure.answers World.itself_oneToOne
    (fun {u u'} found text shown => ⟨text, found.eq_of_itself ▸ more u text shown, rfl⟩)
    (alike_itself args) v ended
  rw [ended', found.eq_of_itself]

/-! Values that mention objects. -/

theorem Value.Matches.mentions {w : World} {p q : Handle → Bool} {u v : Value}
    (found : u.Matches w v) (same : ∀ {h k}, w.handles h k → q k = p h) :
    v.mentions q = u.mentions p := by
  have lists {items others : List Value}
      (paired : List.Forall₂ (fun u v => Value.Matches w u v ∧ v.mentions q = u.mentions p)
        items others) : anyMentions q others = anyMentions p items := by
    induction paired with
    | nil => rfl
    | cons both _ ih => rw [anyMentions, anyMentions, both.2, ih]
  refine Value.Lifts.matched (w := w) (P := fun u v => v.mentions q = u.mentions p) ?_ found
  exact {
    plain := fun {u} plain => by cases u <;> simp_all [Value.isPlain, Value.mentions]
    complex := fun _ => rfl
    object := fun paired => by rw [Value.mentions, Value.mentions, same paired]
    collection := fun paired => by rw [Value.mentions, Value.mentions, lists paired]
    tuple := fun {fields others} paired => by
      rw [Value.mentions, Value.mentions]
      induction paired with
      | nil => rfl
      | @cons field other _ _ all _ ih =>
        obtain ⟨name, v⟩ := field
        obtain ⟨_, v'⟩ := other
        rw [anyFieldMentions, anyFieldMentions, ih, all.2.2]
    list := fun paired => by rw [Value.mentions, Value.mentions, lists paired] }

theorem asSequence_matches {w : World} {u v : Value} (found : u.Matches w v) :
    (asSequence u).Matches w (asSequence v) := by
  cases found using Value.Matches.cases with
  | list i items others alike => exact Value.matches_collection.2 ⟨_, alike, rfl⟩
  | _ => assumption

namespace Engine
variable {w : World} {s t : Engine} {u v v' : Value} {feature : String} {h k : Handle}

/-- The places of the store that hold the same are read alike. -/
theorem readFeature_congr {store store' : Store} (same : store'.entities[h]? = store.entities[h]?) :
    store'.readFeature (.object h) feature = store.readFeature (.object h) feature := by
  unfold Store.readFeature
  dsimp only
  rw [same]

/-- Corresponding objects are the same entity, or instances of one class. -/
def Kindred (w : World) (store store' : Store) : Prop :=
  ∀ ⦃h k⦄, w.handles h k → store'.entities[k]? = store.entities[h]? ∨
    ∃ cls values values', store.entities[h]? = some (.instance cls values) ∧
      store'.entities[k]? = some (.instance cls values')

theorem Kindred.ancestry {store store' : Store} (kindred : Kindred w store store')
    (paired : w.handles h k) : store'.ancestry (.object k) = store.ancestry (.object h) := by
  unfold Store.ancestry
  have plain (h : Handle) : Value.builtinAncestry? (.object h) = none := rfl
  rw [plain, plain]
  dsimp only
  rcases kindred paired with same | ⟨cls, values, values', entity, entity'⟩
  · rw [same]
  · rw [entity, entity']

/-- Matching values have the same features. -/
theorem Kindred.hasFeature {store store' : Store} (kindred : Kindred w store store')
    (found : u.Matches w v) : store'.hasFeature v feature = store.hasFeature u feature := by
  cases found using Value.Matches.cases with
  | object h k paired =>
    unfold Store.hasFeature
    dsimp only
    rcases kindred paired with same | ⟨cls, values, values', entity, entity'⟩
    · rw [same]
    · simp only [entity, entity']
  | complex i j re im paired =>
    by_cases real : feature = "real"
    · simp [Store.hasFeature, hostAttribute, real]
    · by_cases imaginary : feature = "imag"
      · simp [Store.hasFeature, hostAttribute, imaginary]
      · simp [Store.hasFeature, hostAttribute, real, imaginary]
  | _ => rfl

/-- The features of matching values read alike if those of objects do. -/
theorem readFeature_matches {store store' : Store} (objects : ∀ {h k}, u = .object h → w.handles h k →
      Brings (Value.Matches w) (store.readFeature (.object h) feature)
        (store'.readFeature (.object k) feature))
    (found : u.Matches w v) :
    Brings (Value.Matches w) (store.readFeature u feature) (store'.readFeature v feature) := by
  cases found using Value.Matches.cases with
  | object h k paired => exact objects rfl paired
  | complex i j re im paired =>
    by_cases real : feature = "real"
    · subst real
      exact .ok (by simp)
    · by_cases imaginary : feature = "imag"
      · subst imaginary
        exact .ok (by simp)
      · intro v read
        simp [Store.readFeature, hostAttribute, real, imaginary] at read
  | _ => exact .error

namespace Scene
variable (scene : Scene w s t)
include scene

theorem ownerOf? (found : u.Matches w v) : t.ownerOf? v = s.ownerOf? u := by
  cases found using Value.Matches.cases with
  | object h k paired =>
    rcases scene.object paired with given | ⟨provider, cls, made⟩
    · obtain rfl := given.same
      rw [given.unowned, given.twinUnowned]
    · rw [made.owner, made.twinOwner]
  | _ => rfl

theorem owns (paired : w.handles h k) : t.owns k = s.owns h := by
  unfold Engine.owns
  rw [scene.ownerOf? (Value.matches_object.2 ⟨k, paired, rfl⟩)]

theorem label (paired : w.handles h k) (given : s.owns h = false) :
    s.store.label h = t.store.label k := by
  rcases scene.object paired with found | ⟨provider, cls, made⟩
  · obtain rfl := found.same
    unfold Store.label
    rw [found.entity]
  · simp [Engine.owns, made.owner] at given

/-- Values in which nothing occurs that was made have the same text. -/
theorem textOf (found : u.Matches w v) (silent : u.mentions s.owns = false) (cited : Bool) :
    t.store.textOf cited v = s.store.textOf cited u := by
  obtain ⟨overlong, text⟩ := found.sameText (p := s.owns) fun paired => scene.label paired
  rw [Store.textOf, Store.textOf, overlong, text silent]

theorem citeGiven (found : u.Matches w v) : Brings Eq (s.citeGiven u) (t.citeGiven v) := by
  unfold Engine.citeGiven
  rw [found.mentions scene.owns]
  cases silent : u.mentions s.owns with
  | true => exact .error
  | false => exact .same fun text shown => (scene.textOf found silent true).trans shown

theorem kindred : Kindred w s.store t.store := by
  intro h k paired
  rcases scene.object paired with given | ⟨provider, cls, made⟩
  · obtain rfl := given.same
    exact .inl given.entity
  · obtain ⟨values, entity⟩ := made.entity
    obtain ⟨values', entity'⟩ := made.twinEntity
    exact .inr ⟨cls, values, values', entity, entity'⟩

/-- The features of what was not made read alike. -/
theorem readFeature (found : u.Matches w v) (unowned : s.ownerOf? u = none) :
    Brings (Value.Matches w) (s.store.readFeature u feature) (t.store.readFeature v feature) := by
  refine readFeature_matches (fun {h k} object paired => ?_) found
  subst object
  rcases scene.object paired with given | ⟨provider, cls, made⟩
  · obtain rfl := given.same
    rw [readFeature_congr given.entity]
    exact fun v read => ⟨v, read, given.closed read⟩
  · rw [made.owner] at unowned
    cases unowned

end Scene

end Engine
end Metamorph
