import Metamorph.Proofs.Table

/-! Runs beside the table. A state in which attributes are at hand shows what a state of the engine comes
to, if the attributes that the latter keeps are those of the table up to identities. Evaluations keep that:
an attribute that the engine has yet to evaluate comes out as the table says. -/
namespace Metamorph

/-- The world in which the identities of both correspond. -/
def World.join (w w' : World) : World := { w with ids := fun i j => w.ids i j ∨ w'.ids i j }

namespace Engine
open Run

/-- The state `k` has attributes at hand of which the state `t` of the engine, which came from `t₀`, has yet
to evaluate some. Identities that an attribute brought correspond only where the engine has evaluated it,
and those that correspond only now are new. -/
structure Lagging (entries : List Entry) (m : Identity) (w₀ : World) (t₀ : Engine) (w : World)
    (k t : Engine) : Prop where
  above : m ≤ k.made
  left : ∀ {i j}, w.ids i j → i < k.made
  right : ∀ {i j}, w.ids i j → j < t.made
  hit : ∀ {e v}, e ∈ entries → t.attributes.get? e.name = some v → e.value.Matches w v
  zone : ∀ {e i j}, e ∈ entries → w.ids i j → e.lo ≤ i → i < e.hi →
    (t.attributes.get? e.name).isSome = true
  handles : w.handles = w₀.handles
  since : ∀ {i j}, w.ids i j → w₀.ids i j ∨ t₀.made ≤ j
  kept : ∀ {name v}, t₀.attributes.get? name = some v → t.attributes.get? name = some v
  caused : ∀ {name}, (t.attributes.get? name).isSome = true →
    (t₀.attributes.get? name).isSome = true ∨ ∃ e ∈ entries, e.name = name
  later : t₀.made ≤ t.made

variable {setting : Setting} {core : Engine} {entries older : List Entry}
  {base m lo : Identity} {w₀ w w' : World} {t₀ s t t' k k' : Engine} {e : Entry}
  {comes : List Entry → Entry → Prop} {v : Value}

namespace Lagging

/-- Nothing has happened yet since the state was taken. -/
theorem start (above : m ≤ k.made) (left : ∀ {i j}, w.ids i j → i < k.made)
    (right : ∀ {i j}, w.ids i j → j < t.made)
    (hit : ∀ {e v}, e ∈ entries → t.attributes.get? e.name = some v → e.value.Matches w v)
    (zone : ∀ {e i j}, e ∈ entries → w.ids i j → e.lo ≤ i → i < e.hi →
      (t.attributes.get? e.name).isSome = true) : Lagging entries m w t w k t :=
  ⟨above, left, right, hit, zone, rfl, .inl, id, .inl, le_rfl⟩

theorem still (lagging : Lagging entries m w₀ t₀ w k t) (left : k'.made = k.made)
    (right : t'.made = t.made) (attributes : t'.attributes = t.attributes) :
    Lagging entries m w₀ t₀ w k' t' where
  above := by rw [left]; exact lagging.above
  left paired := by rw [left]; exact lagging.left paired
  right paired := by rw [right]; exact lagging.right paired
  hit member read := lagging.hit member (attributes ▸ read)
  zone member paired low high := by
    rw [attributes]
    exact lagging.zone member paired low high
  handles := lagging.handles
  since := lagging.since
  kept read := by rw [attributes]; exact lagging.kept read
  caused read := lagging.caused (attributes ▸ read)
  later := by rw [right]; exact lagging.later

theorem pair_oneToOne (lagging : Lagging entries m w₀ t₀ w k t) (apart : w.OneToOne) :
    (w.pair k.made t.made).OneToOne where
  ids := by
    rintro i j i' j' (paired | ⟨rfl, rfl⟩) (other | ⟨rfl, rfl⟩)
    · exact apart.ids paired other
    · exact iff_of_false (Nat.ne_of_lt (lagging.left paired)) (Nat.ne_of_lt (lagging.right paired))
    · exact iff_of_false (Nat.ne_of_gt (lagging.left other)) (Nat.ne_of_gt (lagging.right other))
    · exact iff_of_true rfl rfl
  handles paired other := apart.handles paired other

theorem fresh (chain : Chain comes base entries m) (lagging : Lagging entries m w₀ t₀ w k t) :
    Lagging entries m w₀ t₀ (w.pair k.made t.made) { k with made := k.made + 1 }
      { t with made := t.made + 1 } where
  above := Nat.le_succ_of_le lagging.above
  left := by
    rintro i j (paired | ⟨rfl, -⟩)
    · exact Nat.lt_succ_of_lt (lagging.left paired)
    · exact Nat.lt_succ_self _
  right := by
    rintro i j (paired | ⟨-, rfl⟩)
    · exact Nat.lt_succ_of_lt (lagging.right paired)
    · exact Nat.lt_succ_self _
  hit member read := (lagging.hit member read).within (w.within_pair _ _)
  zone := by
    rintro e i j member (paired | ⟨rfl, -⟩) low high
    · exact lagging.zone member paired low high
    · have inside := Nat.lt_of_lt_of_le high (chain.hi_le member)
      exact absurd lagging.above (Nat.not_le_of_lt inside)
  handles := lagging.handles
  since := by
    rintro i j (paired | ⟨-, rfl⟩)
    · exact lagging.since paired
    · exact .inr lagging.later
  kept := lagging.kept
  caused := lagging.caused
  later := Nat.le_succ_of_le lagging.later

/-- Beside the same state, the entries may be taken up anew, or older ones: only identities that the
older ones have correspond there. -/
theorem restart (mem : ∀ d ∈ older, d ∈ entries)
    (inward : ∀ d ∈ older, ∃ x : World, d.value.Matches x d.value ∧ x.Inward lo) (made : k'.made = lo)
    (lagging : Lagging entries m w₀ t₀ w k t) :
    Lagging older lo (w.restrict lo) t (w.restrict lo) k' t := by
  refine .start (le_of_eq made.symm) (fun paired => made ▸ paired.2)
    (fun paired => lagging.right paired.1) (fun {e v} member read => ?_)
    fun member paired low high => lagging.zone (mem _ member) paired.1 low high
  obtain ⟨x, closed, inward⟩ := inward e member
  exact (lagging.hit (mem e member) read).restrict closed inward

/-! An attribute that is yet to be evaluated. -/

/-- What corresponded stays apart from what the evaluation of the attribute brings. -/
theorem join_oneToOne (lagging : Lagging entries m w₀ t₀ w k t) (member : e ∈ entries)
    (missing : t.attributes.get? e.name = none)
    (evaluated : Lagging older e.lo (w.restrict e.lo) t w' k' t')
    (within : (w.restrict e.lo).Within w') (finish : k'.made = e.hi) (apart : w.OneToOne)
    (apart' : w'.OneToOne) : (w.join w').OneToOne where
  ids := by
    have cross {i j i' j' : Identity} (old : w.ids i j) (new : w'.ids i' j') : i = i' ↔ j = j' := by
      rcases evaluated.since new with known | later
      · exact apart.ids old known.1
      · refine iff_of_false ?_ (Nat.ne_of_lt (Nat.lt_of_lt_of_le (lagging.right old) later))
        rintro rfl
        by_cases low : i < e.lo
        · have same := (apart'.ids (within.ids ⟨old, low⟩) new).1 rfl
          exact Nat.ne_of_lt (Nat.lt_of_lt_of_le (lagging.right old) later) same
        · have has := lagging.zone member old (Nat.not_lt.1 low) (finish ▸ evaluated.left new)
          simp [missing] at has
    rintro i j i' j' (first | first) (second | second)
    · exact apart.ids first second
    · exact cross first second
    · rw [eq_comm, cross second first, eq_comm]
    · exact apart'.ids first second
  handles := apart.handles

/-- What corresponded in the evaluation of the attribute corresponds after it. -/
theorem within_join (evaluated : Lagging older lo (w.restrict lo) t w' k' t') :
    w'.Within (w.join w') :=
  ⟨.inr, fun paired => by rw [evaluated.handles] at paired; exact paired⟩

theorem attributes_joined (evaluated : Lagging older lo (w.restrict lo) t w' k' t') {name other : String}
    (before : (t.attributes.get? other).isSome = true) :
    ((t'.attributes.set name v).get? other).isSome = true := by
  obtain ⟨u, read⟩ := Option.isSome_iff_exists.1 before
  rw [Named.get?_set]
  split
  · rfl
  · rw [evaluated.kept read]
    rfl

/-- The attribute comes out as its entry says, and is kept from then on. -/
theorem joined (chain : Chain comes base entries m) (lagging : Lagging entries m w₀ t₀ w k t)
    (member : e ∈ entries) (origin : Chain.Origin comes base entries older e)
    (missing : t.attributes.get? e.name = none)
    (evaluated : Lagging older e.lo (w.restrict e.lo) t w' k' t') (finish : k'.made = e.hi)
    (found : e.value.Matches w' v) :
    Lagging entries m w₀ t₀ (w.join w') k (keepAttribute e.name v t.readings.length t') := by
  have old : w.Within (w.join w') := ⟨.inl, id⟩
  have new := evaluated.within_join
  have inside {i j : Identity} (paired : w'.ids i j) : i < e.hi := finish ▸ evaluated.left paired
  have keeps : (keepAttribute e.name v t.readings.length t').attributes = t'.attributes.set e.name v :=
    rfl
  exact {
    above := lagging.above
    left := by
      rintro i j (paired | paired)
      · exact lagging.left paired
      · exact Nat.lt_of_lt_of_le (inside paired) (Nat.le_trans (chain.hi_le member) lagging.above)
    right := by
      rintro i j (paired | paired)
      · exact Nat.lt_of_lt_of_le (lagging.right paired) evaluated.later
      · exact evaluated.right paired
    hit := by
      intro d u listed read
      rw [keeps, Named.get?_set] at read
      split at read
      · rename_i same
        cases read
        obtain rfl := chain.unique member listed same
        exact found.within new
      · have known : (t'.attributes.get? d.name).isSome = true := by rw [read]; rfl
        rcases evaluated.caused known with before | ⟨d', listed', same⟩
        · obtain ⟨u', read'⟩ := Option.isSome_iff_exists.1 before
          have kept := evaluated.kept read'
          rw [read] at kept
          cases kept
          exact (lagging.hit listed read').within old
        · obtain rfl := chain.unique listed (origin.mem _ listed') same
          exact (evaluated.hit listed' read).within new
    zone := by
      rintro d i j listed (paired | paired) low high
      · exact evaluated.attributes_joined (lagging.zone listed paired low high)
      · rcases origin.split d listed with listed' | rfl | after
        · rw [keeps, Named.get?_set]
          split
          · rfl
          · exact evaluated.zone listed' paired low high
        · rw [keeps, Named.get?_set, if_pos rfl]
          rfl
        · exact absurd (Nat.le_trans after low) (Nat.not_le_of_lt (inside paired))
    handles := lagging.handles
    since := by
      rintro i j (paired | paired)
      · exact lagging.since paired
      · rcases evaluated.since paired with known | later
        · exact lagging.since known.1
        · exact .inr (Nat.le_trans lagging.later later)
    kept := by
      intro name u read
      have read' := lagging.kept read
      rw [keeps, Named.get?_set, if_neg]
      · exact evaluated.kept read'
      · rintro rfl
        rw [missing] at read'
        cases read'
    caused := by
      intro name known
      rw [keeps, Named.get?_set] at known
      split at known
      · rename_i same
        exact .inr ⟨e, member, same.symm⟩
      · rcases evaluated.caused known with before | ⟨d, listed, same⟩
        · exact lagging.caused before
        · exact .inr ⟨d, origin.mem _ listed, same⟩
    later := Nat.le_trans lagging.later evaluated.later }

end Lagging

/-- The state `k`, where the attributes of the table are at hand, beside the state `t` of the engine. -/
structure Shows (core : Engine) (entries : List Entry) (m : Identity) (w₀ : World) (t₀ : Engine)
    (w : World) (k t : Engine) : Prop extends Lagging entries m w₀ t₀ w k t where
  scene : Scene w core t
  backdrop : Backdrop core k
  held : k.attributes = (core.holding entries m).attributes
  inside : ∀ {h k}, w.handles h k → h < core.size
  told : t.trace = t₀.trace

namespace Shows

theorem scene_at (shows : Shows core entries m w₀ t₀ w k t) : Scene w k t :=
  shows.scene.congr shows.backdrop ⟨rfl, rfl, fun _ => rfl, fun found => ⟨_, found⟩⟩

/-- It does not matter what states hold beside. -/
theorem still (shows : Shows core entries m w₀ t₀ w k t) (left : Still k k')
    (right : Still t t') : Shows core entries m w₀ t₀ w k' t' where
  toLagging := shows.toLagging.still left.made right.made right.attributes
  scene := shows.scene.congr ⟨rfl, rfl, fun _ => rfl, fun found => ⟨_, found⟩⟩ right.backdrop
  backdrop := shows.backdrop.trans left.backdrop
  held := left.attributes.trans shows.held
  inside := shows.inside
  told := right.trace.trans shows.told

theorem fresh (table : Table setting base core entries m) (shows : Shows core entries m w₀ t₀ w k t) :
    Shows core entries m w₀ t₀ (w.pair k.made t.made) { k with made := k.made + 1 }
      { t with made := t.made + 1 } where
  toLagging := shows.toLagging.fresh table
  scene := (shows.scene.grow (shows.pair_oneToOne shows.scene.oneToOne) rfl
    (w.within_pair _ _)).congr
    ⟨rfl, rfl, fun _ => rfl, fun found => ⟨_, found⟩⟩ ⟨rfl, rfl, fun _ => rfl, fun found => ⟨_, found⟩⟩
  backdrop := shows.backdrop.trans ⟨rfl, rfl, fun _ => rfl, fun found => ⟨_, found⟩⟩
  held := shows.held
  inside := shows.inside
  told := shows.told

theorem twins (table : Table setting base core entries m) :
    Twins (Shows core entries m w₀ t₀) where
  scene := scene_at
  still := still
  fresh := fresh table

/-- Beside the same state, the table may be taken up anew, or an older one. -/
theorem restart (closed : ClosedStore base core)
    (smaller : Table setting base core older lo) (mem : ∀ d ∈ older, d ∈ entries)
    (shows : Shows core entries m w₀ t₀ w k t) :
    Shows core older lo (w.restrict lo) t (w.restrict lo) (core.holding older lo) t where
  toLagging := shows.toLagging.restart mem
    (fun _ member => ⟨_, smaller.closed member, World.below_inward (smaller.hi_le member)⟩) rfl
  scene := {
    oneToOne := shows.scene.oneToOne.restrict
    object := fun paired => (shows.scene.object paired).imp_left fun given =>
      { given with closed := fun read =>
          (given.closed read).restrict (closed given.unowned read) (World.below_inward smaller.start_le) }
    resolve := shows.scene.resolve }
  backdrop := ⟨rfl, rfl, fun _ => rfl, fun found => ⟨_, found⟩⟩
  held := rfl
  inside := shows.inside
  told := rfl

/-- The attribute comes out as the table says, and is kept from then on. -/
theorem joined (table : Table setting base core entries m)
    (shows : Shows core entries m w₀ t₀ w k t) (member : e ∈ entries)
    (origin : Chain.Origin (Arises setting core) base entries older e)
    (missing : t.attributes.get? e.name = none)
    (evaluated : Shows core older e.lo (w.restrict e.lo) t w' k' t')
    (within : (w.restrict e.lo).Within w') (finish : k'.made = e.hi) (found : e.value.Matches w' v) :
    Shows core entries m w₀ t₀ (w.join w') k (keepAttribute e.name v t.readings.length t') where
  toLagging := shows.toLagging.joined table member origin missing evaluated.toLagging finish found
  scene := (evaluated.scene.grow (shows.join_oneToOne member missing evaluated.toLagging within finish
      shows.scene.oneToOne evaluated.scene.oneToOne) evaluated.handles.symm evaluated.within_join).congr
    ⟨rfl, rfl, fun _ => rfl, fun found => ⟨_, found⟩⟩
    ⟨rfl, rfl, fun _ => rfl, fun found => ⟨_, found⟩⟩
  backdrop := shows.backdrop
  held := shows.held
  inside := shows.inside
  told := evaluated.told.trans shows.told

/-- What the one trace tells the other one told from the start. -/
theorem resolves (shows : Shows core entries m w₀ t₀ w k t)
    (resolves : Resolves w₀.flip t₀ core) : Resolves w.flip t k := by
  have handles : w.flip.handles = w₀.flip.handles := by
    unfold World.flip
    rw [shows.handles]
  intro _ _ _ _ told
  exact Resolves.congr resolves handles shows.told shows.backdrop.trace told

end Shows

/-- The state keeps attributes of the table only. -/
def Familiar (entries : List Entry) (t : Engine) : Prop :=
  ∀ {name}, (t.attributes.get? name).isSome = true → ∃ e ∈ entries, e.name = name

theorem Shows.familiar (shows : Shows core entries m w₀ t₀ w k t) (familiar : Familiar entries t₀) :
    Familiar entries t := fun known => (shows.caused known).elim familiar id

/-- What is at hand beside a state the engine reads or evaluates to the same. -/
theorem lowering (innocent : Innocent setting) (closed : ClosedStore base core)
    (table : Table setting base core entries m) (n : Nat) (start : World × Engine) :
    Following (Shows core entries m start.1 start.2) setting.shut setting
      (watchedWithin setting.shut n) (watchedWithin setting) := by
  induction size : entries.length using Nat.strong_induction_on generalizing entries m n start with
  | _ size ih =>
  subst size
  refine watchedWithin_following (R := fun start => Shows core entries m start.1 start.2)
    (fun start => Shows.twins table) (shut_plan setting).flip
    ((shut_plan setting).innocent innocent) (fun n _ start w name k t shows v k' read => ?_) n start
  obtain ⟨known, rfl⟩ := moduleAttribute_shut foreign_ne_value read
  rw [shows.held, table.get?_holding] at known
  obtain ⟨e, member, rfl, rfl⟩ := known
  cases found : t.attributes.get? e.name with
  | some v' =>
    exact ⟨v', _, w, .refl w, shows.hit member found,
      shows.still (still_recollect _ _ k) (still_recollect _ _ t), 0, fun n _ => moduleAttribute_hit found⟩
  | none =>
    -- The evaluation that made the entry is followed from here.
    obtain ⟨older, origin⟩ := table.origin member
    obtain ⟨helper, n', k₀, helperKnown, evaluated, finish, -⟩ := origin.made
    have following := ih older.length origin.shorter origin.chain n' (w.restrict e.lo, t) rfl
    have beside := shows.restart closed origin.chain origin.mem
    obtain ⟨v', t', w', within, matched, shows', enough, goes⟩ :=
      following.led.invokeHelper helper (Value.matches_thisModule.2 rfl) .nil _ _ beside _ _ evaluated
    exact ⟨v', _, w.join w', ⟨.inl, id⟩, matched.within shows'.within_join,
      (shows.joined table member origin found shows' within finish matched).still
        (still_recollect _ _ k) ⟨rfl, rfl, rfl, rfl, rfl⟩, enough, fun n deep =>
        moduleAttribute_miss found helperKnown (goes n deep)⟩

/-- What the engine evaluates is at hand in the full table. -/
theorem raising (innocent : Innocent setting) (closed : ClosedStore base core)
    (table : Table setting base core entries m) (full : Full setting base core entries) (n : Nat)
    (start : { start : World × Engine //
      Familiar entries start.2 ∧ Resolves start.1.flip start.2 core }) :
    Following (fun w s k => Shows core entries m start.1.1 start.1.2 w.flip k s) setting setting.shut
      (watchedWithin setting n) (watchedWithin setting.shut) := by
  refine watchedWithin_following
    (R := fun (start : { start : World × Engine //
        Familiar entries start.2 ∧ Resolves start.1.flip start.2 core }) w s k =>
      Shows core entries m start.1.1 start.1.2 w.flip k s)
    (fun start => {
      scene := fun shows => shows.scene_at.flip (shows.resolves start.2.2)
      still := fun shows left right => shows.still right left
      fresh := fun shows => by
        rw [World.flip_pair]
        exact shows.fresh table })
    (shut_plan setting) innocent (fun n guided start w name s k shows v s' ended => ?_) n start
  have known : ∃ e ∈ entries, e.name = name := by
    by_contra unknown
    have missing : s.attributes.get? name = none := by
      cases found : s.attributes.get? name with
      | none => rfl
      | some u => exact absurd (shows.familiar start.2.1 (by rw [found]; rfl)) unknown
    obtain ⟨helper, u, helperKnown, invoked⟩ := moduleAttribute_missed missing ended
    have beside := shows.restart closed table fun _ member => member
    have told : Resolves (w.flip.restrict m).flip s core := fun {_ _ _ _} told =>
      Resolves.congr (shows.resolves start.2.2) rfl rfl shows.backdrop.trace.symm told
    obtain ⟨b, k', w', within, matched, shows', enough, goes⟩ :=
      (guided ⟨(w.flip.restrict m, s), shows.familiar start.2.1, told⟩).led.invokeHelper helper
        (w := (w.flip.restrict m).flip) (Value.matches_thisModule.2 rfl) .nil _ _ beside _ _ invoked
    refine full ⟨name, b, m, k'.made⟩ (.cons table (fun d member same => unknown ⟨d, member, same⟩)
      ⟨helper, enough, k', helperKnown, goes enough le_rfl, rfl, ?_⟩ shows'.above)
    exact (Value.Matches.flip matched).closedBelow shows'.left shows'.inside
  obtain ⟨e, member, rfl⟩ := known
  have held : k.attributes.get? e.name = some e.value := by
    rw [shows.held, table.get?_holding]
    exact ⟨e, member, rfl, rfl⟩
  have follows := (lowering innocent closed table 0 start.1).ofModule (w := w.flip) e.name
  obtain ⟨b, t', w', within, matched, shows', enough, goes⟩ :=
    follows k s shows e.value _ (moduleAttribute_hit held)
  -- The engine ends in one way, however deep it may go.
  have further : Run.Below (moduleAttribute (watchedWithin setting n) setting e.name)
      (moduleAttribute (watchedWithin setting (max enough n)) setting e.name) :=
    ((watchedWithin_mono setting (Nat.le_max_right enough n)).heeds.moduleAttribute e.name).below
  have same := (goes _ (Nat.le_max_left enough n)).symm.trans (further.value ended)
  cases same
  exact ⟨e.value, _, w'.flip, ⟨fun paired => within.ids paired, fun paired => within.handles paired⟩,
    matched.flip, shows', 0, fun n _ => moduleAttribute_hit held⟩

/-! One evaluation after the other. -/

/-- What attributes can be evaluated to is at hand. -/
structure Basis (setting : Setting) (base : Identity) (core : Engine) (entries : List Entry)
    (m : Identity) : Prop where
  innocent : Innocent setting
  closed : ClosedStore base core
  table : Table setting base core entries m
  full : Full setting base core entries

/-- The state of the engine, between evaluations, beside the table. -/
structure Beside (core : Engine) (entries : List Entry) (m : Identity) (w : World) (t : Engine) :
    Prop where
  shows : Shows core entries m w t w (core.holding entries m) t
  familiar : Familiar entries t
  resolves : Resolves w.flip t core

/-- What corresponds after an evaluation from the one state to the other: all that did, the same objects,
and identities that are new. -/
structure Grown (w w' : World) (t t' : Engine) : Prop where
  within : w.Within w'
  oneToOne : w'.OneToOne
  handles : w'.handles = w.handles
  since : ∀ {i j}, w'.ids i j → w.ids i j ∨ t.made ≤ j
  right : ∀ {i j}, w'.ids i j → j < t'.made
  later : t.made ≤ t'.made

section
variable {α β : Type} {rel : World → α → β → Prop} {a : α} {b : β} {w' : World} {k' : Engine}

theorem Shows.grown (shows : Shows core entries m w t w' k' t') (within : w.Within w') :
    Grown w w' t t' :=
  ⟨within, shows.scene.oneToOne, shows.handles, shows.since, shows.right, shows.later⟩

theorem Beside.low (beside : Beside core entries m w t) {i j : Identity} (paired : w.ids i j) : i < m :=
  beside.shows.left paired

/-- What corresponded at the table still does when it is taken up anew. -/
theorem Beside.within (beside : Beside core entries m w t) (grown : Grown w w' t t') :
    w.Within (w'.restrict m) :=
  ⟨fun paired => ⟨grown.within.ids paired, beside.low paired⟩, grown.within.handles⟩

/-- The state may change where evaluations do not look. -/
theorem Beside.moved (beside : Beside core entries m w t) (backdrop : Backdrop t t')
    (attributes : t'.attributes = t.attributes) (made : t'.made = t.made) :
    Beside core entries m w t' where
  shows :=
    { scene := beside.shows.scene.congr ⟨rfl, rfl, fun _ => rfl, fun found => ⟨_, found⟩⟩ backdrop
      backdrop := beside.shows.backdrop
      held := rfl
      inside := beside.shows.inside
      told := rfl
      toLagging := .start le_rfl beside.shows.left (fun paired => made ▸ beside.shows.right paired)
        (fun member read => beside.shows.hit member (attributes ▸ read)) fun member paired low high => by
          rw [attributes]
          exact beside.shows.zone member paired low high }
  familiar known := beside.familiar (attributes ▸ known)
  resolves told := Resolves.congr beside.resolves rfl backdrop.trace rfl told

theorem Beside.still (beside : Beside core entries m w t) (still : Still t t') :
    Beside core entries m w t' :=
  beside.moved still.backdrop still.attributes still.made

/-- After an evaluation that was followed the table may be taken up anew. -/
theorem Basis.after (basis : Basis setting base core entries m) (beside : Beside core entries m w t)
    (shows : Shows core entries m w t w' k' t') : Beside core entries m (w'.restrict m) t' where
  shows := shows.restart basis.closed basis.table fun _ member => member
  familiar := shows.familiar beside.familiar
  resolves := fun {_ _ _ _} told => Resolves.congr (shows.resolves beside.resolves) rfl rfl
    shows.backdrop.trace.symm told

/-- What can be done at the table the engine does alike. -/
theorem Basis.lowered (basis : Basis setting base core entries m)
    (beside : Beside core entries m w t) {run : Run Engine α} {runs : Nat → Run Engine β}
    (tracked : Tracks (Shows core entries m w t) rel w run runs)
    (ended : run (core.holding entries m) = .value a k) :
    ∃ b t' w', Grown w w' t t' ∧ rel w' a b ∧ Beside core entries m (w'.restrict m) t' ∧
      ∃ enough, ∀ n, enough ≤ n → runs n t = .value b t' := by
  obtain ⟨b, t', w', within, related, shows, goes⟩ := tracked _ _ beside.shows a k ended
  exact ⟨b, t', w', shows.grown within, related, basis.after beside shows, goes⟩

/-- What the engine does can be done at the table. -/
theorem Basis.raised (basis : Basis setting base core entries m)
    (beside : Beside core entries m w t) {run : Run Engine α} {runs : Nat → Run Engine β}
    (tracked : Tracks (fun x s k => Shows core entries m w t x.flip k s) rel w.flip run runs)
    (ended : run t = .value a t') :
    ∃ (b : β) (k : Engine) (w' : World), Grown w w' t t' ∧ rel w'.flip a b ∧
      Beside core entries m (w'.restrict m) t' ∧
        ∃ n, runs n (core.holding entries m) = .value b k := by
  obtain ⟨b, k, x, within, related, shows, enough, goes⟩ := tracked _ _ beside.shows a t' ended
  refine ⟨b, k, x.flip, shows.grown ⟨within.ids, within.handles⟩, related,
    basis.after beside shows, enough, goes _ le_rfl⟩

end

end Engine

end Metamorph
