import Metamorph.Proofs.Keeping
import Metamorph.Proofs.Refusal

/-! The attributes of the module while rules are refused. A state may have attributes at hand already. Those
that it does not have are stocked beside them, each evaluated with those before it at hand. What is evaluated
later, in whatever order, comes to what is evaluated where all of these are at hand. -/
namespace Metamorph

namespace World
variable {bound limit : Identity}

/-- All objects, and identities below a bound, each corresponding to itself. -/
def upTo (bound : Identity) : World := ⟨fun i j => i = j ∧ i < bound, Eq⟩

theorem upTo_oneToOne : (upTo bound).OneToOne :=
  ⟨fun ⟨same, _⟩ ⟨same', _⟩ => by rw [same, same'], fun same same' => by rw [same, same']⟩

theorem upTo_inward (lower : bound ≤ limit) : (upTo bound).Inward limit :=
  ⟨fun ⟨same, less⟩ => ⟨same, Nat.lt_of_lt_of_le less lower⟩, id⟩

end World

/-- What matches in a world of all objects whose identities are bounded has bounded identities. -/
theorem Value.Matches.upTo {w : World} {u v : Value} {bound : Identity} (found : u.Matches w v)
    (oneToOne : w.OneToOne) (ids : ∀ {i j}, w.ids i j → i < bound) : u.Matches (.upTo bound) u := by
  refine (found.through found.flip).within ⟨?_, ?_⟩
  · rintro i k ⟨j, paired, other⟩
    exact ⟨(oneToOne.ids paired other).2 rfl, ids paired⟩
  · rintro h g ⟨k, paired, other⟩
    exact (oneToOne.handles paired other).2 rfl

theorem NamedMatch.restrict {w x : World} {values : Named Value} {limit : Identity}
    (found : NamedMatch w values values) (closed : NamedMatch x values values)
    (inward : x.Inward limit) : NamedMatch (w.restrict limit) values values := by
  unfold NamedMatch at found closed ⊢
  rw [List.forall₂_same] at found closed ⊢
  exact fun entry member => ⟨rfl, (found entry member).2.restrict (closed entry member).2 inward⟩

namespace Engine
open Run

/-- The identities in what a state holds were given out before. -/
structure Grounded (s : Engine) : Prop where
  features : ∀ {h feature v}, s.store.readFeature (.object h) feature = .ok v →
    v.Matches (.upTo s.made) v
  links : ∀ link ∈ s.trace.links, link.source.Matches (.upTo s.made) link.source ∧
    NamedMatch (.upTo s.made) link.outputs link.outputs
  attributes : ∀ {name v}, s.attributes.get? name = some v → v.Matches (.upTo s.made) v

theorem Grounded.opposite {setting : Setting} {s : Engine} (grounded : Grounded s)
    (refusing : Refusing setting s) : Opposite setting (.upTo s.made) s s :=
  ⟨World.upTo_oneToOne, fun _ => rfl, rfl, rfl, rfl, refusing, grounded.features, grounded.links⟩

/-- The state with the attributes beside its own, where so many identities are given out. -/
def stocked (s : Engine) (entries : List Entry) (made : Identity) : Engine :=
  { s with attributes := (entries.map fun e => (e.name, e.value)) ++ s.attributes, made }

/-- The attribute, which is not at hand, comes to the value with the others at hand. -/
def Yields (setting : Setting) (s : Engine) (older : List Entry) (e : Entry) : Prop :=
  s.attributes.get? e.name = none ∧
  ∃ helper n k, (setting.helpers.module.get? e.name).filter (·.isAttribute) = some helper ∧
    invokeHelper (evaluateWithin setting.shut n) setting.shut helper setting.handle []
      (s.stocked older e.lo) = .value e.value k ∧ k.made = e.hi ∧
    e.value.Matches (.upTo e.hi) e.value

/-- What attributes come to when each is evaluated with those before it at hand. -/
def Stock (setting : Setting) (s : Engine) : List Entry → Identity → Prop :=
  Chain (Yields setting s) s.made

/-- All attributes that can be evaluated are in stock. -/
def Plenty (setting : Setting) (s : Engine) (entries : List Entry) : Prop :=
  ∀ e : Entry, ¬ Stock setting s (e :: entries) e.hi

variable {setting setting' : Setting} {s t t₀ t' k k' : Engine} {entries older : List Entry}
  {m lo : Identity} {w w₀ w' : World} {e : Entry} {v : Value} {name : String}

theorem evaluated_foreign {n : Nat} {env : Environment} {kind : String} {loc : Location} :
    evaluateWithin setting n env (.foreign kind loc) s ≠ .value v t := by
  cases n with
  | zero => nofun
  | succ n => simp [evaluateWithin, step, Run.mapFault, Run.fail]

namespace Stock

theorem yields (stock : Stock setting s entries m) (member : e ∈ entries) :
    ∃ older, Yields setting s older e := by
  obtain ⟨older, origin⟩ := Chain.origin stock member
  exact ⟨older, origin.made⟩

theorem missing (stock : Stock setting s entries m) (member : e ∈ entries) :
    s.attributes.get? e.name = none := by
  obtain ⟨_, missing, -⟩ := stock.yields member
  exact missing

theorem closed (stock : Stock setting s entries m) (member : e ∈ entries) :
    e.value.Matches (.upTo e.hi) e.value := by
  obtain ⟨_, -, _, _, _, -, -, -, closed⟩ := stock.yields member
  exact closed

theorem start_le_lo (stock : Stock setting s entries m) (member : e ∈ entries) : s.made ≤ e.lo := by
  obtain ⟨_, origin⟩ := Chain.origin stock member
  exact origin.chain.start_le

theorem get? (stock : Stock setting s entries m) :
    (s.stocked entries m).attributes.get? name = some v ↔
      (∃ e ∈ entries, e.name = name ∧ e.value = v) ∨ s.attributes.get? name = some v := by
  rw [← Chain.get? stock]
  have split : (s.stocked entries m).attributes.get? name =
      (Named.get? (entries.map fun e => (e.name, e.value)) name).or (s.attributes.get? name) :=
    List.lookup_append
  rw [split]
  cases listed : Named.get? (entries.map fun e => (e.name, e.value)) name with
  | none => simp
  | some u =>
    obtain ⟨e, member, rfl, -⟩ := (Chain.get? stock).1 listed
    simp [stock.missing member]

theorem exists_plenty (setting : Setting) (s : Engine) :
    ∃ entries m, Stock setting s entries m ∧ Plenty setting s entries := by
  have listed {older : List Entry} {e : Entry} (yields : Yields setting s older e) :
      e.name ∈ setting.helpers.module.names := by
    obtain ⟨-, helper, n, k, known, -⟩ := yields
    obtain ⟨found, -⟩ := Option.filter_eq_some_iff.1 known
    exact List.mem_map.2 ⟨_, Named.mem_of_get? found, rfl⟩
  have start : Stock setting s [] s.made := .nil
  obtain ⟨more, m, stock, plenty, -⟩ := Chain.exists_full listed start
  exact ⟨_, m, stock, plenty⟩

end Stock

/-- The state `k`, where attributes are in stock beside those of `s`, beside the state `t`. -/
structure Reveals (setting : Setting) (s : Engine) (entries : List Entry) (m : Identity) (w₀ : World)
    (t₀ : Engine) (w : World) (k t : Engine) : Prop extends Lagging entries m w₀ t₀ w k t where
  opposite : Opposite setting w s t
  retained : Retained s k
  held : k.attributes = (s.stocked entries m).attributes
  given : ∀ {name v}, s.attributes.get? name = some v →
    ∃ v', t.attributes.get? name = some v' ∧ v.Matches w v'

namespace Reveals

theorem unmoved (reveals : Reveals setting s entries m w₀ t₀ w k t) (left : Unmoved k k')
    (right : Unmoved t t') : Reveals setting s entries m w₀ t₀ w k' t' where
  toLagging := reveals.toLagging.still left.made right.made right.attributes
  opposite := reveals.opposite.retained (.refl s) right.retained
  retained := reveals.retained.trans left.retained
  held := left.attributes.trans reveals.held
  given read := by rw [right.attributes]; exact reveals.given read

theorem fresh (stock : Stock setting s entries m)
    (reveals : Reveals setting s entries m w₀ t₀ w k t) :
    Reveals setting s entries m w₀ t₀ (w.pair k.made t.made) { k with made := k.made + 1 }
      { t with made := t.made + 1 } where
  toLagging := reveals.toLagging.fresh stock
  opposite := (reveals.opposite.grow (reveals.pair_oneToOne reveals.opposite.apart)
    (w.within_pair _ _)).retained (.refl s) ⟨rfl, rfl, rfl⟩
  retained := reveals.retained.trans ⟨rfl, rfl, rfl⟩
  held := reveals.held
  given read := by
    obtain ⟨v', known, found⟩ := reveals.given read
    exact ⟨v', known, found.within (w.within_pair _ _)⟩

/-- Beside the same state, the stock may be taken up anew, or an older one. -/
theorem restart (grounded : Grounded s) (smaller : Stock setting s older lo)
    (mem : ∀ d ∈ older, d ∈ entries) (reveals : Reveals setting s entries m w₀ t₀ w k t) :
    Reveals setting s older lo (w.restrict lo) t (w.restrict lo) (s.stocked older lo) t where
  toLagging := reveals.toLagging.restart mem
    (fun _ member => ⟨_, smaller.closed member, World.upTo_inward (Chain.hi_le smaller member)⟩) rfl
  opposite :=
    { reveals.opposite with
      apart := reveals.opposite.apart.restrict
      features := fun read => (reveals.opposite.features read).restrict (grounded.features read)
        (World.upTo_inward smaller.start_le)
      links := fun link member => by
        obtain ⟨source, outputs⟩ := reveals.opposite.links link member
        obtain ⟨closed, closed'⟩ := grounded.links link member
        have inward := World.upTo_inward (Chain.start_le smaller)
        exact ⟨source.restrict closed inward, outputs.restrict closed' inward⟩ }
  retained := ⟨rfl, rfl, rfl⟩
  held := rfl
  given read := by
    obtain ⟨v', known, found⟩ := reveals.given read
    exact ⟨v', known, found.restrict (grounded.attributes read) (World.upTo_inward smaller.start_le)⟩

/-- The attribute comes out as it is in stock, and is kept from then on. -/
theorem joined (stock : Stock setting s entries m)
    (reveals : Reveals setting s entries m w₀ t₀ w k t) (member : e ∈ entries)
    (origin : Chain.Origin (Yields setting s) s.made entries older e)
    (missing : t.attributes.get? e.name = none)
    (evaluated : Reveals setting s older e.lo (w.restrict e.lo) t w' k' t')
    (within : (w.restrict e.lo).Within w') (finish : k'.made = e.hi) (found : e.value.Matches w' v) :
    Reveals setting s entries m w₀ t₀ (w.join w') k
      (keepAttribute e.name v t.readings.length t') where
  toLagging := reveals.toLagging.joined stock member origin missing evaluated.toLagging finish found
  opposite := (evaluated.opposite.grow (reveals.join_oneToOne member missing evaluated.toLagging within
    finish reveals.opposite.apart evaluated.opposite.apart) evaluated.within_join).retained (.refl s)
      ⟨rfl, rfl, rfl⟩
  retained := reveals.retained
  held := reveals.held
  given := by
    intro name u read
    obtain ⟨u', known, found⟩ := reveals.given read
    refine ⟨u', ?_, found.within ⟨.inl, id⟩⟩
    have keeps : (keepAttribute e.name v t.readings.length t').attributes =
        t'.attributes.set e.name v := rfl
    rw [keeps, Named.get?_set, if_neg]
    · exact evaluated.kept known
    · rintro rfl
      rw [missing] at known
      cases known

theorem facing_shut (repeatable : ∀ {name native}, setting.helpers.natives.get? name = some native →
    native.Repeatable) (stock : Stock setting s entries m) :
    Facing (Reveals setting s entries m w₀ t₀) setting.shut setting where
  opposite reveals := (reveals.opposite.retained reveals.retained (.refl _)).planned (shut_plan setting)
  unmoved := unmoved
  fresh := fresh stock
  plan := (shut_plan setting).flip
  natives := repeatable

theorem facing (repeatable : ∀ {name native}, setting.helpers.natives.get? name = some native →
    native.Repeatable) (stock : Stock setting s entries m) :
    Facing (fun w t k => Reveals setting s entries m w₀ t₀ w.flip k t) setting setting.shut where
  opposite reveals := (reveals.opposite.retained reveals.retained (.refl _)).flip
  unmoved reveals left right := reveals.unmoved right left
  fresh reveals := by
    rw [World.flip_pair]
    exact reveals.fresh stock
  plan := shut_plan setting
  natives := repeatable

end Reveals

/-- What is in stock beside a state the engine reads or evaluates to the same. -/
theorem Stock.lowering (repeatable : ∀ {name native}, setting.helpers.natives.get? name = some native →
    native.Repeatable) (grounded : Grounded s) (stock : Stock setting s entries m) (n : Nat)
    (start : World × Engine) :
    Pursuing (Reveals setting s entries m start.1 start.2) setting.shut setting
      (evaluateWithin setting.shut n) (evaluateWithin setting) := by
  induction size : entries.length using Nat.strong_induction_on generalizing entries m n start with
  | _ size ih =>
  subst size
  refine evaluateWithin_pursuing (R := fun start => Reveals setting s entries m start.1 start.2)
    (fun start => Reveals.facing_shut repeatable stock) (fun n _ start w name k t reveals v k' read => ?_)
    n start
  obtain ⟨known, rfl⟩ := moduleAttribute_shut evaluated_foreign read
  have hit {v' : Value} (found : t.attributes.get? name = some v') (matched : v.Matches w v') :
      ∃ b t' w', w.Within w' ∧ alike w' v b ∧
        Reveals setting s entries m start.1 start.2 w' (recollect name v k) t' ∧ ∃ enough, ∀ n,
          enough ≤ n → moduleAttribute (evaluateWithin setting n) setting name t = .value b t' :=
    ⟨v', _, w, .refl w, matched, reveals.unmoved ⟨still_recollect _ _ k, rfl⟩
      ⟨still_recollect _ _ t, rfl⟩, 0, fun n _ => moduleAttribute_hit found⟩
  rw [reveals.held, stock.get?] at known
  rcases known with ⟨e, member, rfl, rfl⟩ | own
  · cases found : t.attributes.get? e.name with
    | some v' => exact hit found (reveals.hit member found)
    | none =>
      -- The evaluation that made the entry is followed from here.
      obtain ⟨older, origin⟩ := Chain.origin stock member
      obtain ⟨-, helper, n', k₀, helperKnown, evaluated, finish, -⟩ := origin.made
      have pursuing := ih older.length origin.shorter origin.chain n' (w.restrict e.lo, t) rfl
      have beside := reveals.restart grounded origin.chain origin.mem
      obtain ⟨v', t', w', within, matched, reveals', enough, goes⟩ :=
        pursuing.led.invokeHelper helper (Value.matches_thisModule.2 rfl) .nil _ _ beside _ _ evaluated
      exact ⟨v', _, w.join w', ⟨.inl, id⟩, matched.within reveals'.within_join,
        (reveals.joined stock member origin found reveals' within finish matched).unmoved
          ⟨still_recollect _ _ k, rfl⟩ ⟨⟨rfl, rfl, rfl, rfl, rfl⟩, rfl⟩, enough, fun n deep =>
          moduleAttribute_miss found helperKnown (goes n deep)⟩
  · obtain ⟨v', found, matched⟩ := reveals.given own
    exact hit found matched

/-- The state keeps attributes only that are at hand where they are in stock. -/
def Covered (s : Engine) (entries : List Entry) (t : Engine) : Prop :=
  ∀ {name}, (t.attributes.get? name).isSome = true →
    (∃ e ∈ entries, e.name = name) ∨ (s.attributes.get? name).isSome = true

theorem Reveals.covered (reveals : Reveals setting s entries m w₀ t₀ w k t)
    (covered : Covered s entries t₀) : Covered s entries t :=
  fun known => (reveals.caused known).elim covered .inl

/-- What the engine evaluates is at hand where there is plenty in stock. -/
theorem Stock.raising (repeatable : ∀ {name native}, setting.helpers.natives.get? name = some native →
    native.Repeatable) (grounded : Grounded s) (stock : Stock setting s entries m)
    (plenty : Plenty setting s entries) (n : Nat)
    (start : { start : World × Engine // Covered s entries start.2 }) :
    Pursuing (fun w t k => Reveals setting s entries m start.1.1 start.1.2 w.flip k t) setting
      setting.shut (evaluateWithin setting n) (evaluateWithin setting.shut) := by
  refine evaluateWithin_pursuing
    (R := fun (start : { start : World × Engine // Covered s entries start.2 }) w t k =>
      Reveals setting s entries m start.1.1 start.1.2 w.flip k t)
    (fun start => Reveals.facing repeatable stock)
    (fun n pursued start w name t k reveals v t' ended => ?_) n start
  cases held : k.attributes.get? name with
  | some u =>
    have follows := (lowering repeatable grounded stock 0 start.1).ofModule (w := w.flip) name
    obtain ⟨b, t'', w', within, matched, reveals', enough, goes⟩ :=
      follows k t reveals u _ (moduleAttribute_hit held)
    -- The engine ends in one way, however deep it may go.
    have further : Run.Below (moduleAttribute (evaluateWithin setting n) setting name)
        (moduleAttribute (evaluateWithin setting (max enough n)) setting name) :=
      ((evaluateWithin_approximates setting (Nat.le_max_right enough n)).heeds.moduleAttribute name).below
    have same := (goes _ (Nat.le_max_left enough n)).symm.trans (further.value ended)
    cases same
    exact ⟨u, _, w'.flip, ⟨fun paired => within.ids paired, fun paired => within.handles paired⟩,
      matched.flip, reveals', 0, fun n _ => moduleAttribute_hit held⟩
  | none =>
    exfalso
    rw [reveals.held] at held
    have unlisted (e : Entry) (member : e ∈ entries) : e.name ≠ name := by
      rintro rfl
      rw [stock.get?.2 (.inl ⟨e, member, rfl, rfl⟩)] at held
      cases held
    have own : s.attributes.get? name = none := by
      cases known : s.attributes.get? name with
      | none => rfl
      | some u => rw [stock.get?.2 (.inr known)] at held; cases held
    have missing : t.attributes.get? name = none := by
      cases known : t.attributes.get? name with
      | none => rfl
      | some u =>
        rcases reveals.covered start.2 (by rw [known]; rfl) with ⟨e, member, same⟩ | has
        · exact absurd same (unlisted e member)
        · simp [own] at has
    obtain ⟨helper, u, helperKnown, invoked⟩ := moduleAttribute_missed missing ended
    have beside := reveals.restart grounded stock fun _ member => member
    obtain ⟨b, k', w', within, matched, reveals', enough, goes⟩ :=
      (pursued ⟨(w.flip.restrict m, t), reveals.covered start.2⟩).led.invokeHelper helper
        (w := (w.flip.restrict m).flip) (Value.matches_thisModule.2 rfl) .nil _ _ beside _ _ invoked
    refine plenty ⟨name, b, m, k'.made⟩ (.cons stock unlisted
      ⟨own, helper, enough, k', helperKnown, goes enough le_rfl, rfl, ?_⟩ reveals'.above)
    exact (Value.Matches.flip matched).upTo reveals'.opposite.apart reveals'.left

/-! One evaluation after the other. -/

/-- Rules are refused in the state, natives answer alike, and all that attributes can be evaluated to is in
stock. -/
structure Provision (setting : Setting) (s : Engine) (entries : List Entry) (m : Identity) : Prop where
  repeatable : ∀ {name native}, setting.helpers.natives.get? name = some native → native.Repeatable
  refusing : Refusing setting s
  grounded : Grounded s
  stock : Stock setting s entries m
  plenty : Plenty setting s entries

/-- The state of the engine, between evaluations, beside the stock. -/
structure Backed (setting : Setting) (s : Engine) (entries : List Entry) (m : Identity) (w : World)
    (t : Engine) : Prop where
  reveals : Reveals setting s entries m w t w (s.stocked entries m) t
  covered : Covered s entries t

/-- What is done with evaluators that come to the same comes to the same. -/
structure Uniform {α : Type} (task : Evaluator → Setting → Run Engine α) : Prop where
  tracks : ∀ {R : World → Engine → Engine → Prop} {setting setting' : Setting} {self : Evaluator}
    {family : Nat → Evaluator} {w : World}, Pursuing R setting setting' self family →
      Tracks R same w (task self setting) fun n => task (family n) setting'

/-- What is done where attributes are in stock comes to the result. -/
def AmountsTo {α : Type} (setting : Setting) (s : Engine) (entries : List Entry) (m : Identity)
    (task : Evaluator → Setting → Run Engine α) (a : α) : Prop :=
  ∃ depth k, task (evaluateWithin setting.shut depth) setting.shut (s.stocked entries m) = .value a k

namespace Provision
variable {α : Type} {a : α} {task : Evaluator → Setting → Run Engine α}

theorem backed (provision : Provision setting s entries m) :
    Backed setting s entries m (.upTo s.made) s where
  reveals := {
    opposite := provision.grounded.opposite provision.refusing
    retained := ⟨rfl, rfl, rfl⟩
    held := rfl
    given := fun read => ⟨_, read, provision.grounded.attributes read⟩
    toLagging := by
      refine .start le_rfl (fun paired => Nat.lt_of_lt_of_le paired.2 (Chain.start_le provision.stock))
        (fun paired => paired.1 ▸ paired.2) (fun {e v} member read => ?_)
        fun {e i j} member paired low _ => ?_
      · rw [provision.stock.missing member] at read
        cases read
      · have before := Nat.le_trans (provision.stock.start_le_lo member) low
        exact absurd before (Nat.not_le_of_lt paired.2) }
  covered := .inr

/-- What the engine does can be done where attributes are in stock. -/
theorem amounts (provision : Provision setting s entries m) (uniform : Uniform task)
    (backed : Backed setting s entries m w t) {n : Nat}
    (ended : task (evaluateWithin setting n) setting t = .value a t') :
    AmountsTo setting s entries m task a ∧ ∃ w', Backed setting s entries m w' t' := by
  have pursuing := Stock.raising provision.repeatable provision.grounded provision.stock
    provision.plenty n ⟨(w, t), backed.covered⟩
  obtain ⟨_, k, w', within, rfl, reveals, depth, goes⟩ :=
    uniform.tracks (w := w.flip) pursuing t _ backed.reveals a t' ended
  exact ⟨⟨depth, k, goes depth le_rfl⟩, _, reveals.restart provision.grounded provision.stock
    fun _ member => member, reveals.covered backed.covered⟩

/-- What can be done where attributes are in stock the engine does alike. -/
theorem goes (provision : Provision setting s entries m) (uniform : Uniform task)
    (backed : Backed setting s entries m w t) (settled : AmountsTo setting s entries m task a) :
    ∃ t' w', Backed setting s entries m w' t' ∧ ∃ enough, ∀ n, enough ≤ n →
      task (evaluateWithin setting n) setting t = .value a t' := by
  obtain ⟨depth, k, ended⟩ := settled
  have pursuing := Stock.lowering provision.repeatable provision.grounded provision.stock depth (w, t)
  obtain ⟨_, t', w', within, rfl, reveals, goes⟩ :=
    uniform.tracks pursuing _ t backed.reveals a k ended
  exact ⟨t', _, ⟨reveals.restart provision.grounded provision.stock fun _ member => member,
    reveals.covered backed.covered⟩, goes⟩

end Provision

theorem exists_provision (repeatable : ∀ {name native}, setting.helpers.natives.get? name = some native →
    native.Repeatable) (refusing : Refusing setting s) (grounded : Grounded s) :
    ∃ entries m, Provision setting s entries m := by
  obtain ⟨entries, m, stock, plenty⟩ := Stock.exists_plenty setting s
  exact ⟨entries, m, repeatable, refusing, grounded, stock, plenty⟩

end Engine
end Metamorph
