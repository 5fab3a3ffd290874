import Metamorph.Proofs.Discretion
import Metamorph.Proofs.LexicalScope
import Metamorph.Proofs.Naturality
import Metamorph.Proofs.Success

/-! Runs and their twins. Two states are twins if the one looks to an evaluation as the other does, up to
the names of things. A run is tracked by others if, wherever it ends with a value from the one state, all
of those that may go deep enough end with a matching value from the twin, and leave twins. -/
namespace Metamorph

/-! Tables and environments of matching values. -/

variable {w w' : World}

theorem alike_within {items others : List Value} (found : Value.Alike w items others)
    (within : w.Within w') : Value.Alike w' items others :=
  found.imp fun _ _ found => found.within within

theorem NamedMatch.get? {table other : Named Value} (found : NamedMatch w table other)
    (name : String) : Option.Rel (Value.Matches w) (table.get? name) (other.get? name) := by
  unfold NamedMatch at found
  induction found with
  | nil => exact .none
  | @cons entry entry' _ _ first _ ih =>
    obtain ⟨key, v⟩ := entry
    obtain ⟨_, v'⟩ := entry'
    obtain ⟨rfl, first⟩ := first
    rw [Named.get?_cons, Named.get?_cons]
    split
    · exact .some first
    · exact ih

theorem NamedMatch.set {table other : Named Value} (found : NamedMatch w table other)
    {name : String} {v v' : Value} (first : v.Matches w v') :
    NamedMatch w (table.set name v) (other.set name v') := by
  unfold NamedMatch at found ⊢
  induction found with
  | nil => exact .cons ⟨rfl, first⟩ .nil
  | @cons entry entry' _ _ both rest ih =>
    obtain ⟨key, old⟩ := entry
    obtain ⟨_, old'⟩ := entry'
    obtain ⟨rfl, both⟩ := both
    rw [Named.set, Named.set]
    split
    · exact .cons ⟨rfl, first⟩ rest
    · exact .cons ⟨rfl, both⟩ ih

theorem NamedMatch.update {table other more further : Named Value} (found : NamedMatch w table other)
    (rest : NamedMatch w more further) : NamedMatch w (table.update more) (other.update further) := by
  unfold Named.update
  unfold NamedMatch at rest
  induction rest generalizing table other with
  | nil => exact found
  | @cons entry entry' _ _ both _ ih =>
    obtain ⟨same, first⟩ := both
    rw [List.foldl_cons, List.foldl_cons, ← same]
    exact ih (found.set first)

/-- What the one environment binds the other binds to something that matches. -/
def Environment.Matches (w : World) (env other : Environment) : Prop :=
  ∀ name, Option.Rel (Value.Matches w) (env.get? name) (other.get? name)

namespace Environment.Matches
variable {env other : Environment}

theorem within (found : env.Matches w other) (within : w.Within w') : env.Matches w' other := by
  intro name
  have bound := found name
  generalize env.get? name = v, other.get? name = v' at bound ⊢
  cases bound with
  | none => exact .none
  | some first => exact .some (first.within within)

theorem ofRoot {bindings others : Named Value} (found : NamedMatch w bindings others) :
    (ofRoot bindings).Matches w (ofRoot others) := by
  intro name
  have root (bindings : Named Value) :
      (Environment.ofRoot bindings).get? name = bindings.get? name := by
    simp only [Environment.get?, Environment.ofRoot, frames, List.nil_append,
      List.findSome?_singleton]
  rw [root, root]
  exact found.get? name

theorem push (found : env.Matches w other) {frame : String} {bindings others : Named Value}
    (bound : NamedMatch w bindings others) :
    (env.push frame bindings).Matches w (other.push frame others) := by
  intro name
  rw [get?_push, get?_push]
  have inner := bound.get? name
  generalize bindings.get? name = v, others.get? name = v' at inner ⊢
  cases inner with
  | none => simpa using found name
  | some first => exact .some first

theorem lookup (found : env.Matches w other) (name : String) (span : Span) :
    Brings (Value.Matches w) (env.lookup name span) (other.lookup name span) := by
  unfold Environment.lookup
  have bound := found name
  generalize env.get? name = v, other.get? name = v' at bound ⊢
  cases bound with
  | none => exact .error
  | some first => exact .ok first

end Environment.Matches

/-- The world in which two more identities correspond. -/
def World.pair (w : World) (i j : Identity) : World :=
  { w with ids := fun i' j' => w.ids i' j' ∨ i' = i ∧ j' = j }

theorem World.within_pair (w : World) (i j : Identity) : w.Within (w.pair i j) := ⟨.inl, id⟩

/-! Twins. -/
namespace Engine
open Run

/-- Both objects were made by the engine, by the same provider and of the same class. -/
structure Made (s t : Engine) (h k : Handle) (provider : Provider) (cls : Metaclass) : Prop where
  owner : s.ownerOf? (.object h) = some provider
  twinOwner : t.ownerOf? (.object k) = some provider
  entity : ∃ values, s.store.entities[h]? = some (.instance cls values)
  twinEntity : ∃ values, t.store.entities[k]? = some (.instance cls values)

/-- An object that was there before, the same in both states. Its features match themselves. -/
structure Given (w : World) (s t : Engine) (h k : Handle) : Prop where
  same : k = h
  unowned : s.ownerOf? (.object h) = none
  twinUnowned : t.ownerOf? (.object h) = none
  entity : t.store.entities[h]? = s.store.entities[h]?
  closed : ∀ {feature v}, s.store.readFeature (.object h) feature = .ok v → v.Matches w v

/-- What the one trace tells of an object the other one tells of its counterpart. -/
def Resolves (w : World) (s t : Engine) : Prop :=
  ∀ {source output rule v}, s.trace.resolve s.store source output rule = .ok v →
    ∃ h g, source = .object h ∧ v = .object g ∧ ∀ {k}, w.handles h k →
      ∃ g', w.handles g g' ∧ t.trace.resolve t.store (.object k) output rule = .ok (.object g')

/-- What an evaluation sees of the one state corresponds to what it sees of the other. -/
structure Scene (w : World) (s t : Engine) : Prop where
  oneToOne : w.OneToOne
  object : ∀ {h k}, w.handles h k → Given w s t h k ∨ ∃ provider cls, Made s t h k provider cls
  resolve : Resolves w s t

/-- Nothing changed that an evaluation sees. -/
structure Still (s s' : Engine) : Prop where
  store : s'.store = s.store
  owners : s'.owners = s.owners
  trace : s'.trace = s.trace
  attributes : s'.attributes = s.attributes
  made : s'.made = s.made

/-- A relation between states that evaluations keep, but for the attributes of the module. -/
structure Twins (R : World → Engine → Engine → Prop) : Prop where
  scene : ∀ {w s t}, R w s t → Scene w s t
  still : ∀ {w s t s' t'}, R w s t → Still s s' → Still t t' → R w s' t'
  fresh : ∀ {w s t}, R w s t → R (w.pair s.made t.made) { s with made := s.made + 1 }
    { t with made := t.made + 1 }

section
variable {R : World → Engine → Engine → Prop} {α β γ δ : Type} {rel : World → α → β → Prop}
  {rel' : World → γ → δ → Prop} {s t : Engine}

/-- Where the run ends with a value, the others that may go deep enough end with a related one, in a
world in which all that corresponded still does. -/
def TracksAt (R : World → Engine → Engine → Prop) (rel : World → α → β → Prop) (w : World)
    (s t : Engine) (run : Run Engine α) (runs : Nat → Run Engine β) : Prop :=
  ∀ a s', run s = .value a s' → ∃ b t' w', w.Within w' ∧ rel w' a b ∧ R w' s' t' ∧
    ∃ enough, ∀ n, enough ≤ n → runs n t = .value b t'

/-- The run is tracked from all twins of the world. -/
def Tracks (R : World → Engine → Engine → Prop) (rel : World → α → β → Prop) (w : World)
    (run : Run Engine α) (runs : Nat → Run Engine β) : Prop :=
  ∀ s t, R w s t → TracksAt R rel w s t run runs

/-- Results that are the same in every world. -/
abbrev same {α : Type} : World → α → α → Prop := fun _ => Eq

/-- Values that match. -/
abbrev alike : World → Value → Value → Prop := fun w u v => u.Matches w v

namespace TracksAt
variable {run : Run Engine α} {runs : Nat → Run Engine β}

theorem bind {next : α → Run Engine γ} {further : Nat → β → Run Engine δ}
    (first : TracksAt R rel w s t run runs) (rest : ∀ {w' a b}, w.Within w' → rel w' a b →
      Tracks R rel' w' (next a) fun n => further n b) :
    TracksAt R rel' w s t (run >>= next) fun n => runs n >>= further n := by
  intro c s'' ended
  obtain ⟨a, s', began, ended⟩ := bind_eq_value.1 ended
  obtain ⟨b, t', w', within, related, twins, enough, goes⟩ := first a s' began
  obtain ⟨d, t'', w'', within', related', twins', enough', goes'⟩ :=
    rest within related s' t' twins c s'' ended
  refine ⟨d, t'', w'', within.trans within', related', twins', max enough enough', fun n deep => ?_⟩
  have first := goes n (le_trans (Nat.le_max_left _ _) deep)
  exact (bind_of_value first).trans (goes' n (le_trans (Nat.le_max_right _ _) deep))

/-- A run that leaves the state as it is, tracked by others that do. -/
theorem stay {a : α} {b : β} (twins : R w s t) (related : rel w a b) (ended : run s = .value a s)
    (goes : ∀ n, runs n t = .value b t) : TracksAt R rel w s t run runs := by
  intro a' s' other
  rw [ended] at other
  cases other
  exact ⟨b, t, w, .refl w, related, twins, 0, fun n _ => goes n⟩

theorem of_failure (failed : ∀ s, ∃ fault s', run s = .failure fault s') :
    TracksAt R rel w s t run runs := by
  intro a s' ended
  obtain ⟨fault, s'', failed⟩ := failed s
  rw [failed] at ended
  cases ended

theorem congr {run' : Run Engine α} {runs' : Nat → Run Engine β} (same : run s = run' s)
    (alike : ∀ n, runs n t = runs' n t) (first : TracksAt R rel w s t run' runs') :
    TracksAt R rel w s t run runs := by
  intro a s' ended
  obtain ⟨b, t', w', within, related, twins, enough, goes⟩ := first a s' (same ▸ ended)
  exact ⟨b, t', w', within, related, twins, enough, fun n deep => (alike n).trans (goes n deep)⟩

theorem barred {p : Engine → Bool} (rest : p s = false → TracksAt R rel w s t run runs) :
    TracksAt R rel w s t (barring p >>= fun _ => run) runs := by
  intro a s' ended
  cases stops : p s with
  | true =>
    have cut : barring p s = .exhausted := by simp [barring, stops]
    rw [bind_eq_exhausted.2 (.inl cut)] at ended
    cases ended
  | false =>
    have passed : barring p s = .value () s := by simp [barring, stops]
    rw [bind_of_value passed] at ended
    exact rest stops a s' ended

theorem passing {p : Nat → Engine → Bool} (passes : ∀ n, p n t = false)
    (first : TracksAt R rel w s t run runs) :
    TracksAt R rel w s t run fun n => barring (p n) >>= fun _ => runs n := by
  refine congr rfl (fun n => ?_) first
  have passed : barring (p n) t = .value () t := by simp [barring, passes n]
  exact bind_of_value passed

/-- A result got from the states, which stay as they are. -/
theorem reading {f : Engine → Result γ} {g : Engine → Result δ} {rel' : γ → δ → Prop}
    {next : γ → Run Engine α} {further : Nat → δ → Run Engine β} (brings : Brings rel' (f s) (g t))
    (rest : ∀ c d, rel' c d → TracksAt R rel w s t (next c) fun n => further n d) :
    TracksAt R rel w s t ((Run.state >>= fun s => Run.ofResult (f s)) >>= next) fun n =>
      (Run.state >>= fun t => Run.ofResult (g t)) >>= further n := by
  intro a s' ended
  obtain ⟨c, u, read, ended⟩ := bind_eq_value.1 ended
  rw [state_bind] at read
  obtain ⟨held, rfl⟩ := ofResult_eq_value.1 read
  obtain ⟨d, held', related⟩ := brings c held
  have goes : (Run.state >>= fun t => Run.ofResult (g t)) t = Outcome.value d t :=
    ofResult_eq_value.2 ⟨held', rfl⟩
  exact congr rfl (fun n => bind_of_value goes) (rest c d related) a s' ended

end TracksAt

namespace Tracks
variable {run : Run Engine α} {runs : Nat → Run Engine β}

theorem pure {a : α} {b : β} (related : rel w a b) : Tracks R rel w (pure a) fun _ => pure b :=
  fun _ _ twins => .stay twins related rfl fun _ => rfl

theorem fail {fault : Fault} : Tracks R rel w (Run.fail fault) runs :=
  fun _ _ _ => .of_failure fun s => ⟨_, s, rfl⟩

theorem cutOff : Tracks R rel w Run.cutOff runs := fun _ _ _ _ _ ended => by cases ended

theorem bind {next : α → Run Engine γ} {further : Nat → β → Run Engine δ}
    (first : Tracks R rel w run runs) (rest : ∀ {w' a b}, w.Within w' → rel w' a b →
      Tracks R rel' w' (next a) fun n => further n b) :
    Tracks R rel' w (run >>= next) fun n => runs n >>= further n :=
  fun s t twins => (first s t twins).bind rest

/-- What follows may depend on the states. -/
theorem state {next : Engine → Run Engine α} {further : Nat → Engine → Run Engine β}
    (rest : ∀ s t, R w s t → TracksAt R rel w s t (next s) fun n => further n t) :
    Tracks R rel w (Run.state >>= next) fun n => Run.state >>= further n :=
  fun s t twins => rest s t twins

theorem ofResult {result : Result α} {other : Result β} (brings : Brings (rel w) result other) :
    Tracks R rel w (Run.ofResult result) fun _ => Run.ofResult other := by
  intro s t twins a s' ended
  obtain ⟨done, rfl⟩ := ofResult_eq_value.1 ended
  obtain ⟨b, other, related⟩ := brings a done
  exact ⟨b, t, w, .refl w, related, twins, 0, fun n _ => ofResult_eq_value.2 ⟨other, rfl⟩⟩

/-- A result got from the state. -/
theorem reading {f : Engine → Result α} {g : Engine → Result β}
    (brings : ∀ s t, R w s t → Brings (rel w) (f s) (g t)) :
    Tracks R rel w (Run.state >>= fun s => Run.ofResult (f s)) fun _ =>
      Run.state >>= fun t => Run.ofResult (g t) :=
  state fun s t twins => ofResult (brings s t twins) s t twins

theorem mapFault {change change' : Fault → Fault} (first : Tracks R rel w run runs) :
    Tracks R rel w (Run.mapFault change run) fun n => Run.mapFault change' (runs n) := by
  intro s t twins a s' ended
  obtain ⟨b, t', w', within, related, twins', enough, goes⟩ :=
    first s t twins a s' (mapFault_eq_value.1 ended)
  exact ⟨b, t', w', within, related, twins', enough, fun n deep => mapFault_eq_value.2 (goes n deep)⟩

theorem collaborate {target target' : String} {result : Result α} {other : Result β}
    (brings : Brings (rel w) result other) :
    Tracks R rel w (collaborate target result) fun _ => Engine.collaborate target' other :=
  (ofResult brings).mapFault

theorem modify (twin : Twins R) {change change' : Engine → Engine} (still : ∀ s, Still s (change s))
    (still' : ∀ s, Still s (change' s)) :
    Tracks R same w (Run.modify change) fun _ => Run.modify change' := by
  intro s t twins a s' ended
  cases ended
  exact ⟨(), _, w, .refl w, rfl, twin.still twins (still s) (still' t), 0, fun n _ => rfl⟩

/-- Runs that may go one step deeper. -/
theorem deeper (first : Tracks R rel w run fun n => runs (n + 1)) : Tracks R rel w run runs := by
  intro s t twins a s' ended
  obtain ⟨b, t', w', within, related, twins', enough, goes⟩ := first s t twins a s' ended
  refine ⟨b, t', w', within, related, twins', enough + 1, fun n deep => ?_⟩
  obtain ⟨n, rfl⟩ : ∃ k, n = k + 1 := ⟨n - 1, by omega⟩
  exact goes n (by omega)

theorem ite {c : Prop} [Decidable c] {first second : Run Engine α} {others further : Nat → Run Engine β}
    (yes : Tracks R rel w first others) (no : Tracks R rel w second further) :
    Tracks R rel w (if c then first else second) fun n => if c then others n else further n := by
  split
  · exact yes
  · exact no

end Tracks

end

/-! Iterators over bodies that are tracked. -/
section
variable {R : World → Engine → Engine → Prop} {f : Value → Run Engine Value}
  {g : Nat → Value → Run Engine Value} {items items' : List Value}

/-- The body is tracked at matching items, now and later. -/
def Elementwise (R : World → Engine → Engine → Prop) (w : World) (f : Value → Run Engine Value)
    (g : Nat → Value → Run Engine Value) : Prop :=
  ∀ {w' v v'}, w.Within w' → v.Matches w' v' → Tracks R alike w' (f v) fun n => g n v'

theorem Elementwise.within (body : Elementwise R w f g) (within : w.Within w') :
    Elementwise R w' f g :=
  fun further found => body (within.trans further) found

theorem keep_tracks (wanted : Bool) (body : Elementwise R w f g)
    (found : Value.Alike w items items') :
    Tracks R (fun w => Value.Alike w) w (Collection.keep wanted f items) fun n =>
      Collection.keep wanted (g n) items' := by
  induction items generalizing w items' with
  | nil =>
    cases found
    exact .pure .nil
  | cons x rest ih =>
    obtain _ | ⟨first, others⟩ := found
    refine .bind (body (.refl w) first) fun {w₁ v v'} within condition => ?_
    refine .bind (ih (body.within within) (alike_within others within)) fun {w₂ _ _} within' kept => ?_
    rw [condition.holds]
    refine .pure ?_
    split
    · exact .cons (first.within (within.trans within')) kept
    · exact kept

theorem keyed_tracks (body : Elementwise R w f g) (found : Value.Alike w items items') :
    Tracks R (fun w => Collection.AlikePairs w) w (Collection.keyed f items) fun n =>
      Collection.keyed (g n) items' := by
  induction items generalizing w items' with
  | nil =>
    cases found
    exact .pure .nil
  | cons x rest ih =>
    obtain _ | ⟨first, others⟩ := found
    refine .bind (body (.refl w) first) fun {w₁ v v'} within key => ?_
    refine .bind (ih (body.within within) (alike_within others within)) fun {w₂ _ _} within' pairs => ?_
    exact .pure (.cons ⟨key.within within', first.within (within.trans within')⟩ pairs)

theorem holdsForSome_tracks (body : Elementwise R w f g) (found : Value.Alike w items items') :
    Tracks R same w (Collection.holdsForSome f items) fun n =>
      Collection.holdsForSome (g n) items' := by
  induction items generalizing w items' with
  | nil =>
    cases found
    exact .pure rfl
  | cons x rest ih =>
    obtain _ | ⟨first, others⟩ := found
    refine .bind (body (.refl w) first) fun {w₁ v v'} within condition => ?_
    rw [condition.holds]
    exact .ite (.pure rfl) (ih (body.within within) (alike_within others within))

theorem holdsForAll_tracks (body : Elementwise R w f g) (found : Value.Alike w items items') :
    Tracks R same w (Collection.holdsForAll f items) fun n =>
      Collection.holdsForAll (g n) items' := by
  induction items generalizing w items' with
  | nil =>
    cases found
    exact .pure rfl
  | cons x rest ih =>
    obtain _ | ⟨first, others⟩ := found
    refine .bind (body (.refl w) first) fun {w₁ v v'} within condition => ?_
    rw [condition.holds]
    exact .ite (ih (body.within within) (alike_within others within)) (.pure rfl)

theorem holdsForOne_tracks (one : Bool) (body : Elementwise R w f g)
    (found : Value.Alike w items items') :
    Tracks R same w (Collection.holdsForOne f one items) fun n =>
      Collection.holdsForOne (g n) one items' := by
  induction items generalizing w items' one with
  | nil =>
    cases found
    exact .pure rfl
  | cons x rest ih =>
    obtain _ | ⟨first, others⟩ := found
    refine .bind (body (.refl w) first) fun {w₁ v v'} within condition => ?_
    have later (one : Bool) := ih one (body.within within) (alike_within others within)
    rw [condition.holds]
    exact .ite (.ite (.pure rfl) (later true)) (later one)

/-- The keys that were seen are those of matching values. -/
structure SeenAlike (w : World) (seen seen' : Std.TreeSet Key) (met met' : List Value) : Prop where
  matched : Value.Alike w met met'
  left : ∀ k, seen.contains k = true ↔ k ∈ met.map Value.key
  right : ∀ k, seen'.contains k = true ↔ k ∈ met'.map Value.key

theorem SeenAlike.contains {seen seen' : Std.TreeSet Key} {met met' : List Value} {v v' : Value}
    (alike : SeenAlike w seen seen' met met') (oneToOne : w.OneToOne) (found : v.Matches w v') :
    seen.contains v.key = seen'.contains v'.key := by
  rw [Bool.eq_iff_iff, alike.left, alike.right]
  exact (found.agree oneToOne).mem_iff alike.matched

theorem contains_insert_iff {seen : Std.TreeSet Key} {k key : Key} :
    (seen.insert key).contains k = true ↔ k = key ∨ seen.contains k = true := by
  rw [Std.TreeSet.contains_insert, Bool.or_eq_true, beq_iff_eq, Std.LawfulEqOrd.compare_eq_iff_eq,
    eq_comm]

theorem SeenAlike.insert {seen seen' : Std.TreeSet Key} {met met' : List Value} {v v' : Value}
    (alike : SeenAlike w seen seen' met met') (found : v.Matches w v') :
    SeenAlike w (seen.insert v.key) (seen'.insert v'.key) (v :: met) (v' :: met') where
  matched := .cons found alike.matched
  left k := by rw [contains_insert_iff, alike.left, List.map_cons, List.mem_cons]
  right k := by rw [contains_insert_iff, alike.right, List.map_cons, List.mem_cons]

theorem allDistinct_tracks (apart : ∀ {w s t}, R w s t → w.OneToOne) {seen seen' : Std.TreeSet Key} {met met' : List Value}
    (before : SeenAlike w seen seen' met met') (body : Elementwise R w f g)
    (found : Value.Alike w items items') :
    Tracks R same w (Collection.allDistinct f seen items) fun n =>
      Collection.allDistinct (g n) seen' items' := by
  induction items generalizing w items' seen seen' met met' with
  | nil =>
    cases found
    exact .pure rfl
  | cons x rest ih =>
    obtain _ | ⟨first, others⟩ := found
    refine .bind (body (.refl w) first) fun {w₁ v v'} within key => ?_
    have now : SeenAlike w₁ seen seen' met met' :=
      ⟨alike_within before.matched within, before.left, before.right⟩
    intro s t twins
    have contains := now.contains (apart twins) key
    dsimp only
    rw [contains]
    exact Tracks.ite (.pure rfl)
      (ih (now.insert key) (body.within within) (alike_within others within)) s t twins

theorem iterate_tracks (apart : ∀ {w s t}, R w s t → w.OneToOne) {typeOf typeOf' : Value → String} {op : Iterator}
    {kind : CollectionKind} (body : Elementwise R w f g) (found : Value.Alike w items items') :
    Tracks R alike w (Collection.iterate typeOf op kind items f) fun n =>
      Collection.iterate typeOf' op kind items' (g n) := by
  cases op with
  | select =>
    exact .bind (keep_tracks true body found) fun _ kept =>
      .pure (Value.matches_collection.2 ⟨_, kept, rfl⟩)
  | reject =>
    exact .bind (keep_tracks false body found) fun _ kept =>
      .pure (Value.matches_collection.2 ⟨_, kept, rfl⟩)
  | collect =>
    have collects : Tracks R (fun w => Value.Alike w) w (Collection.collect f items) fun n =>
        Collection.collect (g n) items' :=
      .bind (keyed_tracks body found) fun _ pairs => .pure (Collection.collected_alike pairs)
    refine .bind collects fun _ collected => ?_
    exact .pure (Value.matches_collection.2 ⟨_, collected, rfl⟩)
  | «exists» =>
    exact .bind (holdsForSome_tracks body found) fun _ same => .pure (by simp [same])
  | «forAll» =>
    exact .bind (holdsForAll_tracks body found) fun _ same => .pure (by simp [same])
  | one =>
    exact .bind (holdsForOne_tracks false body found) fun _ same => .pure (by simp [same])
  | any =>
    refine .bind (keep_tracks true body found) fun _ kept => ?_
    match kept with
    | .nil => exact .fail
    | .cons first .nil => exact .pure first
    | .cons _ (.cons _ _) => exact .fail
  | isUnique =>
    have nothing : SeenAlike w ∅ ∅ [] [] := ⟨.nil, fun k => by simp, fun k => by simp⟩
    exact .bind (allDistinct_tracks apart nothing body found) fun _ same => .pure (by simp [same])
  | sortedBy =>
    refine .bind (keyed_tracks body found) fun _ pairs => ?_
    split
    · rename_i sortable
      obtain ⟨keys, sortable'⟩ := Collection.sortable_alike pairs.keys sortable
      rw [sortable']
      exact .pure (Value.matches_collection.2 ⟨_, Collection.sortByKeys_alike pairs keys, rfl⟩)
    · exact .fail

end

end Engine
end Metamorph
