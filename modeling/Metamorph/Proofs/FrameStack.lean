import Mathlib.Data.List.Nodup
import Mathlib.Data.List.TFAE
import Metamorph.Proofs.LexicalScope
import Metamorph.Proofs.Resemblance

/-! An environment as a stack of frames. However frames were pushed and popped, a name means what the innermost
frame that binds it says, and whoever asks for it gets the same answer from a look-up, the list of visible
names and a snapshot. A frame is known by its serial number, and the pushed one that is innermost is the only
one that can be popped. -/
namespace Metamorph

namespace Named
variable {α : Type} {table : Named α} {name : String} {entry : α}

theorem has_iff : table.has name = true ↔ name ∈ table.names := by
  simp [has, names]

theorem get?_eq_none : table.get? name = none ↔ name ∉ table.names := by
  rw [← has_iff, has_eq_isSome, Option.not_isSome_iff_eq_none]

theorem get?_eq_some (once : table.names.Nodup) : table.get? name = some entry ↔ (name, entry) ∈ table :=
  ⟨mem_of_get?, get?_of_mem once⟩

end Named

namespace Environment
variable {env now : Environment} {name x : String} {serial : Nat} {v : Value}

/-- What a frame is given to bind: no name twice. -/
structure Bindings where
  table : Named Value
  once : table.names.Nodup

/-- What is done with an environment. A scope is a frame that is there while other things are done. -/
inductive Action where
  | push (name : String) (bindings : Bindings)
  | pop (serial : Nat)
  | bind (name : String) (v : Value)
  | scope (name : String) (bindings : Bindings) (within : List Action)

/-- If the frame cannot be popped, all stays as it is. -/
def popped (env : Environment) (serial : Nat) : Environment :=
  match env.pop serial with
  | .ok next => next
  | .error _ => env

mutual

/-- The frame of a scope is popped at its end in any case; what breaks off within it just leaves less to do. -/
def Action.after : Action → Environment → Environment
  | .push name bindings, env => env.push name bindings.table
  | .pop serial, env => env.popped serial
  | .bind name v, env => env.bind name v
  | .scope name bindings within, env =>
    (afterAll within (env.push name bindings.table)).popped env.nextSerial

def afterAll : List Action → Environment → Environment
  | [], env => env
  | action :: rest, env => afterAll rest (action.after env)

end

/-- What pushing, popping and binding keep. -/
structure Kept (p : Environment → Prop) : Prop where
  push : ∀ env name (bindings : Bindings), p env → p (env.push name bindings.table)
  popped : ∀ env serial, p env → p (env.popped serial)
  bind : ∀ env name v, p env → p (env.bind name v)

mutual

theorem Kept.after {p : Environment → Prop} (kept : Kept p) :
    ∀ (action : Action) {env : Environment}, p env → p (action.after env)
  | .push name bindings, env, own => kept.push env name bindings own
  | .pop serial, env, own => kept.popped env serial own
  | .bind name v, env, own => kept.bind env name v own
  | .scope name bindings within, env, own => by
    rw [Action.after]
    exact kept.popped _ _ (kept.afterAll within (kept.push env name bindings own))

theorem Kept.afterAll {p : Environment → Prop} (kept : Kept p) :
    ∀ (actions : List Action) {env : Environment}, p env → p (afterAll actions env)
  | [], _, own => own
  | action :: rest, _, own => by
    rw [Environment.afterAll]
    exact kept.afterAll rest (kept.after action own)

end

/-! Popping. -/

theorem pop_eq_ok {next : Environment} : env.pop serial = .ok next ↔
    ∃ top rest, env.inner = top :: rest ∧ top.serial = serial ∧
      next = { env with inner := rest, left := top :: env.left } := by
  unfold pop
  cases inner : env.inner with
  | nil => simp
  | cons top rest =>
    dsimp only
    split
    · rename_i same
      simp [same, eq_comm]
    · rename_i other
      simp [other]

theorem pop_refused (other : ∀ top, env.inner.head? = some top → top.serial ≠ serial) :
    ∃ message, env.pop serial = .error (.broken message) := by
  unfold pop
  cases inner : env.inner with
  | nil => exact ⟨_, rfl⟩
  | cons top rest =>
    rw [inner] at other
    exact ⟨_, if_neg (other top rfl)⟩

theorem popped_cases (env : Environment) (serial : Nat) : env.popped serial = env ∨
    ∃ top rest, env.inner = top :: rest ∧ top.serial = serial ∧
      env.popped serial = { env with inner := rest, left := top :: env.left } := by
  unfold popped
  split
  · rename_i next accepted
    obtain ⟨top, rest, inner, same, rfl⟩ := pop_eq_ok.1 accepted
    exact .inr ⟨top, rest, inner, same, rfl⟩
  · exact .inl rfl

/-! Serial numbers. -/

/-- Those of the frames, popped ones included. -/
def serials (env : Environment) : List Nat := (env.frames ++ env.left).map (·.serial)

theorem serials_popped (env : Environment) (serial : Nat) : (env.popped serial).serials.Perm env.serials := by
  rcases env.popped_cases serial with same | ⟨top, rest, inner, -, next⟩
  · rw [same]
  · rw [next, serials, serials, frames, frames, inner]
    exact List.perm_middle.map _

theorem nextSerial_popped (env : Environment) (serial : Nat) : (env.popped serial).nextSerial = env.nextSerial := by
  rcases env.popped_cases serial with same | ⟨top, rest, inner, -, next⟩
  · rw [same]
  · simp [next, nextSerial, inner]
    omega

/-- The innermost frame binds the name. -/
theorem frames_bind (env : Environment) (name : String) (v : Value) :
    ∃ top rest, env.frames = top :: rest ∧
      (env.bind name v).frames = { top with bindings := top.bindings.set name v } :: rest := by
  unfold bind frames
  cases env.inner with
  | nil => exact ⟨env.root, [], rfl, rfl⟩
  | cons top rest => exact ⟨top, rest ++ [env.root], rfl, rfl⟩

theorem serials_bind (env : Environment) (name : String) (v : Value) : (env.bind name v).serials = env.serials := by
  unfold bind serials frames
  cases env.inner <;> rfl

theorem nextSerial_bind (env : Environment) (name : String) (v : Value) :
    (env.bind name v).nextSerial = env.nextSerial := by
  unfold bind nextSerial
  cases env.inner <;> rfl

/-- No frame binds a name twice, and no two frames have one serial number, nor has any that of the next. -/
structure Orderly (env : Environment) : Prop where
  once : ∀ frame ∈ env.frames, frame.bindings.names.Nodup
  apart : env.serials.Nodup
  fresh : ∀ serial ∈ env.serials, serial < env.nextSerial

theorem orderly_ofRoot (root : Bindings) : (ofRoot root.table).Orderly where
  once := List.forall_mem_singleton.2 root.once
  apart := List.nodup_singleton _
  fresh := List.forall_mem_singleton.2 Nat.zero_lt_one

theorem orderly_kept : Kept Orderly where
  push env name bindings orderly := by
    have next : (env.push name bindings.table).nextSerial = env.nextSerial + 1 := by
      simp [push, nextSerial]
      omega
    refine ⟨List.forall_mem_cons.2 ⟨bindings.once, orderly.once⟩, ?_, ?_⟩
    · exact List.nodup_cons.2 ⟨fun known => Nat.lt_irrefl _ (orderly.fresh _ known), orderly.apart⟩
    · rw [next]
      exact List.forall_mem_cons.2 ⟨Nat.lt_succ_self _,
        fun serial known => Nat.lt_succ_of_lt (orderly.fresh serial known)⟩
  popped env serial orderly := by
    refine ⟨?_, (env.serials_popped serial).nodup_iff.2 orderly.apart, fun other known => ?_⟩
    · rcases env.popped_cases serial with same | ⟨top, rest, inner, -, next⟩
      · rw [same]
        exact orderly.once
      · intro frame member
        rw [next] at member
        apply orderly.once frame
        rw [frames, inner]
        exact List.mem_cons_of_mem top member
    · rw [nextSerial_popped]
      exact orderly.fresh other ((env.serials_popped serial).mem_iff.1 known)
  bind env name v orderly := by
    refine ⟨?_, ?_, ?_⟩
    · obtain ⟨top, rest, frames, next⟩ := env.frames_bind name v
      have once := orderly.once
      rw [frames] at once
      obtain ⟨own, others⟩ := List.forall_mem_cons.1 once
      rw [next]
      exact List.forall_mem_cons.2 ⟨Named.set_nodup own name v, others⟩
    · rw [serials_bind]
      exact orderly.apart
    · rw [serials_bind, nextSerial_bind]
      exact orderly.fresh

/-- Since the frame was pushed on the environment it is either still there, with the same frames below it, or
has been popped. -/
def Since (env : Environment) (serial : Nat) (now : Environment) : Prop :=
  (∃ above frame, now.inner = above ++ frame :: env.inner ∧ frame.serial = serial ∧ now.root = env.root) ∨
    ∃ frame ∈ now.left, frame.serial = serial

theorem since_kept (env : Environment) (serial : Nat) : Kept (Since env serial) where
  push now name bindings since := by
    refine since.imp_left ?_
    rintro ⟨above, frame, inner, same, root⟩
    exact ⟨_ :: above, frame, congrArg _ inner, same, root⟩
  popped now other since := by
    rcases now.popped_cases other with same | ⟨top, rest, inner, -, next⟩
    · rwa [same]
    · rw [next]
      rcases since with ⟨above, frame, split, same, root⟩ | ⟨frame, member, same⟩
      · rw [inner] at split
        cases above with
        | nil =>
          obtain ⟨rfl, -⟩ := List.cons.inj split
          exact .inr ⟨top, List.mem_cons_self, same⟩
        | cons first above =>
          obtain ⟨-, below⟩ := List.cons.inj split
          exact .inl ⟨above, frame, below, same, root⟩
      · exact .inr ⟨frame, List.mem_cons_of_mem top member, same⟩
  bind now name v since := by
    rcases since with ⟨above, frame, inner, same, root⟩ | popped
    · left
      unfold bind
      rw [inner]
      cases above with
      | nil => exact ⟨[], _, rfl, same, root⟩
      | cons first above => exact ⟨_ :: above, frame, rfl, same, root⟩
    · right
      unfold bind
      cases now.inner <;> exact popped

/-- When a frame that was pushed is popped, the frames are those from before it was pushed, whatever was done
in between. -/
theorem frames_of_pop {next : Environment} (orderly : env.Orderly) (bindings : Bindings) (actions : List Action)
    (accepted : (afterAll actions (env.push name bindings.table)).pop env.nextSerial = .ok next) :
    next.frames = env.frames := by
  have pushed := orderly_kept.push env name bindings orderly
  have apart := (orderly_kept.afterAll actions pushed).apart
  have start : Since env env.nextSerial (env.push name bindings.table) := .inl ⟨[], _, rfl, rfl, rfl⟩
  have since := (since_kept env env.nextSerial).afterAll actions start
  generalize afterAll actions (env.push name bindings.table) = now at *
  obtain ⟨top, rest, inner, is, rfl⟩ := pop_eq_ok.1 accepted
  rw [serials, frames, inner] at apart
  have alone := (List.nodup_cons.1 apart).1
  rcases since with ⟨above, frame, split, same, root⟩ | ⟨frame, member, same⟩
  · rw [inner] at split
    cases above with
    | nil =>
      obtain ⟨-, below⟩ := List.cons.inj split
      simp [frames, below, root]
    | cons first above =>
      obtain ⟨-, rfl⟩ := List.cons.inj split
      refine absurd (List.mem_map.2 ⟨frame, ?_, same.trans is.symm⟩) alone
      simp
  · refine absurd (List.mem_map.2 ⟨frame, ?_, same.trans is.symm⟩) alone
    simp [member]

/-! Four ways to ask for a name. -/

/-- The innermost frame that binds the name binds it to the value. -/
def Innermost (frames : List Frame) (x : String) (v : Value) : Prop :=
  ∃ inner frame outer, frames = inner ++ frame :: outer ∧ (∀ other ∈ inner, x ∉ other.bindings.names) ∧
    (x, v) ∈ frame.bindings

theorem get?_eq_some (orderly : env.Orderly) : env.get? x = some v ↔ Innermost env.frames x v := by
  simp only [get?, List.findSome?_eq_some_iff, Named.get?_eq_none, Innermost]
  have bound (inner : List Frame) (frame : Frame) (outer : List Frame)
      (split : env.frames = inner ++ frame :: outer) :
      frame.bindings.get? x = some v ↔ (x, v) ∈ frame.bindings := by
    apply Named.get?_eq_some (orderly.once frame _)
    simp [split]
  constructor
  · rintro ⟨inner, frame, outer, split, own, others⟩
    exact ⟨inner, frame, outer, split, others, (bound _ _ _ split).1 own⟩
  · rintro ⟨inner, frame, outer, split, others, own⟩
    exact ⟨inner, frame, outer, split, (bound _ _ _ split).2 own, others⟩

theorem get?_eq_none : env.get? x = none ↔ ∀ frame ∈ env.frames, x ∉ frame.bindings.names := by
  simp only [get?, List.findSome?_eq_none_iff, Named.get?_eq_none]

theorem get?_snapshot (orderly : env.Orderly) (x : String) : env.snapshot.get? x = env.get? x := by
  have of_frames (frames : List Frame) (once : ∀ frame ∈ frames, frame.bindings.names.Nodup) :
      Named.get? (frames.foldr (fun frame table => table.update frame.bindings) []) x =
        frames.findSome? (·.bindings.get? x) := by
    induction frames with
    | nil => rfl
    | cons frame rest ih =>
      obtain ⟨own, others⟩ := List.forall_mem_cons.1 once
      rw [List.foldr_cons, Named.get?_update, Named.get?_reverse own, ih others, List.findSome?_cons]
      cases frame.bindings.get? x <;> rfl
  exact of_frames env.frames orderly.once

/-- Names that are added one by one, but for those that are there already. -/
theorem exists_added (seen names : List String) : ∃ added,
    names.foldl (fun seen name => if seen.contains name then seen else seen ++ [name]) seen = seen ++ added ∧
      added.Nodup ∧ ∀ x, x ∈ added ↔ x ∈ names ∧ x ∉ seen := by
  induction names generalizing seen with
  | nil => exact ⟨[], by simp⟩
  | cons name rest ih =>
    rw [List.foldl_cons]
    by_cases known : name ∈ seen
    · obtain ⟨added, all, once, members⟩ := ih seen
      rw [if_pos (List.contains_iff_mem.2 known)]
      refine ⟨added, all, once, fun x => ?_⟩
      rw [members, List.mem_cons]
      constructor
      · exact fun new => ⟨.inr new.1, new.2⟩
      · rintro ⟨rfl | later, new⟩
        · exact absurd known new
        · exact ⟨later, new⟩
    · obtain ⟨added, all, once, members⟩ := ih (seen ++ [name])
      rw [if_neg (mt List.contains_iff_mem.1 known), all]
      refine ⟨name :: added, by simp, List.nodup_cons.2 ⟨fun again => ?_, once⟩, fun x => ?_⟩
      · simpa using ((members name).1 again).2
      · rw [List.mem_cons, members, List.mem_cons, List.mem_append, List.mem_singleton]
        by_cases same : x = name
        · simp [same, known]
        · simp [same]

theorem mem_frame_names {frames : List Frame} :
    x ∈ frames.flatMap (·.bindings.names) ↔ ∃ frame ∈ frames, x ∈ frame.bindings.names :=
  List.mem_flatMap

/-- The visible names, those of the inner frames in front. -/
theorem visibleNames_split {inner outer : List Frame} (split : env.frames = inner ++ outer) :
    ∃ near far, env.visibleNames = near ++ far ∧ (near ++ far).Nodup ∧
      (∀ x, x ∈ near ↔ ∃ frame ∈ inner, x ∈ frame.bindings.names) ∧
      ∀ x, x ∈ far ↔ (∃ frame ∈ outer, x ∈ frame.bindings.names) ∧ x ∉ near := by
  obtain ⟨near, all, once, members⟩ := exists_added [] (inner.flatMap (·.bindings.names))
  obtain ⟨far, behind, once', others⟩ := exists_added near (outer.flatMap (·.bindings.names))
  refine ⟨near, far, ?_, ?_, fun x => ?_, fun x => ?_⟩
  · rw [visibleNames, split, List.flatMap_append, List.foldl_append, all, List.nil_append, behind]
  · refine List.nodup_append.2 ⟨once, once', fun x here y there same => ?_⟩
    exact ((others y).1 there).2 (same ▸ here)
  · simpa [mem_frame_names] using members x
  · rw [others, mem_frame_names]

theorem mem_visibleNames : x ∈ env.visibleNames ↔ ∃ frame ∈ env.frames, x ∈ frame.bindings.names := by
  obtain ⟨near, far, names, -, members, others⟩ := visibleNames_split (List.append_nil env.frames).symm
  rw [names, List.mem_append, members, others]
  simp

theorem visibleNames_nodup (env : Environment) : env.visibleNames.Nodup := by
  obtain ⟨near, far, names, once, -⟩ := visibleNames_split (List.append_nil env.frames).symm
  rwa [names]

theorem isBound_iff : env.isBound x = true ↔ ∃ frame ∈ env.frames, x ∈ frame.bindings.names := by
  simp only [isBound, List.any_eq_true, Named.has_iff]

theorem exists_get? : (∃ v, env.get? x = some v) ↔ ∃ frame ∈ env.frames, x ∈ frame.bindings.names := by
  rw [← Option.isSome_iff_exists, Option.isSome_iff_ne_none, ne_eq, get?_eq_none]
  simp

theorem mem_snapshot (orderly : env.Orderly) :
    x ∈ env.snapshot.names ↔ ∃ frame ∈ env.frames, x ∈ frame.bindings.names := by
  rw [← exists_get?, ← Option.isSome_iff_exists, ← get?_snapshot orderly, ← Named.has_eq_isSome, Named.has_iff]

theorem lookup_eq_ok {span : Span} : env.lookup x span = .ok v ↔ env.get? x = some v := by
  unfold lookup
  cases env.get? x <;> simp

/-- A name is missed in an environment of the snapshot alone as in the environment itself. -/
theorem lookup_snapshot (orderly : env.Orderly) (x : String) (span : Span) :
    (ofRoot env.snapshot).lookup x span = env.lookup x span := by
  have read : (ofRoot env.snapshot).get? x = env.get? x := by
    rw [← get?_snapshot orderly]
    exact List.findSome?_singleton
  have names : (ofRoot env.snapshot).visibleNames.Perm env.visibleNames := by
    apply (List.perm_ext_iff_of_nodup (visibleNames_nodup _) (visibleNames_nodup _)).2
    intro y
    rw [mem_visibleNames, mem_visibleNames, ← mem_snapshot orderly]
    simp [ofRoot, frames]
  rw [lookup, lookup, read, Text.closeMatches_perm names]

/-- All that the environment answers agrees with the stack of its frames. -/
structure Faithful (env : Environment) : Prop where
  found : ∀ x span v, env.lookup x span = .ok v ↔ Innermost env.frames x v
  missed : ∀ x span, (∃ similar, env.lookup x span =
      .error (.diagnosed (.of (.unresolvedVariable x similar) span))) ↔
    ∀ frame ∈ env.frames, x ∉ frame.bindings.names
  bound : ∀ x span, [env.isBound x = true, x ∈ env.visibleNames, x ∈ env.snapshot.names,
    ∃ v, env.lookup x span = .ok v].TFAE
  snapshot : ∀ x span v, env.snapshot.get? x = some v ↔ env.lookup x span = .ok v
  again : ∀ x span, (ofRoot env.snapshot).lookup x span = env.lookup x span
  once : env.visibleNames.Nodup
  -- Wherever the stack is cut, the names bound on the inner side come first.
  near : ∀ inner outer, env.frames = inner ++ outer → ∃ near far, env.visibleNames = near ++ far ∧
    (∀ x, x ∈ near ↔ ∃ frame ∈ inner, x ∈ frame.bindings.names) ∧
    ∀ x ∈ far, ∀ frame ∈ inner, x ∉ frame.bindings.names
  -- A frame is known by its number, and can be popped if it is the innermost one that was pushed.
  apart : ((env.frames ++ env.left).map (·.serial)).Nodup
  pops : ∀ serial next, env.pop serial = .ok next ↔ ∃ top rest, env.inner = top :: rest ∧
    top.serial = serial ∧ next = { env with inner := rest, left := top :: env.left }
  refuses : ∀ serial, (∀ top, env.inner.head? = some top → top.serial ≠ serial) →
    (∃ message, env.pop serial = .error (.broken message)) ∧ (Action.pop serial).after env = env
  -- A frame that is pushed can be popped at once, and when it is popped, whatever was done in between, every name
  -- means what it did.
  pushed : ∀ name (bindings : Bindings), ∃ next,
    (env.push name bindings.table).pop env.nextSerial = .ok next
  restored : ∀ name (bindings : Bindings) actions next,
    (afterAll actions (env.push name bindings.table)).pop env.nextSerial = .ok next →
      next.frames = env.frames ∧ ∀ x span, next.lookup x span = env.lookup x span

end Environment

open Environment in
/-- From whatever root, and after whatever frames were pushed and popped and whatever was bound in them, the
environment is faithful to the stack of its frames. -/
theorem frames_faithful (root : Bindings) (actions : List Action) :
    (afterAll actions (ofRoot root.table)).Faithful := by
  have orderly := orderly_kept.afterAll actions (orderly_ofRoot root)
  generalize afterAll actions (ofRoot root.table) = env at orderly
  refine ⟨?_, ?_, ?_, ?_, lookup_snapshot orderly, visibleNames_nodup env, ?_, orderly.apart,
    fun serial next => pop_eq_ok, ?_, fun name bindings => ⟨_, pop_eq_ok.2 ⟨_, _, rfl, rfl, rfl⟩⟩, ?_⟩
  · intro x span v
    rw [lookup_eq_ok, get?_eq_some orderly]
  · intro x span
    rw [← get?_eq_none, lookup]
    cases env.get? x with
    | none => exact ⟨fun _ => rfl, fun _ => ⟨_, rfl⟩⟩
    | some v => simp
  · intro x span
    apply List.tfae_of_forall (∃ frame ∈ env.frames, x ∈ frame.bindings.names)
    simp [lookup_eq_ok, exists_get?, isBound_iff, mem_visibleNames, mem_snapshot orderly]
  · intro x span v
    rw [lookup_eq_ok, get?_snapshot orderly]
  · intro inner outer split
    obtain ⟨near, far, names, once, members, others⟩ := visibleNames_split split
    refine ⟨near, far, names, members, fun x behind frame member own => ?_⟩
    exact ((others x).1 behind).2 ((members x).2 ⟨frame, member, own⟩)
  · intro serial other
    obtain ⟨message, refused⟩ := pop_refused other
    refine ⟨⟨message, refused⟩, ?_⟩
    rw [Action.after, popped, refused]
  · intro name bindings actions next accepted
    have frames := frames_of_pop orderly bindings actions accepted
    refine ⟨frames, fun x span => ?_⟩
    simp only [lookup, get?, visibleNames, frames]

end Metamorph
