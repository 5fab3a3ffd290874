import Metamorph.Engine.State

/-! Tables of names, and the variables a rule sees. What a binding sees at first it sees again when
it is evaluated from its snapshot. An output variable stands for the object made for it, a formal
parameter for its argument unless a variable of the same name is bound after it. -/
namespace Metamorph

namespace Named
variable {α : Type}

theorem get?_cons (name other : String) (entry : α) (rest : Named α) :
    Named.get? ((name, entry) :: rest) other =
      if other = name then some entry else rest.get? other := by
  unfold get?
  rw [List.lookup_cons]
  by_cases same : other = name
  · simp [same]
  · simp [same, beq_false_of_ne same]

theorem get?_map {β : Type} (f : α → β) (table : Named α) (name : String) :
    Named.get? (table.map fun entry => (entry.1, f entry.2)) name = (table.get? name).map f := by
  induction table with
  | nil => rfl
  | cons entry rest ih =>
    obtain ⟨key, a⟩ := entry
    rw [List.map_cons, get?_cons, get?_cons, ih]
    split <;> rfl

theorem has_map {β : Type} (f : α → β) (table : Named α) (name : String) :
    Named.has (table.map fun entry => (entry.1, f entry.2)) name = table.has name := by
  unfold has
  rw [List.any_map]
  rfl

theorem has_eq_isSome (table : Named α) (name : String) : table.has name = (table.get? name).isSome := by
  induction table with
  | nil => rfl
  | cons entry rest ih =>
    obtain ⟨key, a⟩ := entry
    rw [get?_cons, has, List.any_cons]
    by_cases same : name = key
    · simp [same]
    · rw [if_neg same, ← ih, beq_eq_false_iff_ne.2 (Ne.symm same), Bool.false_or, has]

theorem mem_of_get? {table : Named α} {name : String} {entry : α}
    (found : table.get? name = some entry) : (name, entry) ∈ table := by
  induction table with
  | nil => cases found
  | cons head rest ih =>
    obtain ⟨first, value⟩ := head
    rw [get?_cons] at found
    split at found
    · rename_i same
      cases same
      cases found
      exact List.mem_cons_self
    · exact List.mem_cons_of_mem _ (ih found)

theorem get?_of_mem_names {table : Named α} {name : String} (known : name ∈ table.names) :
    ∃ entry, table.get? name = some entry := by
  induction table with
  | nil => cases known
  | cons head rest ih =>
    obtain ⟨first, value⟩ := head
    rw [get?_cons]
    split
    · exact ⟨value, rfl⟩
    · rename_i other
      exact ih ((List.mem_cons.1 known).resolve_left other)

theorem get?_of_has {table : Named α} {name : String} (has : table.has name = true) :
    ∃ entry, table.get? name = some entry := by
  obtain ⟨entry, member, same⟩ := List.any_eq_true.1 has
  exact get?_of_mem_names (List.mem_map.2 ⟨entry, member, eq_of_beq same⟩)

theorem get?_set (table : Named α) (name other : String) (entry : α) :
    (table.set name entry).get? other = if other = name then some entry else table.get? other := by
  induction table with
  | nil => exact get?_cons name other entry []
  | cons head rest ih =>
    obtain ⟨first, old⟩ := head
    by_cases found : first = name
    · subst found
      simp only [set, if_true, get?_cons]
      split <;> rfl
    · simp only [set, found, if_false, get?_cons, ih]
      by_cases same : other = first
      · subst same
        simp [found]
      · simp [same]

theorem set_fresh {table : Named α} {name : String} (fresh : name ∉ table.names) (entry : α) :
    table.set name entry = table ++ [(name, entry)] := by
  induction table with
  | nil => rfl
  | cons head rest ih =>
    simp only [names, List.map_cons, List.mem_cons, not_or] at fresh
    simp [set, Ne.symm fresh.1, ih fresh.2]

theorem names_set (table : Named α) (name : String) (entry : α) :
    (table.set name entry).names =
      if name ∈ table.names then table.names else table.names ++ [name] := by
  induction table with
  | nil => rfl
  | cons head rest ih =>
    by_cases found : head.1 = name
    · simp [set, names, found]
    · simp only [set, found, if_false]
      change head.1 :: names (set rest name entry) = _
      rw [ih]
      by_cases known : name ∈ names rest <;> simp_all [names, eq_comm]

theorem set_nodup {table : Named α} (distinct : table.names.Nodup) (name : String) (entry : α) :
    (table.set name entry).names.Nodup := by
  rw [names_set]
  split
  · exact distinct
  · rename_i fresh
    refine List.nodup_append.2 ⟨distinct, by simp, ?_⟩
    rintro other member _ last rfl
    rw [List.mem_singleton.1 last] at member
    exact fresh member

theorem update_nodup {table : Named α} (distinct : table.names.Nodup) (more : Named α) :
    (table.update more).names.Nodup := by
  induction more generalizing table with
  | nil => exact distinct
  | cons entry rest ih => exact ih (set_nodup distinct entry.1 entry.2)

/-- A name means what the last entry says that was set under it, or else what it meant before. -/
theorem get?_update (table more : Named α) (name : String) :
    (table.update more).get? name = (Named.get? more.reverse name).or (table.get? name) := by
  induction more generalizing table with
  | nil => rfl
  | cons entry rest ih =>
    change (Named.update (table.set entry.1 entry.2) rest).get? name = _
    have last : Named.get? (rest.reverse ++ [entry]) name =
        (Named.get? rest.reverse name).or (Named.get? [entry] name) := List.lookup_append
    rw [ih, get?_set, List.reverse_cons, last, Option.or_assoc, get?_cons entry.1]
    split <;> rfl

theorem get?_of_mem {table : Named α} (distinct : table.names.Nodup) {name : String} {entry : α}
    (member : (name, entry) ∈ table) : table.get? name = some entry := by
  induction table with
  | nil => cases member
  | cons head rest ih =>
    obtain ⟨first, value⟩ := head
    obtain ⟨fresh, others⟩ := List.nodup_cons.1 distinct
    rw [get?_cons]
    rcases List.mem_cons.1 member with same | later
    · cases same
      exact if_pos rfl
    · rw [if_neg]
      · exact ih others later
      · rintro rfl
        exact fresh (List.mem_map.2 ⟨_, later, rfl⟩)

/-- In a table without repetitions no entry hides another. -/
theorem get?_reverse {table : Named α} (distinct : table.names.Nodup) (name : String) :
    Named.get? table.reverse name = table.get? name := by
  have turned : (Named.names table.reverse).Nodup := by
    rw [names, List.map_reverse]
    exact List.pairwise_reverse.2 (distinct.imp Ne.symm)
  have found {entry : α} (known : table.get? name = some entry) :
      Named.get? table.reverse name = some entry :=
    get?_of_mem turned (List.mem_reverse.2 (mem_of_get? known))
  cases known : table.get? name with
  | some entry => exact found known
  | none =>
    cases other : Named.get? table.reverse name with
    | none => rfl
    | some entry =>
      have member := List.mem_reverse.1 (mem_of_get? other)
      rw [get?_of_mem distinct member] at known
      cases known

/-- Entries with new names come at the end. -/
theorem update_fresh {table more : Named α} (distinct : (table ++ more).names.Nodup) :
    table.update more = table ++ more := by
  induction more generalizing table with
  | nil => simp [update]
  | cons entry rest ih =>
    have fresh : entry.1 ∉ table.names := by
      intro known
      simp only [names, List.map_append, List.map_cons] at distinct
      exact (List.nodup_append.1 distinct).2.2 _ known _ (by simp) rfl
    change (table.set entry.1 entry.2).update rest = _
    rw [set_fresh fresh, ih (by simpa using distinct), List.append_assoc]
    rfl

/-- The first name keeps its place. -/
theorem update_cons (name : String) (entry : α) (table more : Named α) :
    ∃ last rest, Named.update ((name, entry) :: table) more = (name, last) :: rest := by
  induction more generalizing entry table with
  | nil => exact ⟨entry, table, rfl⟩
  | cons next others ih =>
    change ∃ last rest, Named.update (Named.set ((name, entry) :: table) next.1 next.2) others = _
    by_cases same : name = next.1
    · subst same
      simp only [set, if_true]
      exact ih _ _
    · simp only [set, same, if_false]
      exact ih _ _

/-- What is asked of one entry holds of all. -/
def Each (p : α → Prop) (table : Named α) : Prop := ∀ entry ∈ table, p entry.2

namespace Each
variable {p : α → Prop} {table more : Named α} {name : String} {entry : α}

theorem get? (each : table.Each p) (found : table.get? name = some entry) : p entry :=
  each _ (mem_of_get? found)

theorem getD {default : α} (each : table.Each p) (usual : p default) :
    p ((table.get? name).getD default) := by
  cases found : table.get? name with
  | none => exact usual
  | some entry => exact each.get? found

theorem set (each : table.Each p) (own : p entry) : (table.set name entry).Each p := by
  induction table with
  | nil => exact List.forall_mem_singleton.2 own
  | cons head rest ih =>
    obtain ⟨first, others⟩ := List.forall_mem_cons.1 each
    rw [Named.set]
    split
    · exact List.forall_mem_cons.2 ⟨own, others⟩
    · exact List.forall_mem_cons.2 ⟨first, ih others⟩

theorem update (each : table.Each p) (others : more.Each p) : (table.update more).Each p := by
  unfold Named.update
  induction more generalizing table with
  | nil => exact each
  | cons head rest ih =>
    obtain ⟨first, others⟩ := List.forall_mem_cons.1 others
    exact ih (each.set first) others

theorem ofPairs (each : more.Each p) : (Named.ofPairs more).Each p := update nofun each

theorem zip {names : List String} {entries : List α} (each : ∀ entry ∈ entries, p entry) :
    Each p (names.zip entries) :=
  fun _ member => each _ (List.of_mem_zip member).2

end Each

end Named

/-- What is asked of one value holds of all that are bound. -/
def Environment.Each (p : Value → Prop) (env : Environment) : Prop :=
  ∀ frame ∈ env.frames, frame.bindings.Each p

namespace Environment.Each
variable {p : Value → Prop} {env : Environment} {bindings : Named Value} {name : String}

theorem ofRoot (each : bindings.Each p) : (Environment.ofRoot bindings).Each p :=
  List.forall_mem_singleton.2 each

theorem push (each : env.Each p) (own : bindings.Each p) : (env.push name bindings).Each p :=
  List.forall_mem_cons.2 ⟨own, each⟩

theorem get? (each : env.Each p) {v : Value} (found : env.get? name = some v) : p v := by
  obtain ⟨frame, member, bound⟩ := List.exists_of_findSome?_eq_some found
  exact (each frame member).get? bound

theorem snapshot (each : env.Each p) : env.snapshot.Each p := by
  have frames (frames : List Frame) (each : ∀ frame ∈ frames, frame.bindings.Each p) :
      Named.Each p (frames.foldr (fun frame table => table.update frame.bindings) []) := by
    induction frames with
    | nil => exact nofun
    | cons frame rest ih =>
      obtain ⟨first, others⟩ := List.forall_mem_cons.1 each
      exact (ih others).update first
  exact frames env.frames each

theorem rootEnvironment (setting : Setting) (handle : p setting.handle) (each : bindings.Each p) :
    (setting.rootEnvironment bindings).Each p :=
  ofRoot (.update (List.forall_mem_singleton.2 handle) each)

end Environment.Each

namespace Setting
variable (setting : Setting)

theorem update_handle_nodup (bindings : Named Value) :
    (Named.update [("thisModule", setting.handle)] bindings).names.Nodup :=
  Named.update_nodup (by simp [Named.names]) bindings

theorem rootEnvironment_snapshot (bindings : Named Value) :
    (setting.rootEnvironment bindings).snapshot =
      Named.update [("thisModule", setting.handle)] bindings :=
  @Named.update_fresh _ [] _ (setting.update_handle_nodup bindings)

/-- A variable means in an environment of its own what the snapshot says. -/
theorem rootEnvironment_get? (bindings : Named Value) (name : String) :
    (setting.rootEnvironment bindings).get? name =
      (setting.rootEnvironment bindings).snapshot.get? name := by
  rw [rootEnvironment_snapshot]
  exact List.findSome?_singleton

/-- A snapshot of what a rule sees is seen in full by whoever starts from it. -/
theorem rootEnvironment_again (bindings : Named Value) :
    (setting.rootEnvironment (setting.rootEnvironment bindings).snapshot).snapshot =
      (setting.rootEnvironment bindings).snapshot := by
  simp only [rootEnvironment_snapshot]
  have distinct := setting.update_handle_nodup bindings
  obtain ⟨last, rest, table⟩ := Named.update_cons "thisModule" setting.handle [] bindings
  rw [table] at distinct ⊢
  exact @Named.update_fresh _ [("thisModule", last)] rest distinct

end Setting

/-- The names a rule gives to what it is applied to. -/
abbrev Formals := List (String × Value)

namespace Setting
variable (setting : Setting)

/-- The variables that the expressions of an application see. -/
def ownScope (formals : Formals) (outputs : Outputs) : Named Value :=
  (setting.rootEnvironment ((Named.ofPairs formals).update outputs)).snapshot

theorem get?_ownScope (formals : Formals) (outputs : Outputs) (name : String) :
    (setting.ownScope formals outputs).get? name =
      (Named.get? (formals ++ outputs).reverse name).or
        (Named.get? [("thisModule", setting.handle)] name) := by
  have distinct : ((Named.ofPairs formals).update outputs).names.Nodup :=
    Named.update_nodup (@Named.update_nodup _ [] .nil formals) outputs
  have last : Named.get? (outputs.reverse ++ formals.reverse) name =
      (Named.get? outputs.reverse name).or (Named.get? formals.reverse name) := List.lookup_append
  rw [ownScope, rootEnvironment_snapshot, Named.get?_update, Named.get?_reverse distinct,
    Named.get?_update, Named.ofPairs, Named.get?_update, List.reverse_append, last,
    show Named.get? ([] : Named Value) name = none from rfl, Option.or_none]

variable {setting} {formals : Formals} {outputs : Outputs}

/-- An output variable stands for the object made for it. -/
theorem ownScope_output (distinct : outputs.names.Nodup) {output : String × Value}
    (member : output ∈ outputs) :
    (setting.ownScope formals outputs).get? output.1 = some output.2 := by
  have last : Named.get? (outputs.reverse ++ formals.reverse) output.1 =
      (Named.get? outputs.reverse output.1).or (Named.get? formals.reverse output.1) :=
    List.lookup_append
  rw [get?_ownScope, List.reverse_append, last, Named.get?_reverse distinct,
    Named.get?_of_mem distinct member]
  rfl

/-- A formal parameter stands for its argument, if no other variable of the application has its name
and stands for something else. -/
theorem ownScope_formals_iff (distinct : outputs.names.Nodup) :
    (∀ formal ∈ formals, (setting.ownScope formals outputs).get? formal.1 = some formal.2) ↔
      ∀ formal ∈ formals, ∀ other ∈ formals ++ outputs, other.1 = formal.1 → other.2 = formal.2 := by
  constructor
  · intro own formal member other present same
    have shown : (setting.ownScope formals outputs).get? other.1 = some other.2 := by
      rcases List.mem_append.1 present with formal | output
      · exact own other formal
      · exact ownScope_output distinct output
    rw [same, own formal member] at shown
    exact (Option.some.inj shown).symm
  · intro alone formal member
    have known : formal.1 ∈ Named.names (formals ++ outputs).reverse :=
      List.mem_map_of_mem (List.mem_reverse.2 (List.mem_append_left _ member))
    obtain ⟨v, found⟩ := Named.get?_of_mem_names known
    have present := List.mem_reverse.1 (Named.mem_of_get? found)
    rw [get?_ownScope, found, ← alone formal member _ present rfl]
    rfl

end Setting

end Metamorph
