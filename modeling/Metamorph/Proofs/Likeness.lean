import Metamorph.Proofs.Twin

/-! Traces that tell the same. Where the links for matching sources have matching outputs, matching values
are resolved and replaced alike. -/
namespace Metamorph

namespace Value

theorem eq_of_key_object {v : Value} {h : Handle} (same : v.key = (Value.object h).key) : v = .object h := by
  obtain ⟨tag, own, other⟩ := tags_of_key same
  cases v with
  | object g => simpa [key] using same
  | collection kind items => cases kind <;> simp_all [tags]
  | _ => simp_all [tags]

end Value

variable {w : World} {trace other : Trace} {v v' : Value}

theorem NamedMatch.flip {table further : Named Value} (found : NamedMatch w table further) :
    NamedMatch w.flip further table :=
  List.Forall₂.flip (found.imp fun _ _ both => ⟨both.1.symm, both.2.flip⟩)

theorem NamedMatch.has {table further : Named Value} (found : NamedMatch w table further)
    (name : String) : further.has name = table.has name := by
  unfold NamedMatch at found
  unfold Named.has
  induction found with
  | nil => rfl
  | cons both _ ih => rw [List.any_cons, List.any_cons, ih, both.1]

/-- The links are of the same rule and kind, and their outputs match. -/
structure LinkAlike (w : World) (link other : TraceLink) : Prop where
  rule : other.rule = link.rule
  kind : other.kind = link.kind
  outputs : NamedMatch w link.outputs other.outputs

theorem LinkAlike.defaultTarget? {link further : TraceLink} (like : LinkAlike w link further) :
    Option.Rel (Value.Matches w) link.defaultTarget? further.defaultTarget? := by
  have outputs := like.outputs
  unfold NamedMatch at outputs
  unfold TraceLink.defaultTarget?
  generalize link.outputs = table, further.outputs = table' at outputs
  cases outputs with
  | nil => exact .none
  | cons both _ => exact .some both.2

/-- The one trace tells of a value what the other one tells of a matching value. -/
def TraceAlike (w : World) (trace other : Trace) : Prop :=
  ∀ v v' : Value, v.Matches w v' → List.Forall₂ (LinkAlike w) (trace.linksFor v) (other.linksFor v')

namespace TraceAlike

theorem flip (alike : TraceAlike w trace other) : TraceAlike w.flip other trace := by
  intro v v' found
  refine List.Forall₂.flip ((alike _ _ found.flip).imp fun _ _ link => ?_)
  exact ⟨link.rule.symm, link.kind.symm, link.outputs.flip⟩

variable (alike : TraceAlike w trace other)
include alike

theorem candidates (found : v.Matches w v') (output : String) (rule : Option String) :
    List.Forall₂ (LinkAlike w) (trace.candidates v output rule) (other.candidates v' output rule) := by
  refine List.rel_filter (fun link link' like => ?_) (alike _ _ found)
  dsimp only
  rw [like.outputs.has, like.rule]

theorem matchedLink? (found : v.Matches w v') :
    Option.Rel (LinkAlike w) (trace.matchedLink? v) (other.matchedLink? v') := by
  have links := alike _ _ found
  unfold Trace.matchedLink?
  generalize trace.linksFor v = told, other.linksFor v' = told' at links
  induction links with
  | nil => exact .none
  | cons like _ ih =>
    rw [List.find?_cons, List.find?_cons, like.kind]
    split
    · exact .some like
    · exact ih

theorem replacement (found : v.Matches w v') :
    Brings (Value.Matches w) (trace.replacement v) (other.replacement v') := by
  have targets : Option.Rel (Option.Rel (Value.Matches w))
      ((trace.matchedLink? v).map TraceLink.defaultTarget?)
      ((other.matchedLink? v').map TraceLink.defaultTarget?) := by
    have link := alike.matchedLink? found
    generalize trace.matchedLink? v = known, other.matchedLink? v' = known' at link
    cases link with
    | none => exact .none
    | some like => exact .some like.defaultTarget?
  unfold Trace.replacement
  generalize (trace.matchedLink? v).map TraceLink.defaultTarget? = target,
    (other.matchedLink? v').map TraceLink.defaultTarget? = target' at targets
  cases targets with
  | none => exact .ok found
  | some inner =>
    cases inner with
    | none => exact .error
    | @some u u' target =>
      cases target using Value.Matches.cases with
      | undefined => exact .ok found
      | _ => exact .ok ‹_›

/-- What is handed to a feature is replaced alike, in nested collections too. -/
theorem implicitTarget (oneToOne : w.OneToOne) (found : v.Matches w v') :
    Brings (Value.Matches w) (Engine.implicitTarget trace v) (Engine.implicitTarget other v') := by
  have single {u u' : Value} (found : u.Matches w u') (left : Engine.implicitTarget trace u =
        if u.builtinType?.isSome then .ok u else trace.replacement u)
      (right : Engine.implicitTarget other u' =
        if u'.builtinType?.isSome then .ok u' else other.replacement u') :
      Brings (Value.Matches w) (Engine.implicitTarget trace u) (Engine.implicitTarget other u') := by
    rw [left, right, found.builtinType?]
    exact .ite (.ok found) (alike.replacement found)
  have all {items others : List Value} (paired : List.Forall₂ (fun u u' => Value.Matches w u u' ∧
      Brings (Value.Matches w) (Engine.implicitTarget trace u) (Engine.implicitTarget other u'))
        items others) :
      Brings (Value.Alike w) (Engine.implicitTargets trace items)
        (Engine.implicitTargets other others) := by
    induction paired with
    | nil => exact .ok .nil
    | cons both _ ih =>
      rw [Engine.implicitTargets, Engine.implicitTargets]
      exact both.2.bind fun _ _ first => ih.bind fun _ _ rest => .ok (.cons first rest)
  refine Value.Lifts.matched (w := w) (P := fun u u' => Brings (Value.Matches w)
    (Engine.implicitTarget trace u) (Engine.implicitTarget other u')) ?_ found
  exact {
    plain := fun {u} plain => by
      have same : u.Matches w u := (Value.matches_plain plain).2 rfl
      cases u <;> first | exact single same rfl rfl | cases plain
    complex := fun paired => single (Value.matches_complex.2 ⟨_, paired, rfl⟩) rfl rfl
    object := fun paired => single (Value.matches_object.2 ⟨_, paired, rfl⟩) rfl rfl
    collection := fun paired => by
      rw [Engine.implicitTarget, Engine.implicitTarget]
      exact (all paired).bind fun _ _ found => .ok (Value.collectionOf_matches oneToOne found)
    tuple := fun paired => single (Value.matches_tuple.2
      ⟨_, paired.imp fun _ _ both => ⟨both.1, both.2.1⟩, rfl⟩) rfl rfl
    list := fun paired => single (Value.matches_list.2
      ⟨_, paired.imp fun _ _ both => both.1, rfl⟩) rfl rfl }

end TraceAlike

/-- Sources are objects, and so is what was made of them. -/
def OfObjects (trace : Trace) : Prop :=
  ∀ link ∈ trace.links, (∃ h, link.source = .object h) ∧ ∀ entry ∈ link.outputs, ∃ g, entry.2 = .object g

/-- What the one trace resolves the other one resolves to the counterpart. -/
theorem TraceAlike.resolves {s t : Engine} (alike : TraceAlike w s.trace t.trace) (objects : OfObjects s.trace) :
    Engine.Resolves w s t := by
  intro source output rule v resolved
  unfold Trace.resolve at resolved
  split at resolved
  · cases text : s.store.cite source <;> rw [text] at resolved <;> cases resolved
  · rename_i link only
    have listed : link ∈ s.trace.candidates source output rule := only ▸ List.mem_singleton_self _
    obtain ⟨told, fits⟩ := List.mem_filter.1 listed
    obtain ⟨member, own⟩ := Trace.mem_linksFor.1 told
    obtain ⟨⟨h, object⟩, outputs⟩ := objects link member
    rw [TraceLink.isFor_iff, object] at own
    obtain rfl := Value.eq_of_key_object own.symm
    obtain ⟨has, -⟩ := Bool.and_eq_true_iff.1 fits
    obtain ⟨u, found⟩ := Named.get?_of_has has
    obtain ⟨g, made⟩ := outputs _ (Named.mem_of_get? found)
    obtain rfl : u = .object g := made
    rw [found] at resolved
    cases resolved
    refine ⟨h, g, rfl, rfl, fun {k} paired => ?_⟩
    have candidates := alike.candidates (Value.matches_object.2 ⟨k, paired, rfl⟩) output rule
    rw [only] at candidates
    obtain ⟨link', _, like, none, only'⟩ := List.forall₂_cons_left_iff.1 candidates
    obtain rfl := List.forall₂_nil_left_iff.1 none
    have entry := like.outputs.get? output
    rw [found] at entry
    obtain ⟨u', found', made⟩ : ∃ u', link'.outputs.get? output = some u' ∧
        (Value.object g).Matches w u' := by
      generalize link'.outputs.get? output = read at entry
      cases entry with
      | some made => exact ⟨_, rfl, made⟩
    obtain ⟨g', counterpart, rfl⟩ := Value.matches_object.1 made
    refine ⟨g', counterpart, ?_⟩
    unfold Trace.resolve
    rw [only']
    dsimp only
    rw [found']
    rfl
  · cases resolved

end Metamorph
