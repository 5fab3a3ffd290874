import Metamorph.Collection.Iteration

/-! What relates the bodies of an iterator relates the iterators. A relation between runs, of one monad or of
two, need only hold for values and for faults and go on from one run to the next, since every iterator is
built of its body in this way. -/
namespace Metamorph.Collection

/-- A relation between families of runs. -/
structure BodyRelation (ι κ : Type) (m n : Type → Type) [Monad m] [Monad n] [MonadExceptOf Fault m]
    [MonadExceptOf Fault n] where
  Relates : {α : Type} → (ι → m α) → (κ → n α) → Prop
  pure : ∀ {α : Type} (a : α), Relates (fun _ => Pure.pure a) (fun _ => Pure.pure a)
  fail : ∀ {α : Type} (fault : Fault),
    Relates (fun _ => (throw fault : m α)) (fun _ => (throw fault : n α))
  bind : ∀ {α β : Type} {run : ι → m α} {other : κ → n α} {next : ι → α → m β}
    {further : κ → α → n β}, Relates run other →
    (∀ a, Relates (fun i => next i a) (fun k => further k a)) →
    Relates (fun i => run i >>= next i) (fun k => other k >>= further k)

namespace BodyRelation
variable {ι κ : Type} {m n : Type → Type} [Monad m] [Monad n] [MonadExceptOf Fault m]
  [MonadExceptOf Fault n] (R : BodyRelation ι κ m n) {f : ι → Value → m Value} {g : κ → Value → n Value}
  {items : List Value}

section
variable (body : ∀ v ∈ items, R.Relates (fun i => f i v) (fun k => g k v))
include body

theorem keep (wanted : Bool) :
    R.Relates (fun i => Collection.keep wanted (f i) items)
      (fun k => Collection.keep wanted (g k) items) := by
  induction items with
  | nil => exact R.pure []
  | cons x rest ih =>
    obtain ⟨first, others⟩ := List.forall_mem_cons.1 body
    apply R.bind first
    intro v
    apply R.bind (ih others)
    intro found
    exact R.pure _

theorem keyed :
    R.Relates (fun i => Collection.keyed (f i) items) (fun k => Collection.keyed (g k) items) := by
  induction items with
  | nil => exact R.pure []
  | cons x rest ih =>
    obtain ⟨first, others⟩ := List.forall_mem_cons.1 body
    apply R.bind first
    intro key
    apply R.bind (ih others)
    intro pairs
    exact R.pure _

theorem holdsForSome :
    R.Relates (fun i => Collection.holdsForSome (f i) items)
      (fun k => Collection.holdsForSome (g k) items) := by
  induction items with
  | nil => exact R.pure false
  | cons x rest ih =>
    obtain ⟨first, others⟩ := List.forall_mem_cons.1 body
    apply R.bind first
    intro v
    split
    · exact R.pure true
    · exact ih others

theorem holdsForAll :
    R.Relates (fun i => Collection.holdsForAll (f i) items)
      (fun k => Collection.holdsForAll (g k) items) := by
  induction items with
  | nil => exact R.pure true
  | cons x rest ih =>
    obtain ⟨first, others⟩ := List.forall_mem_cons.1 body
    apply R.bind first
    intro v
    split
    · exact ih others
    · exact R.pure false

theorem holdsForOne (one : Bool) :
    R.Relates (fun i => Collection.holdsForOne (f i) one items)
      (fun k => Collection.holdsForOne (g k) one items) := by
  induction items generalizing one with
  | nil => exact R.pure one
  | cons x rest ih =>
    obtain ⟨first, others⟩ := List.forall_mem_cons.1 body
    apply R.bind first
    intro v
    split
    · split
      · exact R.pure false
      · exact ih others true
    · exact ih others one

theorem allDistinct (seen : Std.TreeSet Key) :
    R.Relates (fun i => Collection.allDistinct (f i) seen items)
      (fun k => Collection.allDistinct (g k) seen items) := by
  induction items generalizing seen with
  | nil => exact R.pure true
  | cons x rest ih =>
    obtain ⟨first, others⟩ := List.forall_mem_cons.1 body
    apply R.bind first
    intro v
    dsimp only
    split
    · exact R.pure false
    · exact ih others _

variable (f g) in
/-- Iterators are related where their bodies are for the items that they are given. -/
theorem iterate (typeOf : Value → String) (op : Iterator) (kind : CollectionKind) :
    R.Relates (fun i => Collection.iterate typeOf op kind items (f i))
      (fun k => Collection.iterate typeOf op kind items (g k)) := by
  unfold Collection.iterate
  cases op with
  | select | reject => exact R.bind (R.keep body _) fun found => R.pure _
  | collect => exact R.bind (R.bind (R.keyed body) fun pairs => R.pure _) fun values => R.pure _
  | «exists» => exact R.bind (R.holdsForSome body) fun answer => R.pure _
  | «forAll» => exact R.bind (R.holdsForAll body) fun answer => R.pure _
  | one => exact R.bind (R.holdsForOne body false) fun answer => R.pure _
  | any =>
    apply R.bind (R.keep body true)
    intro found
    split
    · exact R.pure _
    · exact R.fail _
  | isUnique => exact R.bind (R.allDistinct body ∅) fun answer => R.pure _
  | sortedBy =>
    apply R.bind (R.keyed body)
    intro pairs
    split
    · exact R.pure _
    · exact R.fail _

end

end BodyRelation

end Metamorph.Collection
