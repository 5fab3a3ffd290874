import Metamorph.Value.Key

/-! Equality of values. It is strict about types: a number never equals a text or a Boolean, and
collections of different kinds differ. Integers and Reals are equal when they stand for the same
exact number; objects, lists and complex numbers equal themselves only. Sets compare by membership,
Bags by multiplicity, the ordered kinds item by item. -/
namespace Metamorph.Value

/-- Equal keys; those of texts need not be made for it. -/
def same : Value → Value → Bool
  | .string s, .string t => s == t
  | v, w => v.key == w.key

theorem same_eq_key (v w : Value) : v.same w = (v.key == w.key) := by
  rw [Bool.eq_iff_iff]
  unfold same
  split
  · simp [key, Key.ofText_inj]
  · rfl

theorem same_iff {v w : Value} : v.same w = true ↔ v.key = w.key := by
  rw [same_eq_key, beq_iff_eq]

theorem not_same_iff {v w : Value} : v.same w = false ↔ v.key ≠ w.key := by
  rw [same_eq_key, beq_eq_false_iff_ne]

def isIn (v : Value) (items : List Value) : Bool :=
  let key := v.key
  items.any fun item => item.key == key

/-- The items whose keys are new, neither among those seen nor that of an earlier item. -/
def unseen (seen : Std.TreeSet Key) : List Value → List Value
  | [] => []
  | v :: rest =>
    let key := v.key
    if seen.contains key then unseen seen rest else v :: unseen (seen.insert key) rest

def distinct (items : List Value) : List Value := unseen ∅ items

/-- A collection of the kind, with equal items kept once where the kind asks for it. -/
def collectionOf (kind : CollectionKind) (items : List Value) : Value :=
  collection kind (if kind.unique then distinct items else items)

/-- A number, or a Boolean counted as one. -/
def numberOrTruth : Value → Option Number.Exact
  | boolean b => some (Number.exactInt (if b then 1 else 0))
  | integer n => some (Number.exactInt n)
  | real x => some (Number.exact x)
  | _ => none

mutual

/-- Looser than `same`: `true` and `false` count as `1` and `0`, and lists compare item by item.
Used to look objects up by their features. -/
def alike : Value → Value → Bool
  | .list _ items, .list _ others => alikeItems items others
  | v, w => match v.numberOrTruth, w.numberOrTruth with
    | some a, some b => a.eq b
    | none, none => v.same w
    | _, _ => false

def alikeItems : List Value → List Value → Bool
  | [], [] => true
  | x :: xs, y :: ys => alike x y && alikeItems xs ys
  | _, _ => false

end

end Metamorph.Value
