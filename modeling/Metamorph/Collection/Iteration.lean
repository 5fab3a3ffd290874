import Metamorph.Collection.Algebra
import Metamorph.Sorting

/-! Operations that evaluate a body for the items of a collection, one after the other. What the
body does is left open: any effect will do that can end in a fault. Only `true` satisfies a
condition. -/
namespace Metamorph.Collection
open Metamorph.Operation
variable {m : Type → Type} [Monad m]

/-- The items whose condition is satisfied, or those whose condition is not. -/
def keep (wanted : Bool) (p : Value → m Value) : List Value → m (List Value)
  | [] => pure []
  | x :: xs => do
    let v ← p x
    let rest ← keep wanted p xs
    pure (if v.holds == wanted then x :: rest else rest)

def keyed (f : Value → m Value) : List Value → m (List (Value × Value))
  | [] => pure []
  | x :: xs => do
    let key ← f x
    let rest ← keyed f xs
    pure ((key, x) :: rest)

/-- A value that is a collection contributes its items, any other value itself. -/
def contribution : Value → List Value
  | .collection _ items => items
  | v => [v]

def collect (f : Value → m Value) (items : List Value) : m (List Value) := do
  let pairs ← keyed f items
  pure (pairs.flatMap fun pair => contribution pair.1)

/-- Stops at the first item whose condition is satisfied. -/
def holdsForSome (p : Value → m Value) : List Value → m Bool
  | [] => pure false
  | x :: xs => do
    let v ← p x
    if v.holds then pure true else holdsForSome p xs

/-- Stops at the first item whose condition is not satisfied. -/
def holdsForAll (p : Value → m Value) : List Value → m Bool
  | [] => pure true
  | x :: xs => do
    let v ← p x
    if v.holds then holdsForAll p xs else pure false

/-- Stops at the second item whose condition is satisfied. -/
def holdsForOne (p : Value → m Value) (found : Bool) : List Value → m Bool
  | [] => pure found
  | x :: xs => do
    let v ← p x
    if v.holds then if found then pure false else holdsForOne p true xs
    else holdsForOne p found xs

/-- Stops at the first value that came before. -/
def allDistinct (f : Value → m Value) (seen : Std.TreeSet Key) : List Value → m Bool
  | [] => pure true
  | x :: xs => do
    let key := (← f x).key
    if seen.contains key then pure false else allDistinct f (seen.insert key) xs

/-- What is wrong with the keys of a sort: they have to be all numbers or all texts. The first key
that is neither is named, or the last one if each of them could be sorted by alone. -/
def unsortable? (keys : List Value) : Option Value :=
  if keys.all (·.isNumber) || keys.all (·.isString) then none
  else (keys.find? fun k => !k.isOrderable) <|> keys.getLast?

/-- What is no number has no place in the order of numbers. -/
def hasPlace : Value → Bool
  | .real x => (Number.exact x).eq (Number.exact x)
  | _ => true

/-- Items in the order of their keys; those of equal keys stay in their order. -/
def sortByKeys (pairs : List (Value × Value)) : List Value :=
  (Sorting.sort (fun a b => precedes a.1 b.1) (fun pair => hasPlace pair.1) pairs).map (·.2)

def collectKind (kind : CollectionKind) : CollectionKind :=
  if kind.ordered then .sequence else .bag

def sortKind (kind : CollectionKind) : CollectionKind :=
  if kind.unique then .orderedSet else .sequence

def iterate [MonadExceptOf Fault m] (typeOf : Value → String) (op : Iterator)
    (kind : CollectionKind) (items : List Value) (f : Value → m Value) : m Value := do
  match op with
  | .select => return .collection kind (← keep true f items)
  | .reject => return .collection kind (← keep false f items)
  | .collect => return .collection (collectKind kind) (← collect f items)
  | .exists => return .boolean (← holdsForSome f items)
  | .forAll => return .boolean (← holdsForAll f items)
  | .one => return .boolean (← holdsForOne f false items)
  | .any =>
    match ← keep true f items with
    | [item] => return item
    | found => throw (Fault.of (.noUniqueElement found.length))
  | .isUnique => return .boolean (← allDistinct f ∅ items)
  | .sortedBy =>
    let pairs ← keyed f items
    match unsortable? (pairs.map (·.1)) with
    | none => return .collection (sortKind kind) (sortByKeys pairs)
    | some key =>
      throw (Fault.typeMismatch "Integer, Real or String keys of one kind" (typeOf key)
        "'sortedBy'")

end Metamorph.Collection
