import Metamorph.Operation.Arithmetic
import Metamorph.Value.Display

/-! Operations on whole collections: queries, and combinations with one more value. Items keep the
order in which they are stored, whatever the kind. -/
namespace Metamorph.Collection
open Metamorph.Operation

def multiplicity (x : Value) (items : List Value) : Nat :=
  let key := x.key
  items.countP fun item => item.key == key

def includes (items : List Value) (x : Value) : Bool := x.isIn items

/-- Items that pair off with available ones, of which so many are left of every key. -/
def paired (available : Std.TreeMap Key Nat) : List Value → List Value
  | [] => []
  | x :: xs =>
    let key := x.key
    match available.getD key 0 with
    | 0 => paired available xs
    | left + 1 => x :: paired (available.insert key left) xs

def shared (items others : List Value) : List Value :=
  paired (Key.counts (others.map (·.key))) items

def without (items removed : List Value) : List Value :=
  let keys := Std.TreeSet.ofList (removed.map (·.key))
  items.filter fun item => !keys.contains item.key

def excluding (items : List Value) (x : Value) : List Value :=
  let key := x.key
  items.filter fun item => item.key != key

/-- In a kind without repeats the item moves to the front. -/
def prepend (kind : CollectionKind) (items : List Value) (x : Value) : List Value :=
  if kind.unique then x :: excluding items x else x :: items

/-- The position of the first equal item, counted from one; zero if there is none. -/
def position (items : List Value) (x : Value) : Nat :=
  let key := x.key
  match items.findIdx? fun item => item.key == key with
  | some i => i + 1
  | none => 0

/-- An Integer that has too many digits cannot be named in a message. -/
def indexText (n : Int) : Result String :=
  if (Value.integer n).isOverlong then .error (.number .textTooLong) else .ok (toString n)

def at? (typeOf : Value → String) (items : List Value) (index : Value) : Result Value :=
  match index with
  | .integer i =>
    match if 1 ≤ i then items[(i - 1).toNat]? else none with
    | some item => .ok item
    | none => do
      .error (.unsupported "at"
        ("index " ++ (← indexText i) ++ " outside 1.." ++ toString items.length))
  | v => .error (.typeMismatch "Integer" (typeOf v) "'at'")

/-- An operation between two collections has the richer of their kinds. -/
def algebra (typeOf : Value → String) (op : Combination)
    (join : List Value → List Value → List Value) (kind : CollectionKind) (items : List Value)
    (other : Value) : Result Value :=
  match other with
  | .collection otherKind others => .ok (.collectionOf (kind.richer otherKind) (join items others))
  | v => .error (.typeMismatch "Collection" (typeOf v) (inQuotes op.text))

def combine (typeOf : Value → String) (op : Combination) (kind : CollectionKind)
    (items : List Value) (argument : Value) : Result Value :=
  match op with
  | .union => algebra typeOf op (· ++ ·) kind items argument
  | .intersection => algebra typeOf op shared kind items argument
  | .difference => algebra typeOf op without kind items argument
  | .including | .append => .ok (.collectionOf kind (items ++ [argument]))
  | .excluding => .ok (.collection kind (excluding items argument))
  | .includes => .ok (.boolean (includes items argument))
  | .excludes => .ok (.boolean (!includes items argument))
  | .count => .ok (.integer (multiplicity argument items))
  | .prepend => .ok (.collection kind (prepend kind items argument))
  | .at => at? typeOf items argument
  | .indexOf => .ok (.integer (position items argument))

/-- The host's own sum of two numbers. An Integer beside a Real becomes a double first. -/
def plus : Value → Value → Result Value
  | .integer a, .integer b => .ok (.integer (a + b))
  | l, r => do .ok (.real ((← asReal l) + (← asReal r)))

/-- The sum from left to right, starting from the Integer zero. -/
def sumFrom (typeOf : Value → String) (total : Value) : List Value → Result Value
  | [] => .ok total
  | item :: rest =>
    if item.isNumber then do sumFrom typeOf (← plus total item) rest
    else .error (.typeMismatch "Integer or Real" (typeOf item) "'sum'")

mutual

/-- The items of a nested collection, those of inner ones in their place. An inner collection
without repeats drops its own repeats first. -/
def leaves : Value → List Value
  | .collection kind items =>
    let inner := leavesOfAll items
    if kind.unique then Value.distinct inner else inner
  | v => [v]

def leavesOfAll : List Value → List Value
  | [] => []
  | v :: rest => leaves v ++ leavesOfAll rest

end

def flatten (kind : CollectionKind) (items : List Value) : Value :=
  .collectionOf kind (leavesOfAll items)

/-- A collection as one of another kind. Of its own kind it stays as it is. -/
def convert (target kind : CollectionKind) (items : List Value) : Value :=
  if target = kind then .collection kind items else .collectionOf target items

def query (typeOf : Value → String) (op : Query) (kind : CollectionKind) (items : List Value) :
    Result Value :=
  match op with
  | .size => .ok (.integer items.length)
  | .isEmpty => .ok (.boolean items.isEmpty)
  | .notEmpty => .ok (.boolean !items.isEmpty)
  | .first => .ok (items.head?.getD .undefined)
  | .last => .ok (items.getLast?.getD .undefined)
  | .sum => sumFrom typeOf (.integer 0) items
  | .flatten => .ok (flatten kind items)
  | .reverse => .ok (.collection kind items.reverse)
  | .convert target => .ok (convert target kind items)

end Metamorph.Collection

namespace Metamorph.CollectionOperation

/-- An operation asked for as one of a family it may not belong to. -/
def notOf (op : CollectionOperation) (family : String) : Fault :=
  .broken (op.text ++ " is not " ++ family ++ " operation")

def asIterator : CollectionOperation → Result Iterator
  | iterator op => .ok op
  | op => .error (op.notOf "an iterator")

def asQuery : CollectionOperation → Result Query
  | query op => .ok op
  | op => .error (op.notOf "a query")

def asCombination : CollectionOperation → Result Combination
  | combination op => .ok op
  | op => .error (op.notOf "an argument")

end Metamorph.CollectionOperation
