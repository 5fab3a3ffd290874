import Std.Data.TreeSet
import Metamorph.Number.Exact
import Metamorph.Value

/-! Keys of values: equal values have equal keys, other values have other keys. A key starts with a
tag for the family of the value; a part of no fixed length comes after its length, so that no key is
the beginning of another. Keys are ordered, and the key of a Set or Bag lists those of its items in
that order. -/
namespace Metamorph

abbrev Key := List Int

namespace Key

def ofText (s : String) : Key := s.length :: s.toList.map fun c => (c.toNat : Int)

theorem ofText_inj {s t : String} : ofText s = ofText t ↔ s = t := by
  have injective : Function.Injective fun c : Char => (c.toNat : Int) := fun c d h => by
    exact Char.toNat_inj.1 (Int.ofNat.inj h)
  simp +contextual [ofText, List.map_inj_right injective, String.toList_inj]

/-- One after the other, after their number. -/
def joined (keys : List Key) : Key := keys.length :: keys.flatten

/-- Integers and Reals that stand for the same number share its key. -/
def ofNumber : Number.Exact → Key
  | .finite m e =>
    let unit := Int.pow 2 (-e).toNat
    if 0 ≤ e then [2, m * Int.pow 2 e.toNat]
    else if m % unit = 0 then [2, m / unit]
    else [3, m, e]
  | .infinite negative => [4, if negative then 1 else 0]
  | .notANumber => [4, 2]

def counts (keys : List Key) : Std.TreeMap Key Nat :=
  keys.foldl (fun found key => found.insert key (found.getD key 0 + 1)) ∅

end Key

open Key in
mutual

def Value.key : Value → Key
  | .undefined => [0]
  | .boolean b => [1, if b then 1 else 0]
  | .integer n => [2, n]
  | .real x => ofNumber (Number.exact x)
  | .string s => 5 :: ofText s
  | .collection .sequence items => 6 :: joined (keysOnto [] items)
  | .collection .orderedSet items => 7 :: joined (keysOnto [] items)
  | .collection .set items => 8 :: joined (Std.TreeSet.ofList (keysOnto [] items)).toList
  | .collection .bag items =>
    9 :: joined ((counts (keysOnto [] items)).toList.map fun (key, n) => (n : Int) :: key)
  | .tuple fields => 10 :: joined (fieldKeysOnto [] fields)
  | .type name => 11 :: ofText name
  | .list identity _ => [12, identity]
  | .complex identity _ _ => [13, identity]
  | .object handle => [14, handle]
  | .thisModule _ => [15]

/-- The keys of values in front of `keys`, the last one first. -/
def keysOnto (keys : List Key) : List Value → List Key
  | [] => keys
  | v :: rest => keysOnto (v.key :: keys) rest

def fieldKeysOnto (keys : List Key) : List (String × Value) → List Key
  | [] => keys
  | (name, v) :: rest => fieldKeysOnto ((ofText name ++ v.key) :: keys) rest

end

end Metamorph
