import Metamorph.Model.Store

/-! How values are read by name: the features of objects, the attributes of host objects, and the
ancestry of every type. -/
namespace Metamorph

/-- Many values are read as a Sequence. -/
def asSequence : Value → Value
  | .list _ items => .sequence items
  | v => v

/-- What is read when nothing but the host knows the value. -/
def hostAttribute (v : Value) (feature : String) : Result Value :=
  match v, feature with
  | .complex _ re _, "real" => .ok (.real re)
  | .complex _ _ im, "imag" => .ok (.real im)
  | v, feature => .error (noAttribute v.ownType feature)

namespace Store

/-- The value of a feature or attribute, many values as a list. -/
def readFeature (store : Store) (v : Value) (feature : String) : Result Value :=
  match v with
  | .object h =>
    match store.entities[h]? with
    | some (.instance cls values) => read cls values feature
    | some (.host object) => object.read feature
    | none => .error (noAttribute "" feature)
  | v => hostAttribute v feature

def navigate (store : Store) (v : Value) (feature : String) : Result Value :=
  (store.readFeature v feature).map asSequence

/-- A host object has a feature if it can be read; it fails where reading fails for another reason.
-/
def hasFeature (store : Store) (v : Value) (feature : String) : Result Bool :=
  match v with
  | .object h =>
    match store.entities[h]? with
    | some (.instance cls _) => .ok (cls.feature? feature).isSome
    | some (.host object) =>
      match object.failing.get? feature with
      | some failure => .error (.host failure)
      | none => .ok (object.attributes.has feature)
    | none => .ok false
  | v => match hostAttribute v feature with
    | .ok _ => .ok true
    | .error _ => .ok false

def ancestry (store : Store) (v : Value) : Named Nat :=
  match v.builtinAncestry? with
  | some found => found
  | none =>
    match v with
    | .object h =>
      match store.entities[h]? with
      | some (.instance cls _) => cls.ancestry
      | some (.host object) => object.ancestry
      | none => []
    | v => [(v.hostType?.getD "", 0), ("object", 1)]

end Store

end Metamorph
