import Metamorph.Fault
import Metamorph.Model.Metaclass
import Metamorph.Value.Display
import Metamorph.Value.Equality
import Metamorph.Value.Kind

/-! The objects that exist and the models that list them. A model object has a class and a value for
each feature that was set; a host object has attributes, some of which fail when they are read. -/
namespace Metamorph

/-- `lineage` names the class of the object and those it extends, nearest first. -/
structure HostObject where
  name : String
  lineage : List String
  attributes : Named Value
  failing : Named HostFailure := []

inductive Entity where
  | instance (cls : Metaclass) (values : Named Value)
  | host (object : HostObject)

structure Model where
  name : String
  metamodel : Metamodel
  members : List Handle

structure Store where
  entities : Array Entity := #[]
  models : Array Model := #[]

/-- Objects of a class without a name are called by this one. -/
def unnamedType : String := "ModelObject"

def hexText (n : Nat) : String := "0x" ++ String.ofList (Nat.toDigits 16 n)

def noAttribute (type feature : String) : Fault :=
  .host ⟨"AttributeError", "'" ++ type ++ "' object has no attribute '" ++ feature ++ "'"⟩

namespace HostObject

def type (o : HostObject) : String := o.lineage.head?.getD ""

def read (o : HostObject) (name : String) : Result Value :=
  match o.failing.get? name with
  | some failure => .error (.host failure)
  | none =>
    match o.attributes.get? name with
    | some v => .ok v
    | none => .error (noAttribute o.type name)

/-- The lineage with its positions; a name that comes again keeps its first one. -/
def ancestry (o : HostObject) : Named Nat :=
  o.lineage.zipIdx.foldl (fun found entry =>
    if found.has entry.1 then found else found ++ [entry]) []

end HostObject

namespace Store

def typeOf (store : Store) (h : Handle) : String :=
  match store.entities[h]? with
  | some (.instance cls _) => if cls.name.isEmpty then unnamedType else cls.name
  | some (.host object) => object.type
  | none => ""

/-- An object is shown by its class and its name, if that is a text, and else by its address. -/
def label (store : Store) (h : Handle) : String :=
  match store.entities[h]? with
  | some (.instance cls values) =>
    match values.get? "name" with
    | some (.string name) => "<" ++ cls.name ++ " " ++ Text.quoted name ++ ">"
    | _ => "<" ++ cls.name ++ " at " ++ hexText h ++ ">"
  | some (.host object) => "<host " ++ object.name ++ ">"
  | none => ""

/-- A text, unless an Integer in the value has too many digits for one. -/
def textOf (store : Store) (cited : Bool) (v : Value) : Result String :=
  if v.isOverlong then .error (.number .textTooLong) else .ok (v.render store.label cited)

/-- The text of a value for the reader. -/
def display (store : Store) (v : Value) : Result String := store.textOf false v

/-- The text of a value inside a message. -/
def cite (store : Store) (v : Value) : Result String := store.textOf true v

/-- What a host object, or a type, is named by. Empty values are no names. -/
def nameOf? (store : Store) : Value → Option Value
  | .type name => if name.isEmpty then none else some (.string name)
  | .object h =>
    match store.entities[h]? with
    | some (.host object) => (object.attributes.get? "name").filter (!·.isEmpty)
    | _ => none
  | _ => none

/-- What the type of an object is named by: its class, unless a host object has an attribute `meta` that
has a name. That need not be a text. -/
def saidType (store : Store) (h : Handle) : Value :=
  match store.entities[h]? with
  | some (.host object) =>
    ((object.attributes.get? "meta").bind store.nameOf?).getD (.string object.type)
  | _ => .string (store.typeOf h)

/-- What the type of a value is named by. -/
def typeTag (store : Store) : Value → Value
  | .object h => store.saidType h
  | v => .string v.ownType

/-- The name of the type of a value as a text. -/
def typeName (store : Store) (v : Value) : String :=
  match store.typeTag v with
  | .string name => name
  | tag => tag.render store.label true

/-- The entry of a value of `many` items: a list as it is, nothing for undefined, else one item. -/
def asMany : Value → Value
  | .list _ items => .listed items
  | .undefined => .listed []
  | v => .listed [v]

/-- What a feature of a class reads as when `values` were set. -/
def read (cls : Metaclass) (values : Named Value) (feature : String) : Result Value :=
  match cls.feature? feature with
  | none => .error (.of (.unknownFeature cls.name feature))
  | some f =>
    .ok (if f.many then (values.get? feature).getD (.listed []) else (values.get? feature).getD f.default)

/-- What a feature of a class holds after `v` was assigned to it. A single-valued one takes no list.
-/
def stored (cls : Metaclass) (feature : String) (v : Value) : Result Value :=
  match cls.feature? feature with
  | none => .error (.of (.unknownFeature cls.name feature))
  | some f =>
    if f.many then .ok (asMany v)
    else match v with
      | .list _ items =>
        .error (.typeMismatch "single value" (toString items.length ++ " values")
          (cls.name ++ "." ++ feature))
      | v => .ok v

/-- The value of a feature of a model object, many values as a list. -/
def get (store : Store) (h : Handle) (feature : String) : Result Value :=
  match store.entities[h]? with
  | some (.instance cls values) => read cls values feature
  | _ => .error (noAttribute (store.typeOf h) feature)

def set (store : Store) (h : Handle) (feature : String) (v : Value) : Result Store :=
  match store.entities[h]? with
  | some (.instance cls values) =>
    (stored cls feature v).map fun v =>
      { store with entities := store.entities.set! h (.instance cls (values.set feature v)) }
  | _ => .error (noAttribute (store.typeOf h) "set")

/-- A new object of a class, in no model. -/
def add (store : Store) (entity : Entity) : Handle × Store :=
  (store.entities.size, { store with entities := store.entities.push entity })

/-- A new model without objects; if it has no name it goes by that of its metamodel. -/
def addModel (store : Store) (metamodel : Metamodel) (name : String) : Nat × Store :=
  let name := if name.isEmpty then metamodel.name else name
  (store.models.size,
    { store with models := store.models.push { name, metamodel, members := [] } })

/-- The class a model creates for a type name. A qualifier has to be the name of the metamodel. -/
def creatable (model : Model) (type : String) : Result Metaclass :=
  let (qualifier, name) := splitTypeName type
  let refuse := fun reason => .error (.unsupported ("create " ++ type) reason)
  let metamodel := Text.quoted model.metamodel.name
  if qualifier.any (· != model.metamodel.name) then
    refuse ("model " ++ Text.quoted model.name ++ " conforms to " ++ metamodel)
  else
    match model.metamodel.class? name with
    | none => refuse ("metamodel " ++ metamodel ++ " has no class " ++ Text.quoted name)
    | some cls =>
      if cls.abstract then refuse ("class " ++ Text.quoted name ++ " is abstract") else .ok cls

/-- A new object without values at the end of a model. -/
def create (store : Store) (model : Nat) (type : String) : Result (Handle × Store) :=
  match store.models[model]? with
  | none => .error (.broken "no such model")
  | some m =>
    (creatable m type).map fun cls =>
      let (h, store) := store.add (.instance cls [])
      (h, { store with models := store.models.set! model { m with members := m.members ++ [h] } })

/-- Values set one after the other, up to the first that is refused. -/
def setAll (store : Store) (h : Handle) : List (String × Value) → Store × Option Fault
  | [] => (store, none)
  | (feature, v) :: rest =>
    match store.set h feature v with
    | .ok store => store.setAll h rest
    | .error fault => (store, some fault)

def members (store : Store) (model : Nat) : List Handle :=
  (store.models[model]?.map (·.members)).getD []

def conformsTo (store : Store) (h : Handle) (type : String) : Bool :=
  match store.entities[h]? with
  | some (.instance cls _) => cls.conformsTo type
  | _ => false

def instancesOf (store : Store) (model : Nat) (type : String) : List Handle :=
  (store.members model).filter (store.conformsTo · type)

/-- Whether the features of an object are like the given values, looked at in turn. -/
def resembles (store : Store) (h : Handle) : List (String × Value) → Result Bool
  | [] => .ok true
  | (feature, v) :: rest =>
    match store.get h feature with
    | .error fault => .error fault
    | .ok w => if w.alike v then store.resembles h rest else .ok false

/-- The instances of a type whose features are like the given values. -/
def find (store : Store) (model : Nat) (type : String) (features : Named Value) :
    Result (List Handle) :=
  (store.instancesOf model type).filterMapM fun h =>
    (store.resembles h features).map fun found => if found then some h else none

def modelText (m : Model) : String :=
  "Model(" ++ Text.quoted m.name ++ ", " ++ toString m.members.length ++ " objects)"

end Store

end Metamorph
