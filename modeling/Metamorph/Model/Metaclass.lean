import Std.Data.TreeSet
import Metamorph.Named
import Metamorph.Text.Quoted
import Metamorph.Value

/-! Classes of model objects. A class has features of its own and inherits those of its supertypes;
its ancestry gives every class it conforms to with the shortest way there. -/
namespace Metamorph

structure MetaFeature where
  name : String
  many : Bool := false
  default : Value := .undefined

structure Metaclass where
  name : String
  features : List MetaFeature
  supertypes : List Metaclass
  abstract : Bool

namespace Metaclass

mutual

/-- Own features hide inherited ones, and those of an earlier supertype hide those of a later. -/
def allFeatures : Metaclass → Named MetaFeature
  | ⟨_, features, supertypes, _⟩ =>
    (inheritedFeatures supertypes).update (features.map fun f => (f.name, f))

def inheritedFeatures : List Metaclass → Named MetaFeature
  | [] => []
  | c :: rest => (inheritedFeatures rest).update c.allFeatures

end

mutual

/-- The feature of a name: the last own one, or else what the first supertype has that has any. -/
def feature? : Metaclass → String → Option MetaFeature
  | ⟨_, features, supertypes, _⟩, name =>
    (features.reverse.find? (·.name == name)).or (inherited? supertypes name)

def inherited? : List Metaclass → String → Option MetaFeature
  | [], _ => none
  | c :: rest, name => (c.feature? name).or (inherited? rest name)

end

mutual

/-- The length of the longest way up. -/
def height : Metaclass → Nat
  | ⟨_, _, supertypes, _⟩ => heights supertypes + 1

def heights : List Metaclass → Nat
  | [] => 0
  | c :: rest => max c.height (heights rest)

end

/-- The first class of every name that was not seen before, and the names seen by then. -/
def newcomers (seen : Std.TreeSet String) : List Metaclass → List Metaclass × Std.TreeSet String
  | [] => ([], seen)
  | c :: rest =>
    if seen.contains c.name then newcomers seen rest
    else
      let (more, seen) := newcomers (seen.insert c.name) rest
      (c :: more, seen)

theorem heights_append (classes others : List Metaclass) :
    heights (classes ++ others) = max (heights classes) (heights others) := by
  induction classes with
  | nil => simp [heights]
  | cons c rest ih => simp [heights, ih, Nat.max_assoc]

theorem heights_newcomers_le (seen : Std.TreeSet String) (classes : List Metaclass) :
    heights (newcomers seen classes).1 ≤ heights classes := by
  induction classes generalizing seen with
  | nil => simp [newcomers]
  | cons c rest ih =>
    rw [newcomers]
    split
    · exact Nat.le_trans (ih seen) (Nat.le_max_right ..)
    · have := ih (seen.insert c.name)
      simp only [heights]
      omega

theorem heights_supertypes_lt (c : Metaclass) : heights c.supertypes < c.height := by
  cases c
  simp [height]

/-- One step up, the longest way is one step shorter. -/
theorem heights_step_lt (c : Metaclass) (rest : List Metaclass) :
    heights ((c :: rest).flatMap (·.supertypes)) < heights (c :: rest) := by
  induction rest generalizing c with
  | nil => simpa [heights] using heights_supertypes_lt c
  | cons d rest ih =>
    have above := ih d
    have top := heights_supertypes_lt c
    rw [List.flatMap_cons, heights_append, heights]
    omega

/-- The classes of a level with their distance, then those one step up and not seen before, and so
on. -/
def climb (distance : Nat) (level : List Metaclass) (seen : Std.TreeSet String) : Named Nat :=
  match level with
  | [] => []
  | c :: rest =>
    let next := newcomers seen ((c :: rest).flatMap (·.supertypes))
    (c :: rest).map (fun c => (c.name, distance)) ++ climb (distance + 1) next.1 next.2
termination_by heights level
decreasing_by
  exact Nat.lt_of_le_of_lt (heights_newcomers_le ..) (heights_step_lt ..)

/-- Names of the class and its ancestors with their distances, nearest first. -/
def ancestry (c : Metaclass) : Named Nat := climb 0 [c] (.ofList [c.name])

def conformsTo (c : Metaclass) (type : String) : Bool := c.ancestry.has (className type)

def text (c : Metaclass) : String := "MetaClass(" ++ Text.quoted c.name ++ ")"

end Metaclass

structure Metamodel where
  name : String
  classes : Named Metaclass

namespace Metamodel

/-- A later class of the same name takes the place of the earlier one. -/
def ofClasses (name : String) (classes : List Metaclass) : Metamodel :=
  { name, classes := .ofPairs (classes.map fun c => (c.name, c)) }

/-- The qualifier of the name does not matter. -/
def class? (m : Metamodel) (name : String) : Option Metaclass := m.classes.get? (className name)

def text (m : Metamodel) : String :=
  "Metamodel(" ++ Text.quoted m.name ++ ", " ++
    Text.quotedList (sortedNames m.classes.names) ++ ")"

end Metamodel

end Metamorph
