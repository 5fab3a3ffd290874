/-! The four kinds of collections and the names of the operations on them. -/
namespace Metamorph

inductive CollectionKind where
  | sequence
  | set
  | bag
  | orderedSet
  deriving DecidableEq, Repr

namespace CollectionKind

def all : List CollectionKind := [.sequence, .set, .bag, .orderedSet]

def text : CollectionKind → String
  | sequence => "Sequence"
  | set => "Set"
  | bag => "Bag"
  | orderedSet => "OrderedSet"

def named? (name : String) : Option CollectionKind := all.find? (·.text == name)

/-- Whether equal items are kept once only. -/
def unique : CollectionKind → Bool
  | set | orderedSet => true
  | sequence | bag => false

/-- Whether the order of the items means something. -/
def ordered : CollectionKind → Bool
  | sequence | orderedSet => true
  | set | bag => false

/-- Of two kinds that meet in one operation the one of higher rank is the kind of the result. -/
def rank : CollectionKind → Nat
  | sequence => 0
  | bag => 1
  | set => 2
  | orderedSet => 3

def richer (l r : CollectionKind) : CollectionKind := if r.rank ≤ l.rank then l else r

end CollectionKind

/-- Operations whose body is evaluated for one item after the other. -/
inductive Iterator where
  | select | reject | collect | exists | forAll | one | any | sortedBy | isUnique
  deriving DecidableEq

/-- Operations on a collection alone. -/
inductive Query where
  | size | isEmpty | notEmpty | first | last | sum | flatten | reverse
  | convert (kind : CollectionKind)
  deriving DecidableEq

/-- Operations with one argument, evaluated once. -/
inductive Combination where
  | union | intersection | difference | including | excluding | includes | excludes | count
  | append | prepend | at | indexOf
  deriving DecidableEq

inductive CollectionOperation where
  | iterator (op : Iterator)
  | query (op : Query)
  | combination (op : Combination)
  deriving DecidableEq

def Iterator.text : Iterator → String
  | .select => "select"
  | .reject => "reject"
  | .collect => "collect"
  | .exists => "exists"
  | .forAll => "forAll"
  | .one => "one"
  | .any => "any"
  | .sortedBy => "sortedBy"
  | .isUnique => "isUnique"

def Query.text : Query → String
  | .size => "size"
  | .isEmpty => "isEmpty"
  | .notEmpty => "notEmpty"
  | .first => "first"
  | .last => "last"
  | .sum => "sum"
  | .flatten => "flatten"
  | .reverse => "reverse"
  | .convert .set => "asSet"
  | .convert .sequence => "asSequence"
  | .convert .bag => "asBag"
  | .convert .orderedSet => "asOrderedSet"

def Combination.text : Combination → String
  | .union => "union"
  | .intersection => "intersection"
  | .difference => "difference"
  | .including => "including"
  | .excluding => "excluding"
  | .includes => "includes"
  | .excludes => "excludes"
  | .count => "count"
  | .append => "append"
  | .prepend => "prepend"
  | .at => "at"
  | .indexOf => "indexOf"

namespace CollectionOperation

def text : CollectionOperation → String
  | iterator op => op.text
  | query op => op.text
  | combination op => op.text

def iterators : List Iterator :=
  [.select, .reject, .collect, .exists, .forAll, .one, .any, .sortedBy, .isUnique]

def queries : List Query :=
  [.size, .isEmpty, .notEmpty, .first, .last, .sum, .flatten, .reverse] ++
    CollectionKind.all.map .convert

def combinations : List Combination :=
  [.union, .intersection, .difference, .including, .excluding, .includes, .excludes, .count,
    .append, .prepend, .at, .indexOf]

def all : List CollectionOperation :=
  iterators.map iterator ++ queries.map query ++ combinations.map combination

def named? (name : String) : Option CollectionOperation := all.find? (·.text == name)

end CollectionOperation

end Metamorph
