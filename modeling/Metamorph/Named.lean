/-! Tables of named entries, in the order in which the names first came. Setting a name again
changes its entry and keeps its place. -/
namespace Metamorph

abbrev Named (α : Type) := List (String × α)

namespace Named
variable {α : Type}

def get? (table : Named α) (name : String) : Option α := table.lookup name

def has (table : Named α) (name : String) : Bool := table.any (·.1 == name)

def names (table : Named α) : List String := table.map (·.1)

def set (table : Named α) (name : String) (entry : α) : Named α :=
  match table with
  | [] => [(name, entry)]
  | (other, old) :: rest =>
    if other = name then (name, entry) :: rest else (other, old) :: set rest name entry

/-- The entries of `more` set one after the other. -/
def update (table more : Named α) : Named α := more.foldl (fun t entry => t.set entry.1 entry.2) table

/-- Of entries with one name the last one counts, at the place of the first. -/
def ofPairs (pairs : List (String × α)) : Named α := update [] pairs

end Named

/-- Names in the order of their code points. -/
def sortedNames (names : List String) : List String := names.mergeSort fun a b => decide (a ≤ b)

end Metamorph
