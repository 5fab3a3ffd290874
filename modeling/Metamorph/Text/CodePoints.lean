/-! Sets of characters given by closed ranges of code points. -/
namespace Metamorph.Text

/-- Closed ranges `(first, last)` of code points. -/
abbrev CodePoints := List (Nat × Nat)

def CodePoints.has (ranges : CodePoints) (c : Char) : Bool :=
  ranges.any fun range => range.1 ≤ c.toNat && c.toNat ≤ range.2

end Metamorph.Text
