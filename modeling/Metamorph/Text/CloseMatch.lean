import Std.Data.TreeMap
import Std.Data.TreeSet

/-! How alike two names are, for hints about misspelt ones. The longest common block is matched
first, then what stands to its left and to its right; the ratio of matched to all characters
decides. In a long word the characters that occur too often never start a block. -/
namespace Metamorph.Text

abbrev Places := Std.TreeMap Char (List Nat)

/-- The places of the characters that `counts` says count. -/
def places (counts : Char → Bool) (text : List Char) : Places :=
  text.zipIdx.foldr (fun (c, i) found =>
    if counts c then found.insert c (i :: found.getD c []) else found) ∅

/-- Characters that make up more than a hundredth of a text of two hundred or more. -/
def frequent (text : List Char) : Std.TreeSet Char :=
  let size := text.length
  if size < 200 then ∅
  else (places (fun _ => true) text).foldl (fun found c places =>
    if size / 100 + 1 < places.length then found.insert c else found) ∅

structure Block where
  left : Nat
  right : Nat
  size : Nat

/-- Common blocks that end with a character of the left text: where they end in the right text, and
their lengths. Each continues a block that ended one place before with the character in front. -/
def continued : List (Nat × Nat) → List Nat → List (Nat × Nat)
  | _, [] => []
  | [], j :: places => (j, 1) :: continued [] places
  | (i, size) :: blocks, j :: places =>
    if i + 1 < j then continued blocks (j :: places)
    else if i + 1 = j then (j, size + 1) :: continued blocks places
    else (j, 1) :: continued ((i, size) :: blocks) places
termination_by blocks places => blocks.length + places.length

/-- The first of the longest blocks, in the order of the left text, then of the right one. -/
def longestBlock (right : Places) : List Char → Nat → List (Nat × Nat) → Block → Block
  | [], _, _, best => best
  | c :: rest, i, blocks, best =>
    let blocks := continued blocks (right.getD c [])
    longestBlock right rest (i + 1) blocks <| blocks.foldl (fun best (j, size) =>
      if best.size < size then ⟨i + 1 - size, j + 1 - size, size⟩ else best) best

/-- Length of the run that both texts start with. -/
def commonRun : List Char → List Char → Nat
  | a :: as, b :: bs => if a = b then commonRun as bs + 1 else 0
  | _, _ => 0

/-- The block stretched on both sides over equal characters, frequent ones too. -/
def Block.stretched (block : Block) (a b : List Char) : Block :=
  let back := commonRun (a.take block.left).reverse (b.take block.right).reverse
  let ahead := commonRun (a.drop (block.left + block.size)) (b.drop (block.right + block.size))
  ⟨block.left - back, block.right - back, back + block.size + ahead⟩

/-- Number of characters matched when blocks are taken longest first. -/
def matchedChars (counts : Char → Bool) : Nat → List Char → List Char → Nat
  | 0, _, _ => 0
  | bound + 1, a, b =>
    let block := (longestBlock (places counts b) a 0 [] ⟨0, 0, 0⟩).stretched a b
    if block.size = 0 then 0
    else
      matchedChars counts bound (a.take block.left) (b.take block.right) + block.size +
        matchedChars counts bound (a.drop (block.left + block.size))
          (b.drop (block.right + block.size))

/-- Twice the matched characters over all characters of both; `1` over `1` if there are none. -/
structure Likeness where
  matched : Nat
  total : Nat

def likeness (word name : String) : Likeness :=
  let a := name.toList
  let b := word.toList
  if a.length + b.length = 0 then ⟨1, 1⟩
  else
    let frequent := frequent b
    ⟨2 * matchedChars (fun c => !frequent.contains c) (a.length + 1) a b, a.length + b.length⟩

/-- No more characters can be matched than the shorter text has. -/
def mayBeClose (word name : String) : Bool :=
  3 * (word.length + name.length) ≤ 10 * min word.length name.length

def Likeness.lt (l r : Likeness) : Bool := l.matched * r.total < r.matched * l.total

/-- At least three in five characters are matched. -/
def Likeness.isClose (l : Likeness) : Bool := 3 * l.total ≤ 5 * l.matched

/-- At most `limit` names that resemble `word`, the most alike first; of equally alike ones the
greater text goes first. -/
def closeMatches (word : String) (names : List String) (limit : Nat) : List String :=
  let close := ((names.filter (mayBeClose word)).map fun name => (likeness word name, name)).filter
    (·.1.isClose)
  let ranked := close.mergeSort fun l r =>
    r.1.lt l.1 || (!l.1.lt r.1 && decide (r.2 ≤ l.2))
  (ranked.take limit).map (·.2)

end Metamorph.Text
