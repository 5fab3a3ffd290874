import Metamorph.Text.CaseTables

/-! Upper and lower case of texts. A character may map to several. A capital sigma at the end of a
word has a lower form of its own: some cased letter stands before it and none after it. -/
namespace Metamorph.Text

def shifted (runs : List ShiftedRun) (c : Char) : Char :=
  match runs.find? fun run =>
      run.first ≤ c.toNat && c.toNat ≤ run.last && (c.toNat - run.first) % run.step == 0 with
  | some run => Char.ofNat (c.toNat + run.shift).toNat
  | none => c

def mapped (expansions : List (Nat × List Nat)) (runs : List ShiftedRun) (c : Char) : List Char :=
  match expansions.find? (·.1 == c.toNat) with
  | some (_, images) => images.map Char.ofNat
  | none => [shifted runs c]

def capitalSigma : Char := 'Σ'

/-- Whether the nearest character that counts is a cased letter. -/
def meetsCased (text : List Char) : Bool :=
  ((text.dropWhile caseIgnorable.has).head?.map casedLetters.has).getD false

def upper (text : List Char) : List Char := text.flatMap (mapped upperExpansions upperRuns)

/-- `before` holds the characters already passed, nearest first. -/
def lowerAfter (before : List Char) : List Char → List Char
  | [] => []
  | c :: rest =>
    (if c = capitalSigma then
      if meetsCased before && !meetsCased rest then ['ς'] else ['σ']
    else mapped lowerExpansions lowerRuns c) ++ lowerAfter (c :: before) rest

def lower (text : List Char) : List Char := lowerAfter [] text

end Metamorph.Text
