/-! Blank characters: the code points with the Unicode property `White_Space`. -/

namespace Cypher.Blank

/-- The first and the last code point of each run of blanks. -/
def ranges : List (Nat × Nat) :=
  [(0x0009, 0x000d), (0x0020, 0x0020), (0x0085, 0x0085), (0x00a0, 0x00a0),
   (0x1680, 0x1680), (0x2000, 0x200a), (0x2028, 0x2029), (0x202f, 0x202f),
   (0x205f, 0x205f), (0x3000, 0x3000)]

def isBlank (character : Char) : Bool :=
  ranges.any fun (first, last) =>
    first ≤ character.toNat && character.toNat ≤ last

/-- There are twenty-five blanks. -/
example : (ranges.map fun (first, last) => last + 1 - first).sum = 25 := rfl

/-- Drop the blanks in front of the first other character. -/
def trimStart (text : String) : String :=
  String.ofList (text.toList.dropWhile isBlank)

example : trimStart " \t\u2003a " = "a " := by decide

end Cypher.Blank
