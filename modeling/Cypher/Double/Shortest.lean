import Cypher.Double

/-! The shortest decimal that reads back as a given number.

A decimal reads back as the number nearest to it, and a decimal half way
between two numbers reads back as the one with the even significand. So the
decimals that read back as one number form an interval around it. Of the
decimals in that interval with the fewest digits, the nearest is chosen, and of
two equally near ones the even one.

All comparisons are made on one scale on which the numbers, the ends of their
intervals and the decimals in question are whole: a magnitude is counted in
units of `2 ^ -1076 * 10 ^ -341`. -/

namespace Cypher.Double

/-! ## Magnitudes on the common scale -/

def scaled (number : Double) : Nat :=
  number.significand * twoTo (number.binade + 1) * tenTo 341

/-- The decimal digit `1` at the position `exponent`, counted from `10 ^ -341`. -/
def scaledUnit (exponent : Nat) : Nat :=
  tenTo exponent * twoTo 1076

/-- Half the distance to the next larger number. -/
def scaledGapAbove (number : Double) : Nat :=
  twoTo number.binade * tenTo 341

/-- Half the distance to the next smaller number. It is smaller by one half at
the lower end of a binade. -/
def scaledGapBelow (number : Double) : Nat :=
  if fractionField number.bits = 0 ∧ 1 < number.binade then
    twoTo (number.binade - 1) * tenTo 341
  else
    twoTo number.binade * tenTo 341

/-- The magnitude `decimal` on the common scale reads back as `number`. -/
def ReadsBack (number : Double) (decimal : Nat) : Prop :=
  if number.significand % 2 = 0 then
    number.scaled ≤ decimal + number.scaledGapBelow ∧
      decimal ≤ number.scaled + number.scaledGapAbove
  else
    number.scaled < decimal + number.scaledGapBelow ∧
      decimal < number.scaled + number.scaledGapAbove

instance (number : Double) (decimal : Nat) : Decidable (number.ReadsBack decimal) := by
  unfold ReadsBack
  infer_instance

/-! ## Search -/

/-- The two decimals next to the number whose last digit stands at the position
`exponent`, the nearer one first. -/
def neighbours (number : Double) (exponent : Nat) : List Nat :=
  let unit := scaledUnit exponent
  let lower := number.scaled / unit
  let toLower := number.scaled - lower * unit
  let toUpper := (lower + 1) * unit - number.scaled
  if toLower < toUpper ∨ toLower = toUpper ∧ lower % 2 = 0 then
    [lower, lower + 1]
  else
    [lower + 1, lower]

def nearest? (number : Double) (exponent : Nat) : Option Nat :=
  (number.neighbours exponent).find? fun digits =>
    number.ReadsBack (digits * scaledUnit exponent)

/-- The position after the first digit, counted from `10 ^ -341`. -/
def leadingPosition (number : Double) : Nat :=
  (Nat.toDigits 10 (number.scaled / twoTo 1076)).length

/-- Digits as a whole number, and the position of the last digit. Seventeen
digits are always enough to read a number back. -/
def shortest (number : Double) : Nat × Int :=
  let found := (List.range 17).findSome? fun count =>
    let exponent := number.leadingPosition - (count + 1)
    (number.nearest? exponent).map fun digits => (digits, (exponent : Int) - 341)
  found.getD (0, 0)

example : sample.shortest = (15, -1) := by decide +kernel

end Cypher.Double
