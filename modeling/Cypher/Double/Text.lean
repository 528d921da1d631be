import Cypher.Double.Shortest
import Cypher.Text.Decimal

/-! Finite numbers as decimal text: the shortest digits that read back,
positional near one and with an exponent far from it. -/

namespace Cypher.Double

/-! A magnitude is `0.d₁d₂… * 10 ^ point` with digits that neither start nor
end with zero. -/

/-- Positional text shows at most four zeros after the point and at most
sixteen digits before it. -/
def isPositional (point : Int) : Bool :=
  -4 ≤ point && point ≤ 16

/-- At least one digit stands on both sides of the point. -/
def positional (digits : List Char) (point : Int) : List Char :=
  let zeros (count : Int) := List.replicate count.toNat '0'
  if point ≤ 0 then
    ['0', '.'] ++ zeros (-point) ++ digits
  else
    let whole := digits.take point.toNat ++ zeros (point - digits.length)
    let fraction := digits.drop point.toNat
    whole ++ '.' :: (if fraction.isEmpty then ['0'] else fraction)

/-- One digit stands before the point, and the sign of the exponent is always
written. -/
def scientific (digits : List Char) (point : Int) : List Char :=
  let exponent := point - 1
  let sign := if exponent < 0 then '-' else '+'
  let mantissa := match digits with
    | [] => []
    | [digit] => [digit]
    | digit :: fraction => digit :: '.' :: fraction
  mantissa ++ 'e' :: sign :: Nat.toDigits 10 exponent.natAbs

def magnitudeText (number : Double) : List Char :=
  if number.isZero then
    ['0', '.', '0']
  else
    let (digits, exponent) := number.shortest
    let written := Nat.toDigits 10 digits
    let point := exponent + written.length
    let trimmed := (written.reverse.dropWhile (· == '0')).reverse
    if isPositional point then
      positional trimmed point
    else
      scientific trimmed point

def text (number : Double) : String :=
  let magnitude := number.magnitudeText
  String.ofList (if number.negative then '-' :: magnitude else magnitude)

example : positional ['2', '5'] (-1) = ['0', '.', '0', '2', '5'] := by decide
example : scientific ['1', '5'] (-6) = ['1', '.', '5', 'e', '-', '7'] := by decide
example : sample.text = "1.5" := by decide +kernel

end Cypher.Double
