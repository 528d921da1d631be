/-! Whole numbers as decimal text. -/

namespace Cypher.Decimal

def natural (number : Nat) : String :=
  String.ofList (Nat.toDigits 10 number)

def integer : Int → String
  | .ofNat number => natural number
  | .negSucc number => "-" ++ natural (number + 1)

example : integer (-7) = "-7" := by decide

end Cypher.Decimal
