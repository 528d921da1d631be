/-! Finite numbers in the 64-bit binary format. A number is its bit pattern: a
sign bit, eleven exponent bits and fifty-two fraction bits. -/

namespace Cypher

namespace Double

/-! ## Powers -/

abbrev twoTo (exponent : Nat) : Nat :=
  Nat.pow 2 exponent

abbrev tenTo (exponent : Nat) : Nat :=
  Nat.pow 10 exponent

/-! ## Parts of a bit pattern -/

def exponentField (bits : UInt64) : Nat :=
  bits.toNat / twoTo 52 % twoTo 11

def fractionField (bits : UInt64) : Nat :=
  bits.toNat % twoTo 52

end Double

/-- The largest exponent field is kept for infinities and for what is no
number. -/
structure Double where
  bits : UInt64
  finite : Double.exponentField bits ≠ 2047
deriving DecidableEq

namespace Double

def negative (number : Double) : Bool :=
  number.bits.toNat / twoTo 63 = 1

/-! ## Magnitude

The magnitude is `significand * 2 ^ binade / 2 ^ 1075`. Numbers below the
smallest normal number share the binade of that number. -/

def binade (number : Double) : Nat :=
  max (exponentField number.bits) 1

def significand (number : Double) : Nat :=
  if exponentField number.bits = 0 then
    fractionField number.bits
  else
    twoTo 52 + fractionField number.bits

def isZero (number : Double) : Bool :=
  number.significand = 0

/-! ## Conversion -/

/-- Infinities and what is no number have no finite counterpart. -/
def ofFloat? (float : Float) : Option Double :=
  let bits := float.toBits
  if finite : exponentField bits ≠ 2047 then some ⟨bits, finite⟩ else none

/-- One and a half. -/
def sample : Double := ⟨0x3ff8000000000000, by decide⟩

example : sample.negative = false ∧ sample.binade = 1023 ∧
    sample.significand = 3 * twoTo 51 := by decide

end Double

end Cypher
