/-!
# Finite double-precision numbers

A number is kept by its bit pattern. `Double.ofRatio` rounds a quotient of natural numbers to the
nearest pattern, a tie to the even one; the other operations go through it, so each is the exact
result rounded once.
-/

namespace LedgerExplorer

/-- A double-precision number by its bits: one of sign, eleven of exponent, fifty-two of fraction. -/
structure Double where
  bits : UInt64
  deriving DecidableEq, Repr

namespace Double

/-- Whether the sign bit is set. -/
def negative (x : Double) : Bool :=
  Nat.pow 2 63 ≤ x.bits.toNat

/-- The eleven bits of the exponent. -/
def biased (x : Double) : Nat :=
  x.bits.toNat / Nat.pow 2 52 % Nat.pow 2 11

/-- The fraction, with the leading one that the exponent implies. -/
def significand (x : Double) : Nat :=
  let f := x.bits.toNat % Nat.pow 2 52
  if x.biased = 0 then f else Nat.pow 2 52 + f

/-- The power of two that the significand counts. -/
def exponent (x : Double) : Int :=
  (max x.biased 1 : Nat) - 1075

/-- The magnitude as a quotient of natural numbers. -/
def ratio (x : Double) : Nat × Nat :=
  if 0 ≤ x.exponent then (x.significand * Nat.pow 2 x.exponent.toNat, 1)
  else (x.significand, Nat.pow 2 (-x.exponent).toNat)

/-- The nearest natural number to a quotient, a tie to the even one. -/
def roundDiv (num den : Nat) : Nat :=
  let q := num / den
  let r := num % den
  if 2 * r < den then q
  else if den < 2 * r then q + 1
  else if q % 2 = 0 then q else q + 1

/-- The greatest `e` with `2 ^ e ≤ num / den`, for a positive quotient. -/
def floorLog2 (num den : Nat) : Int :=
  let k : Int := (num.log2 : Int) - den.log2
  let fits := if 0 ≤ k then den * Nat.pow 2 k.toNat ≤ num else den ≤ num * Nat.pow 2 (-k).toNat
  if fits then k else k - 1

/-- The number of `significand` units of `2 ^ exponent`, a significand of at most `2 ^ 53`. -/
def pack (negative : Bool) (significand : Nat) (exponent : Int) : Option Double :=
  let sign := if negative then Nat.pow 2 63 else 0
  let (significand, exponent) :=
    if significand = Nat.pow 2 53 then (Nat.pow 2 52, exponent + 1) else (significand, exponent)
  if significand < Nat.pow 2 52 then some ⟨UInt64.ofNat (sign + significand)⟩
  else
    let biased := (exponent + 1075).toNat
    if 2047 ≤ biased then none
    else some ⟨UInt64.ofNat (sign + biased * Nat.pow 2 52 + (significand - Nat.pow 2 52))⟩

/-- The nearest number to a quotient, a tie to the even significand; none if it is too large. -/
def ofRatio (negative : Bool) (num den : Nat) : Option Double :=
  if num = 0 then pack negative 0 (-1074)
  else
    let e := max (floorLog2 num den - 52) (-1074)
    let s :=
      if 0 ≤ e then roundDiv num (den * Nat.pow 2 e.toNat)
      else roundDiv (num * Nat.pow 2 (-e).toNat) den
    pack negative s e

/-- The nearest number to a natural number. -/
def ofNat (n : Nat) : Option Double :=
  ofRatio false n 1

/-- The product, rounded. -/
def mul (x y : Double) : Option Double :=
  ofRatio (x.negative != y.negative) (x.ratio.1 * y.ratio.1) (x.ratio.2 * y.ratio.2)

/-- The quotient by a positive number, rounded. -/
def div (x y : Double) : Option Double :=
  ofRatio (x.negative != y.negative) (x.ratio.1 * y.ratio.2) (x.ratio.2 * y.ratio.1)

/-- The number with the other sign. -/
def neg (x : Double) : Double :=
  ⟨x.bits ^^^ 0x8000000000000000⟩

/-- Whether the number is zero, of either sign. -/
def isZero (x : Double) : Bool :=
  x.significand = 0

end Double

end LedgerExplorer
