import LedgerExplorer.Decimal.Double

/-!
# Decimal literals

A literal is a significand of at most sixty-four bits and a power of ten. It is read in two
roundings: the significand becomes a double, which is then multiplied or divided by the power.
-/

namespace LedgerExplorer

namespace Double

/-- A power of ten up to the 308th as a double. -/
def powerOfTen (n : Nat) : Double :=
  (ofNat (Nat.pow 10 n)).getD ⟨0⟩

/-- Divides by ten to the 308th until the exponent that remains is at least minus 308. -/
def scaleDown : Nat → Double → Int → Option Double
  | 0, _, _ => some ⟨0⟩
  | fuel + 1, x, e =>
    if -308 ≤ e then x.div (powerOfTen (-e).toNat)
    else if x.isZero then some x
    else (x.div (powerOfTen 308)).bind fun y => scaleDown fuel y (e + 308)

/-- The double of `significand · 10 ^ exponent`; none if it is too large. -/
def ofLiteral (negative : Bool) (significand : Nat) (exponent : Int) : Option Double :=
  let magnitude := (ofNat significand).bind fun x =>
    if exponent < 0 then scaleDown 8 x exponent
    else if exponent ≤ 308 then x.mul (powerOfTen exponent.toNat)
    else if x.isZero then some x else none
  magnitude.map fun x => if negative then x.neg else x

end Double

end LedgerExplorer
