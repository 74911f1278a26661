import LedgerExplorer.Decimal.Double
import LedgerExplorer.Text.Natural

/-!
# Shortest decimal form of a number

`Double.shortest` finds the fewest digits that read back as the number, and of those the nearest to
it. It works on exact quotients: every decimal grid has two neighbours of the number, and the first
grid with a neighbour inside the interval that rounds to the number is the one taken.
`Double.text` writes these digits out.
-/

namespace LedgerExplorer

namespace Double

/-- The greatest `k` with `10 ^ k ≤ num / den`, searched upwards from `k`. -/
def floorLog10From (num den : Nat) : Nat → Int → Int
  | 0, k => k
  | fuel + 1, k =>
    let next := k + 1
    let fits := if 0 ≤ next then den * Nat.pow 10 next.toNat ≤ num else den ≤ num * Nat.pow 10 (-next).toNat
    if fits then floorLog10From num den fuel next else k

/-- The greatest `k` with `10 ^ k ≤ num / den`, for a positive finite number. -/
def floorLog10 (num den : Nat) : Int :=
  floorLog10From num den 700 (-330)

/-- A closed or open interval of quotients over one denominator. -/
structure Interval where
  low : Nat
  high : Nat
  den : Nat
  closed : Bool

/-- The quotients that round to the number, over a denominator that fits them all. -/
def interval (x : Double) : Interval :=
  let m := x.significand
  let scale := if 0 ≤ x.exponent then Nat.pow 2 x.exponent.toNat else 1
  let den := if 0 ≤ x.exponent then 1 else Nat.pow 2 (-x.exponent).toNat
  let below := if m = Nat.pow 2 52 ∧ 1 < x.biased then 1 else 2
  ⟨(4 * m - below) * scale, (4 * m + 2) * scale, 4 * den, m % 2 = 0⟩

/-- Whether `n` units of `10 ^ e` lie in the interval. -/
def Interval.holds (i : Interval) (n : Nat) (e : Int) : Bool :=
  let num := if 0 ≤ e then n * Nat.pow 10 e.toNat * i.den else n * i.den
  let den := if 0 ≤ e then 1 else Nat.pow 10 (-e).toNat
  if i.closed then i.low * den ≤ num && num ≤ i.high * den
  else i.low * den < num && num < i.high * den

/-- The neighbour of the number on the grid of `10 ^ e` that reads back as it, if there is one. -/
def onGrid (num den : Nat) (i : Interval) (e : Int) : Option Nat :=
  let num := if 0 ≤ e then num else num * Nat.pow 10 (-e).toNat
  let den := if 0 ≤ e then den * Nat.pow 10 e.toNat else den
  let q := num / den
  let r := num % den
  match i.holds q e && q != 0, i.holds (q + 1) e with
  | true, true => if 2 * r < den then some q else if den < 2 * r then some (q + 1)
      else if q % 2 = 0 then some q else some (q + 1)
  | true, false => some q
  | false, true => some (q + 1)
  | false, false => none

/-- The first grid, from `e` downwards, with a neighbour that reads back. -/
def firstGrid (num den : Nat) (i : Interval) : Nat → Int → Nat × Int
  | 0, e => (num / den, e)
  | fuel + 1, e =>
    match onGrid num den i e with
    | some n => (n, e)
    | none => firstGrid num den i fuel (e - 1)

/-- The digits of the shortest form and the exponent of its leading digit; zero is one digit. -/
def shortest (x : Double) : List Char × Int :=
  if x.isZero then (['0'], 0)
  else
    let (num, den) := x.ratio
    let (n, e) := firstGrid num den x.interval 20 (floorLog10 num den)
    let ds := Text.digits n
    let kept := match (ds.reverse.dropWhile (· == '0')).reverse with
      | [] => ['0']
      | kept => kept
    (kept, e + ds.length - 1)

/-- Digits with the point after the one of exponent zero, and at least one digit on either side. -/
def positional (ds : List Char) (k : Int) : List Char :=
  if k < 0 then ['0', '.'] ++ List.replicate ((-k).toNat - 1) '0' ++ ds
  else
    let whole := k.toNat + 1
    let left := ds.take whole ++ List.replicate (whole - ds.length) '0'
    match ds.drop whole with
    | [] => left ++ ['.', '0']
    | right => left ++ '.' :: right

/-- Digits with the point after the first, and the exponent with its sign. -/
def scientific (ds : List Char) (k : Int) : List Char :=
  let mantissa := match ds with
    | d :: e :: rest => d :: '.' :: e :: rest
    | ds => ds
  let sign := if k < 0 then '-' else '+'
  mantissa ++ 'e' :: sign :: Text.digits k.natAbs

/-- The shortest form, positional from one hundred-thousandth up to below ten to the sixteenth. -/
def text (x : Double) : String :=
  let (ds, k) := x.shortest
  let body := if -5 ≤ k ∧ k < 16 then positional ds k else scientific ds k
  String.ofList (if x.negative then '-' :: body else body)

end Double

end LedgerExplorer
