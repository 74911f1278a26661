import LedgerExplorer.Json.Basic
import LedgerExplorer.Decimal.Literal
import LedgerExplorer.Text.Natural

/-!
# JSON numerals

A numeral is split into its digits first and valued afterwards, so that a numeral whose value is too
large is still known to be well formed.
-/

namespace LedgerExplorer.Json

/-- The parts of a numeral: sign, digits before and after the point, and exponent. -/
structure Numeral where
  negative : Bool
  whole : List Char
  fraction : List Char
  exponent : Option Int

/-- The number that a row of digits denotes. -/
def digitsValue (ds : List Char) : Nat :=
  ds.foldl (fun n c => n * 10 + (c.toNat - 48)) 0

/-- Appends digits to a significand as long as it fits in a word; counts the digits left over. -/
def appendDigits : Nat → List Char → Nat × Nat
  | n, [] => (n, 0)
  | n, c :: rest =>
    let next := n * 10 + (c.toNat - 48)
    if next ≤ Text.maxWord then appendDigits next rest else (n, rest.length + 1)

/-- The value of a numeral with a point or an exponent, or too long for an integer. -/
def Numeral.double? (l : Numeral) : Option Double :=
  let (n, extra) := appendDigits 0 l.whole
  let (n, unread) := appendDigits n l.fraction
  let scale : Int := extra - (l.fraction.length - unread : Nat)
  Double.ofLiteral l.negative n (scale + l.exponent.getD 0)

/-- The value of a numeral; none if it is too large. Minus zero is a double. -/
def Numeral.value? (l : Numeral) : Option Number :=
  let n := digitsValue l.whole
  if l.fraction.isEmpty && l.exponent.isNone then
    if !l.negative && n ≤ Text.maxWord then some (.integer n)
    else if l.negative && 0 < n && Int64.minValue.toInt ≤ -n then some (.integer (-n))
    else l.double?.map .double
  else l.double?.map .double

/-- Splits a text after its leading digits. -/
def spanDigits (cs : List Char) : List Char × List Char :=
  (cs.takeWhile Char.isDigit, cs.dropWhile Char.isDigit)

/-- The digits of a fraction after a point, if there is a point. -/
def readFraction : List Char → Option (List Char × List Char)
  | '.' :: rest =>
    match spanDigits rest with
    | ([], _) => none
    | split => some split
  | cs => some ([], cs)

/-- The digits of an exponent, which must not be missing. -/
def readPower (negative : Bool) (cs : List Char) : Option (Option Int × List Char) :=
  match spanDigits cs with
  | ([], _) => none
  | (ds, rest) =>
    let n : Int := digitsValue ds
    some (some (if negative then -n else n), rest)

/-- The exponent after its mark, if there is one. -/
def readExponent : List Char → Option (Option Int × List Char)
  | c :: cs =>
    if c = 'e' || c = 'E' then
      match cs with
      | '+' :: rest => readPower false rest
      | '-' :: rest => readPower true rest
      | rest => readPower false rest
    else some (none, c :: cs)
  | [] => some (none, [])

/-- The digits before the point: a single zero, or a row that starts with none. -/
def readWhole (cs : List Char) : Option (List Char × List Char) :=
  match spanDigits cs with
  | ([], _) => none
  | ('0' :: _ :: _, _) => none
  | split => some split

/-- A numeral at the start of a text, and the text after it. -/
def readNumeral (cs : List Char) : Option (Numeral × List Char) := do
  let (negative, cs) := match cs with
    | '-' :: rest => (true, rest)
    | cs => (false, cs)
  let (whole, cs) ← readWhole cs
  let (fraction, cs) ← readFraction cs
  let (exponent, cs) ← readExponent cs
  return (⟨negative, whole, fraction, exponent⟩, cs)

end LedgerExplorer.Json
