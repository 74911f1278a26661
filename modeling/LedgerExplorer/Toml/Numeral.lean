import LedgerExplorer.Decimal.Double
import LedgerExplorer.Json.Numeral
import LedgerExplorer.Json.Quotation
import LedgerExplorer.Toml.Basic

/-!
# Numbers and dates of TOML

A word of letters, digits, signs, points and colons is a number, a date, a time or a truth value, or
no value at all. Digits may be parted by single underscores; an integer has 64 bits with a sign.
-/

namespace LedgerExplorer.Toml

/-- The characters of a word. -/
def isWordChar (c : Char) : Bool :=
  c.isAlphanum || c = '+' || c = '-' || c = '_' || c = '.' || c = ':'

/-- The digits of a row in which single underscores may stand between digits. -/
def plainDigits? (isDigit : Char → Bool) : List Char → Option (List Char)
  | [] => none
  | [c] => if isDigit c then some [c] else none
  | c :: '_' :: rest => if isDigit c then (plainDigits? isDigit rest).map (c :: ·) else none
  | c :: rest => if isDigit c then (plainDigits? isDigit rest).map (c :: ·) else none

/-- The digits of a decimal row without a superfluous zero in front. -/
def decimalDigits? (cs : List Char) : Option (List Char) :=
  match plainDigits? Char.isDigit cs with
  | some ('0' :: _ :: _) => none
  | r => r

/-- The sign of a word, set if it is a minus, and the word behind it. -/
def splitSign : List Char → Bool × List Char
  | '-' :: rest => (true, rest)
  | '+' :: rest => (false, rest)
  | cs => (false, cs)

/-- An integer that 64 bits with a sign hold. -/
def integer? (n : Int) : Option Toml :=
  if Int64.minValue.toInt ≤ n ∧ n ≤ Int64.maxValue.toInt then some (.integer n) else none

/-- The integer of digits in a base. -/
def basedInteger? (base : Nat) (cs : List Char) : Option Toml := do
  let isDigit c := (Json.hexValue? c).any (· < base)
  let ds ← plainDigits? isDigit cs
  integer? (ds.foldl (fun n c => n * base + (Json.hexValue? c).getD 0) 0 : Nat)

/-- The integer of a word. -/
def readInteger? : List Char → Option Toml
  | '0' :: 'x' :: rest => basedInteger? 16 rest
  | '0' :: 'o' :: rest => basedInteger? 8 rest
  | '0' :: 'b' :: rest => basedInteger? 2 rest
  | cs => do
    let (negative, cs) := splitSign cs
    let n : Int := Json.digitsValue (← decimalDigits? cs)
    integer? (if negative then -n else n)

/-- Whether a decimal number rounds to more than the greatest double. -/
def isTooLarge (significand : Nat) (exponent : Int) : Bool :=
  if significand = 0 then false
  else if 308 < exponent then true
  else if 0 ≤ exponent then (Double.ofRatio false (significand * Nat.pow 10 exponent.toNat) 1).isNone
  else if (Text.digits significand).length < (-exponent).toNat then false
  else (Double.ofRatio false significand (Nat.pow 10 (-exponent).toNat)).isNone

/-- The exponent of a float; zero if there is none. -/
def readExponent? : List Char → Option Int
  | [] => some 0
  | c :: rest =>
    if c = 'e' || c = 'E' then do
      let (negative, ds) := splitSign rest
      let n : Int := Json.digitsValue (← plainDigits? Char.isDigit ds)
      return if negative then -n else n
    else none

def isDigitOrGap (c : Char) : Bool :=
  c.isDigit || c = '_'

/-- Whether a word is a float. One that is too large is none, unless it is negative. -/
def isFloat (cs : List Char) : Bool :=
  let (negative, cs) := splitSign cs
  if cs = ['i', 'n', 'f'] || cs = ['n', 'a', 'n'] then true
  else
    let value : Option Bool := do
      let whole ← decimalDigits? (cs.takeWhile isDigitOrGap)
      match cs.dropWhile isDigitOrGap with
      | [] => none
      | '.' :: rest =>
        let fraction ← plainDigits? Char.isDigit (rest.takeWhile isDigitOrGap)
        let exponent ← readExponent? (rest.dropWhile isDigitOrGap)
        return isTooLarge (Json.digitsValue (whole ++ fraction)) (exponent - fraction.length)
      | rest => return isTooLarge (Json.digitsValue whole) (← readExponent? rest)
    match value with
    | some tooLarge => negative || !tooLarge
    | none => false

/-- A number of two digits up to a bound, and the text after it. -/
def twoDigits? (max : Nat) : List Char → Option (Nat × List Char)
  | a :: b :: rest =>
    let n := Json.digitsValue [a, b]
    if a.isDigit && b.isDigit && n ≤ max then some (n, rest) else none
  | _ => none

/-- The number of days of a month. -/
def daysOfMonth (year month : Nat) : Nat :=
  if month = 2 then
    if year % 4 = 0 && (year % 100 ≠ 0 || year % 400 = 0) then 29 else 28
  else if month = 4 || month = 6 || month = 9 || month = 11 then 30
  else 31

/-- The text after a date. -/
def readDate? : List Char → Option (List Char)
  | a :: b :: c :: d :: '-' :: rest => do
    guard ([a, b, c, d].all Char.isDigit)
    let (month, rest) ← twoDigits? 12 rest
    let '-' :: rest := rest | none
    let (day, rest) ← twoDigits? (daysOfMonth (Json.digitsValue [a, b, c, d]) month) rest
    guard (0 < month && 0 < day)
    return rest
  | _ => none

/-- The text after a time of the day; the fraction of its seconds may have any length. -/
def readTime? (cs : List Char) : Option (List Char) := do
  let (_, rest) ← twoDigits? 23 cs
  let ':' :: rest := rest | none
  let (_, rest) ← twoDigits? 59 rest
  let ':' :: rest := rest | none
  let (_, rest) ← twoDigits? 60 rest
  match rest with
  | '.' :: rest =>
    guard ((rest.head?.map Char.isDigit).getD false)
    return rest.dropWhile Char.isDigit
  | rest => return rest

/-- Whether a text is empty or an offset from universal time. -/
def isOffset : List Char → Bool
  | [] | ['Z'] | ['z'] => true
  | c :: rest =>
    (c = '+' || c = '-') && match twoDigits? 23 rest with
      | some (_, ':' :: rest) => (twoDigits? 59 rest).any (·.2.isEmpty)
      | _ => false

/-- Whether a word is a time of the day with or without an offset. -/
def isTimeWithOffset (cs : List Char) : Bool :=
  (readTime? cs).any isOffset

/-- Whether a word is a date, a time, or a date and a time. -/
def isDatetime (cs : List Char) : Bool :=
  match readDate? cs with
  | some [] => true
  | some (c :: rest) => (c = 'T' || c = 't') && isTimeWithOffset rest
  | none => (readTime? cs).any List.isEmpty

/-- The value of a word. -/
def ofWord? (cs : List Char) : Option Toml :=
  if cs = ['t', 'r', 'u', 'e'] then some (.boolean true)
  else if cs = ['f', 'a', 'l', 's', 'e'] then some (.boolean false)
  else if isDatetime cs then some (.datetime (String.ofList cs))
  else if isFloat cs then some (.float (String.ofList cs))
  else readInteger? cs

/-- The value of the word at the start of a text, and the text after it. A single space may stand
between a date and a time. -/
def readWord? (cs : List Char) : Option (Toml × List Char) := do
  let word := cs.takeWhile isWordChar
  let rest := cs.dropWhile isWordChar
  let time := (rest.drop 1).takeWhile isWordChar
  if readDate? word = some [] ∧ rest.head? = some ' ' ∧ isTimeWithOffset time then
    return (.datetime (String.ofList (word ++ ' ' :: time)), (rest.drop 1).dropWhile isWordChar)
  return (← ofWord? word, rest)

end LedgerExplorer.Toml
