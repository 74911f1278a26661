/-!
# Decimal numerals

Writing natural numbers and integers in decimal, and reading an unsigned number below a bound.
A numeral may carry one leading plus sign and any number of leading zeros; the first fault from the
left is the one reported.
-/

namespace LedgerExplorer.Text

/-- The character of a digit below ten. -/
def digitChar (d : Nat) : Char :=
  Char.ofNat (48 + d)

/-- The value of a decimal digit; only the ten ASCII digits count. -/
def digitValue? (c : Char) : Option Nat :=
  if 48 ≤ c.toNat ∧ c.toNat ≤ 57 then some (c.toNat - 48) else none

/-- The decimal digits of a number, most significant first; zero has one digit. -/
def digits (n : Nat) : List Char :=
  if n < 10 then [digitChar n] else digits (n / 10) ++ [digitChar (n % 10)]
termination_by n

/-- A natural number in decimal. -/
def natural (n : Nat) : String :=
  String.ofList (digits n)

/-- An integer in decimal, with a minus sign if it is negative. -/
def integer : Int → String
  | .ofNat n => natural n
  | .negSucc n => String.ofList ('-' :: digits (n + 1))

/-- Why a text is no unsigned numeral. -/
inductive NumeralError
  | empty
  | invalidDigit
  | tooLarge
  deriving DecidableEq, Repr

def NumeralError.message : NumeralError → String
  | .empty => "cannot parse integer from empty string"
  | .invalidDigit => "invalid digit found in string"
  | .tooLarge => "number too large to fit in target type"

/-- Reads digits onto the number read so far, stopping at the first fault. -/
def readDigits (bound : Nat) : Nat → List Char → Except NumeralError Nat
  | n, [] => .ok n
  | n, c :: rest =>
    match digitValue? c with
    | none => .error .invalidDigit
    | some d => if n * 10 + d ≤ bound then readDigits bound (n * 10 + d) rest else .error .tooLarge

/-- Reads a numeral of a number up to `bound`. -/
def readNumeral (bound : Nat) : List Char → Except NumeralError Nat
  | [] => .error .empty
  | ['+'] => .error .invalidDigit
  | '+' :: rest => readDigits bound 0 rest
  | cs => readDigits bound 0 cs

/-- The greatest number of 64 bits. -/
def maxWord : Nat := UInt64.size - 1

/-- Reads a numeral of a number of 64 bits. -/
def readWord (s : String) : Except NumeralError UInt64 :=
  (readNumeral maxWord s.toList).map UInt64.ofNat

end LedgerExplorer.Text
