/-!
# Percent-encoding

Every byte of the UTF-8 form that is not an unreserved character is written as a percent sign and
two upper-case hexadecimal digits.
-/

namespace LedgerExplorer.Text

/-- The characters that percent-encoding leaves alone. -/
def isUnreserved (c : Char) : Bool :=
  ('A' ≤ c && c ≤ 'Z') || ('a' ≤ c && c ≤ 'z') || ('0' ≤ c && c ≤ '9') ||
    c == '-' || c == '.' || c == '_' || c == '~'

/-- The upper-case hexadecimal digit of a number below sixteen. -/
def hexDigit (n : Nat) : Char :=
  if n < 10 then Char.ofNat (48 + n) else Char.ofNat (55 + n)

/-- A byte as a percent sign and two hexadecimal digits. -/
def percentByte (b : UInt8) : List Char :=
  ['%', hexDigit (b.toNat / 16), hexDigit (b.toNat % 16)]

/-- A character with the bytes of its UTF-8 form escaped unless `keep` lets it stand. -/
def percentChar (keep : Char → Bool) (c : Char) : List Char :=
  if keep c then [c] else (String.utf8EncodeChar c).flatMap percentByte

/-- Escapes every character that `keep` does not let stand. -/
def percentEncodeWith (keep : Char → Bool) (cs : List Char) : List Char :=
  cs.flatMap (percentChar keep)

/-- Escapes every character that is not unreserved. -/
def percentEncode (s : String) : String :=
  String.ofList (percentEncodeWith isUnreserved s.toList)

end LedgerExplorer.Text
