/-!
# JSON strings

The inside of a string is read in two passes. The first splits it into characters and numeric escapes
and fails where the text is no string at all; the second joins the escapes and fails where a
surrogate stands alone. A string that only the second pass refuses can still be passed over.
-/

namespace LedgerExplorer.Json

/-- A character of a string, or the code unit of a numeric escape. -/
inductive Piece
  | plain (c : Char)
  | unit (n : Nat)

/-- The value of a hexadecimal digit of either case. -/
def hexValue? (c : Char) : Option Nat :=
  if c.isDigit then some (c.toNat - 48)
  else if 'a' ≤ c && c ≤ 'f' then some (c.toNat - 87)
  else if 'A' ≤ c && c ≤ 'F' then some (c.toNat - 55)
  else none

/-- The value of four hexadecimal digits. -/
def hexUnit? (a b c d : Char) : Option Nat := do
  return (← hexValue? a) * 4096 + (← hexValue? b) * 256 + (← hexValue? c) * 16 + (← hexValue? d)

/-- The character that a one-letter escape stands for. -/
def shortEscape? : Char → Option Char
  | '"' => some '"'
  | '\\' => some '\\'
  | '/' => some '/'
  | 'b' => some '\x08'
  | 'f' => some '\x0c'
  | 'n' => some '\n'
  | 'r' => some '\r'
  | 't' => some '\t'
  | _ => none

/-- The pieces up to the closing quote and the text after it. -/
def readPieces : List Char → Option (List Piece × List Char)
  | [] => none
  | '"' :: rest => some ([], rest)
  | '\\' :: 'u' :: a :: b :: c :: d :: rest =>
    match hexUnit? a b c d, readPieces rest with
    | some n, some (ps, after) => some (.unit n :: ps, after)
    | _, _ => none
  | '\\' :: c :: rest =>
    match shortEscape? c, readPieces rest with
    | some e, some (ps, after) => some (.plain e :: ps, after)
    | _, _ => none
  | '\\' :: [] => none
  | c :: rest =>
    if c.toNat < 0x20 then none
    else match readPieces rest with
      | some (ps, after) => some (.plain c :: ps, after)
      | none => none

/-- The character of a surrogate pair. -/
def pairChar (high low : Nat) : Char :=
  Char.ofNat (0x10000 + (high - 0xD800) * 0x400 + (low - 0xDC00))

/-- The characters of a row of pieces; none if a surrogate stands alone. -/
def joinPieces : List Piece → Option (List Char)
  | [] => some []
  | .plain c :: rest => (joinPieces rest).map (c :: ·)
  | .unit n :: .unit m :: rest =>
    if n < 0xD800 || 0xDFFF < n then (joinPieces (.unit m :: rest)).map (Char.ofNat n :: ·)
    else if n < 0xDC00 && 0xDC00 ≤ m && m ≤ 0xDFFF then (joinPieces rest).map (pairChar n m :: ·)
    else none
  | .unit n :: rest =>
    if n < 0xD800 || 0xDFFF < n then (joinPieces rest).map (Char.ofNat n :: ·) else none

/-- The string after an opening quote and the text behind it. The string is none if a surrogate
stands alone in it. -/
def readQuotation (cs : List Char) : Option (Option String × List Char) :=
  (readPieces cs).map fun (ps, after) => ((joinPieces ps).map String.ofList, after)

end LedgerExplorer.Json
