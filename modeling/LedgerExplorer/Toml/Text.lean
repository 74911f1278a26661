import LedgerExplorer.Json.Quotation

/-!
# Reading blanks and strings of TOML

A basic string stands in double quotes and knows escapes, a literal one in single quotes and knows
none. Three quotes open a string of several lines, which may hold up to two quotes in a row.
-/

namespace LedgerExplorer.Toml

/-- The characters that part the words of a line. -/
def isSpace (c : Char) : Bool :=
  c = ' ' || c = '\t'

def skipSpace (cs : List Char) : List Char :=
  cs.dropWhile isSpace

/-- The characters of a line: all but controls, with the tab among them. -/
def isPlain (c : Char) : Bool :=
  c = '\t' || (0x20 ≤ c.toNat && c.toNat ≠ 0x7F)

/-- The text after a line break. -/
def newline? : List Char → Option (List Char)
  | '\n' :: rest => some rest
  | '\r' :: '\n' :: rest => some rest
  | _ => none

/-- The text after the end of a line, which may have spaces and a comment before it. -/
def endOfLine? (cs : List Char) : Option (List Char) :=
  let rest := match skipSpace cs with
    | '#' :: comment => comment.dropWhile isPlain
    | cs => cs
  if rest.isEmpty then some [] else newline? rest

/-- Drops spaces, line breaks and comments. -/
def skipLines (inComment : Bool) : List Char → List Char
  | [] => []
  | '\r' :: '\n' :: rest => skipLines false rest
  | c :: rest =>
    if c = '\n' then skipLines false rest
    else if inComment then if isPlain c then skipLines true rest else c :: rest
    else if isSpace c then skipLines false rest
    else if c = '#' then skipLines true rest
    else c :: rest

/-- The character of a code point, unless it is a surrogate or too large. -/
def scalar? (n : Nat) : Option Char :=
  if n < 0xD800 ∨ (0xDFFF < n ∧ n < 0x110000) then some (Char.ofNat n) else none

/-- The character that a one-letter escape stands for. -/
def shortEscape? : Char → Option Char
  | 'b' => some '\x08'
  | 't' => some '\t'
  | 'n' => some '\n'
  | 'f' => some '\x0c'
  | 'r' => some '\r'
  | '"' => some '"'
  | '\\' => some '\\'
  | _ => none

/-- Puts a character in front of a string that was read. -/
def prepend (c : Option Char) (r : Option (List Char × List Char)) :
    Option (List Char × List Char) := do
  let c ← c
  let (s, rest) ← r
  return (c :: s, rest)

/-- The basic string up to its closing quote, and the text after it. -/
def readBasic : List Char → Option (List Char × List Char)
  | [] => none
  | '"' :: rest => some ([], rest)
  | '\\' :: 'u' :: a :: b :: c :: d :: rest =>
    prepend ((Json.hexUnit? a b c d).bind scalar?) (readBasic rest)
  | '\\' :: 'U' :: a :: b :: c :: d :: e :: f :: g :: h :: rest =>
    prepend (do scalar? ((← Json.hexUnit? a b c d) * 65536 + (← Json.hexUnit? e f g h)))
      (readBasic rest)
  | '\\' :: c :: rest => prepend (shortEscape? c) (readBasic rest)
  | c :: rest => if isPlain c && c ≠ '\\' then prepend (some c) (readBasic rest) else none

/-- The literal string up to its closing quote, and the text after it. -/
def readLiteral : List Char → Option (List Char × List Char)
  | [] => none
  | '\'' :: rest => some ([], rest)
  | c :: rest => if isPlain c then prepend (some c) (readLiteral rest) else none

/-- The closing quotes of a string of several lines, with the quotes before them that still belong to
it. -/
def closing? (q : Char) (cs : List Char) : Option (List Char × List Char) :=
  let quotes := (cs.takeWhile (· == q)).length
  if quotes < 3 then none
  else
    let inside := min (quotes - 3) 2
    some (List.replicate inside q, cs.drop (inside + 3))

/-- The literal string of several lines up to its closing quotes, and the text after it. -/
def readLiteralLines : List Char → Option (List Char × List Char)
  | [] => none
  | '\r' :: '\n' :: rest => prepend (some '\n') (readLiteralLines rest)
  | c :: rest =>
    match closing? '\'' (c :: rest) with
    | some r => some r
    | none =>
      if c = '\n' || isPlain c then prepend (some c) (readLiteralLines rest) else none

/-- The basic string of several lines up to its closing quotes, and the text after it. A backslash at
the end of a line is dropped with all blanks and line breaks that follow it. -/
def readBasicLines (skipping : Bool) : List Char → Option (List Char × List Char)
  | [] => none
  | '\r' :: '\n' :: rest =>
    if skipping then readBasicLines true rest
    else prepend (some '\n') (readBasicLines false rest)
  | '\\' :: 'u' :: a :: b :: c :: d :: rest =>
    prepend ((Json.hexUnit? a b c d).bind scalar?) (readBasicLines false rest)
  | '\\' :: 'U' :: a :: b :: c :: d :: e :: f :: g :: h :: rest =>
    prepend (do scalar? ((← Json.hexUnit? a b c d) * 65536 + (← Json.hexUnit? e f g h)))
      (readBasicLines false rest)
  | '\\' :: c :: rest =>
    if isSpace c || c = '\n' || c = '\r' then
      if (newline? (skipSpace (c :: rest))).isNone then none
      else if c = '\r' then readBasicLines true (rest.drop 1) else readBasicLines true rest
    else prepend (shortEscape? c) (readBasicLines false rest)
  | c :: rest =>
    match closing? '"' (c :: rest) with
    | some r => some r
    | none =>
      if skipping && (isSpace c || c = '\n') then readBasicLines true rest
      else if c = '\n' || (isPlain c && c ≠ '\\') then prepend (some c) (readBasicLines false rest)
      else none
termination_by cs => cs.length

/-- Drops the line break after the opening quotes of a string of several lines. -/
def skipFirstBreak (cs : List Char) : List Char :=
  (newline? cs).getD cs

/-- A string on one line. -/
def readLineString : List Char → Option (String × List Char)
  | '"' :: rest => (readBasic rest).map fun (s, after) => (String.ofList s, after)
  | '\'' :: rest => (readLiteral rest).map fun (s, after) => (String.ofList s, after)
  | _ => none

/-- A string of any kind. -/
def readString : List Char → Option (String × List Char)
  | '"' :: '"' :: '"' :: rest =>
    (readBasicLines false (skipFirstBreak rest)).map fun (s, after) => (String.ofList s, after)
  | '\'' :: '\'' :: '\'' :: rest =>
    (readLiteralLines (skipFirstBreak rest)).map fun (s, after) => (String.ofList s, after)
  | cs => readLineString cs

end LedgerExplorer.Toml
