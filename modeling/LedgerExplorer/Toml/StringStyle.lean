import LedgerExplorer.Text.Percent
import LedgerExplorer.Toml.Text

/-!
# Writing strings of TOML

Of the four forms of a string the plainest one is taken that needs no escapes: a basic string, a literal
one, then those of several lines. Where all of them need escapes, a basic form is written, of several
lines if the text has line breaks.
-/

namespace LedgerExplorer.Toml

/-- The forms of a string: between single or double quotes, with or without escapes, on one line or on
several. -/
inductive StringStyle
  | basic
  | literal
  | basicLines
  | literalLines
  deriving DecidableEq, Repr

/-- Whether `n` characters `q` stand in a row. -/
def hasRun (q : Char) (n : Nat) : List Char → Bool
  | [] => n = 0
  | c :: cs => (List.replicate n q).isPrefixOf (c :: cs) || hasRun q n cs

/-- A character as it stands in a basic string on one line. -/
def escapedChar (c : Char) : List Char :=
  match c with
  | '"' => ['\\', '"']
  | '\\' => ['\\', '\\']
  | '\t' => ['\\', 't']
  | '\n' => ['\\', 'n']
  | '\r' => ['\\', 'r']
  | _ =>
    if c.toNat = 8 then ['\\', 'b']
    else if c.toNat = 12 then ['\\', 'f']
    else if c.toNat < 0x20 || c.toNat = 0x7F then
      ['\\', 'u', '0', '0', Text.hexDigit (c.toNat / 16), Text.hexDigit (c.toNat % 16)]
    else [c]

/-- A text as it stands in a basic string of several lines: line breaks stand for themselves, and so do
quotes, but for every third one in a row. -/
def escapedLines (quotes : Nat) : List Char → List Char
  | [] => []
  | c :: cs =>
    if c = '"' then
      if quotes < 2 then '"' :: escapedLines (quotes + 1) cs
      else '\\' :: '"' :: escapedLines 0 cs
    else if c = '\n' then '\n' :: escapedLines 0 cs
    else escapedChar c ++ escapedLines 0 cs

namespace StringStyle

/-- The form in which a text is written. -/
def ofText (cs : List Char) : StringStyle :=
  let controls := cs.any fun c => !isPlain c && c ≠ '\n'
  let lines := cs.contains '\n'
  let backslashes := cs.contains '\\'
  if !controls && !lines && !backslashes && !cs.contains '"' then .basic
  else if !controls && !lines && !cs.contains '\'' then .literal
  else if !controls && !backslashes && !hasRun '"' 3 cs then .basicLines
  else if !controls && !hasRun '\'' 3 cs then .literalLines
  else if lines then .basicLines
  else .basic

/-- A text between three quotes. The line break after the first ones is no part of it; it is there if
the text has line breaks itself. -/
def betweenLines (q : Char) (text written : List Char) : List Char :=
  [q, q, q] ++ (if text.contains '\n' then ['\n'] else []) ++ written ++ [q, q, q]

/-- A text in one of the forms. -/
def render (cs : List Char) : StringStyle → List Char
  | .basic => '"' :: cs.flatMap escapedChar ++ ['"']
  | .literal => '\'' :: cs ++ ['\'']
  | .basicLines => betweenLines '"' cs (escapedLines 0 cs)
  | .literalLines => betweenLines '\'' cs cs

end StringStyle

/-- The written form of a string. -/
def renderString (s : String) : List Char :=
  (StringStyle.ofText s.toList).render s.toList

end LedgerExplorer.Toml
