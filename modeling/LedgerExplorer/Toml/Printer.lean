import LedgerExplorer.Text.Natural
import LedgerExplorer.Toml.StringStyle

/-!
# Writing TOML documents

A document of tables of settings, a header and a line for every setting, and a blank line between two
tables. Integers have 64 bits with a sign, so a greater one has no written form.
-/

namespace LedgerExplorer.Toml

/-- The value of a line. -/
inductive Setting
  | string (s : String)
  | integer (n : Nat)
  deriving DecidableEq, Repr

/-- The written form of a value; none if it has none. -/
def Setting.render? : Setting → Option (List Char)
  | .string s => some (renderString s)
  | .integer n => if n ≤ Int64.maxValue.toInt then some (Text.digits n) else none

/-- A line for every setting. -/
def renderLines? : List (String × Setting) → Option (List Char)
  | [] => some []
  | (k, v) :: rest => do
    return k.toList ++ [' ', '=', ' '] ++ (← v.render?) ++ '\n' :: (← renderLines? rest)

/-- A header and its lines. -/
def renderTable? (name : String) (settings : List (String × Setting)) : Option (List Char) := do
  return '[' :: name.toList ++ ']' :: '\n' :: (← renderLines? settings)

/-- The tables with a blank line between them. -/
def renderTables? : List (String × List (String × Setting)) → Option (List Char)
  | [] => some []
  | [(name, settings)] => renderTable? name settings
  | (name, settings) :: rest => do
    return (← renderTable? name settings) ++ '\n' :: (← renderTables? rest)

end LedgerExplorer.Toml
