import LedgerExplorer.Dict
import LedgerExplorer.Decimal.Double

/-!
# JSON values

A number is an integer or a double. The members of an object are kept as they are written;
`Json.canonical` puts them in key order and keeps the last of several members of one name, which is
how untyped data is held.
-/

namespace LedgerExplorer

inductive Json.Number
  | integer (n : Int)
  | double (x : Double)
  deriving DecidableEq, Repr

inductive Json
  | null
  | bool (b : Bool)
  | number (n : Json.Number)
  | string (s : String)
  | array (items : List Json)
  | object (members : List (String × Json))
  deriving Inhabited

namespace Json

/-- The number of a word. -/
def word (n : UInt64) : Json :=
  .number (.integer n.toNat)

/-- A natural number. -/
def natural (n : Nat) : Json :=
  .number (.integer n)

/-- A value that may be missing, written as null. -/
def optional (f : α → Json) : Option α → Json
  | some a => f a
  | none => .null

/-- An object with the members of a dictionary. -/
def ofDict (f : α → Json) (d : Dict α) : Json :=
  .object (d.map f).entries

mutual

/-- The value with the members of every object in key order, each name once. -/
def canonical : Json → Json
  | .array items => .array (canonicalItems items)
  | .object members => .object (Dict.ofList (canonicalMembers members)).entries
  | v => v

def canonicalItems : List Json → List Json
  | [] => []
  | v :: rest => canonical v :: canonicalItems rest

def canonicalMembers : List (String × Json) → List (String × Json)
  | [] => []
  | (k, v) :: rest => (k, canonical v) :: canonicalMembers rest

end

/-- The last member of a name, if the value is an object. -/
def member? (name : String) : Json → Option Json
  | .object members => members.reverse.lookup name
  | _ => none

/-- The text of a string. -/
def string? : Json → Option String
  | .string s => some s
  | _ => none

end Json

end LedgerExplorer
