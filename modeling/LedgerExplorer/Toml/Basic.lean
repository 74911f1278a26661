import LedgerExplorer.Json.Reading

/-!
# TOML documents

The parts of a document and the rules by which tables grow. A table that only stands on the way to
another one is implicit and may still be opened by a header; a table that dotted keys made may only
grow by dotted keys.
-/

namespace LedgerExplorer

inductive Toml
  | string (s : String)
  | integer (n : Int)
  /-- A number with a fraction or an exponent, as it is written. -/
  | float (text : String)
  | boolean (b : Bool)
  /-- A date, a time or both, as it is written. -/
  | datetime (text : String)
  | array (items : List Toml)
  /-- A table in braces, which cannot grow. -/
  | inline (entries : List (String × Toml))
  | table (implicit dotted : Bool) (entries : List (String × Toml))
  /-- Tables that were opened by headers in double brackets. -/
  | tables (ts : List (List (String × Toml)))

namespace Toml

/-- A table that can still grow. -/
structure Table where
  implicit : Bool := false
  dotted : Bool := false
  entries : List (String × Toml) := []

def Table.toToml (t : Table) : Toml := .table t.implicit t.dotted t.entries

/-- Puts a value under a key, in place or at the end. -/
def put (k : String) (v : Toml) : List (String × Toml) → List (String × Toml)
  | [] => [(k, v)]
  | (k', v') :: rest => if k = k' then (k, v) :: rest else (k', v') :: put k v rest

def Table.put (t : Table) (k : String) (v : Toml) : Table :=
  { t with entries := Toml.put k v t.entries }

/-- The table without the entry of a key. -/
def Table.erase (t : Table) (k : String) : Table :=
  { t with entries := t.entries.filter fun e => e.1 ≠ k }

/-- Changes the table at the end of a path. Tables that are missing on the way are made implicit; a
row of tables is entered at its last one. A path of dotted keys enters no table that a header
opened. -/
def descend (dotted : Bool) (f : Table → Option (Table × α)) :
    List String → Table → Option (Table × α)
  | [], t => f t
  | k :: path, t =>
    match t.entries.lookup k with
    | none => do
      let (child, x) ← descend dotted f path { implicit := true, dotted }
      return (t.put k child.toToml, x)
    | some (.table implicit dotted' entries) =>
      if dotted && !implicit then none
      else do
        let (child, x) ← descend dotted f path ⟨implicit, dotted', entries⟩
        return (t.put k child.toToml, x)
    | some (.tables ts) => do
      let last ← ts.getLast?
      let (child, x) ← descend dotted f path { entries := last }
      return (t.put k (.tables (ts.dropLast ++ [child.entries])), x)
    | some _ => none

/-- Puts a value under a dotted key, whose last part must be new. -/
def addValue (path : List String) (k : String) (v : Toml) (t : Table) : Option Table :=
  (descend true (fun t =>
    if t.dotted = path.isEmpty then none
    else if (t.entries.lookup k).isSome then none
    else some (t.put k v, ())) path t).map Prod.fst

mutual

/-- The reading of a document for a decoder. No setting is a float, so its value is left open; a date
is an object with a member of its own. -/
def reading : Toml → Reading
  | .string s => .string (some s)
  | .integer n => .number (some (.integer n))
  | .float _ => .number none
  | .boolean b => .bool b
  | .datetime text => .object [(some "datetime", .string (some text))] true
  | .array items => .array (readings items) true
  | .inline entries => .object (entryReadings entries) true
  | .table _ _ entries => .object (entryReadings entries) true
  | .tables ts => .array (tableReadings ts) true

def readings : List Toml → List Reading
  | [] => []
  | v :: rest => reading v :: readings rest

def entryReadings : List (String × Toml) → List (Option String × Reading)
  | [] => []
  | (k, v) :: rest => (some k, reading v) :: entryReadings rest

def tableReadings : List (List (String × Toml)) → List Reading
  | [] => []
  | t :: rest => .object (entryReadings t) true :: tableReadings rest

end

end Toml

end LedgerExplorer
