import LedgerExplorer.Json.Decode
import LedgerExplorer.Toml.Numeral
import LedgerExplorer.Toml.Text

/-!
# Reading TOML documents

A document is read line by line: a header opens a table, and the lines after it put values into that
table until the next header. Values nest, and keys join, fewer than eighty times.
-/

namespace LedgerExplorer.Toml

/-- The greatest number of arrays and tables around a value, and of parts of a key. -/
def maxNesting : Nat := 79

/-- The characters of a key that needs no quotes. -/
def isBareKeyChar (c : Char) : Bool :=
  c.isAlphanum || c = '-' || c = '_'

/-- A part of a key, and the text after it. -/
def readKeyPart (cs : List Char) : Option (String × List Char) :=
  match cs.takeWhile isBareKeyChar with
  | [] => readLineString cs
  | k => some (String.ofList k, cs.dropWhile isBareKeyChar)

/-- A key of at most so many parts, as the path to its last part and that part, and the text behind
it and its spaces. -/
def readKey : Nat → List Char → Option (List String × String × List Char)
  | 0, _ => none
  | room + 1, cs => do
    let (k, rest) ← readKeyPart (skipSpace cs)
    match skipSpace rest with
    | '.' :: rest =>
      let (path, last, after) ← readKey room rest
      return (k :: path, last, after)
    | rest => return ([], k, rest)

mutual

/-- A value that stands inside all but `room` of the arrays and tables that may be around it, and the
text after it. -/
def readValue : Nat → Nat → List Char → Option (Toml × List Char)
  | 0, _, _ => none
  | fuel + 1, room, cs =>
    match cs with
    | '"' :: _ | '\'' :: _ => (readString cs).map fun (s, after) => (.string s, after)
    | '[' :: rest =>
      if room = 0 then none
      else (readItems fuel (room - 1) rest).map fun (vs, after) => (.array vs, after)
    | '\x7b' :: rest =>
      if room = 0 then none
      else match skipSpace rest with
        | '\x7d' :: after => some (.inline [], after)
        | _ => (readPairs fuel (room - 1) {} rest).map fun (t, after) => (.inline t.entries, after)
    | _ => readWord? cs

/-- The items from here to the closing bracket, and the text after it. -/
def readItems : Nat → Nat → List Char → Option (List Toml × List Char)
  | 0, _, _ => none
  | fuel + 1, room, cs =>
    match skipLines false cs with
    | ']' :: after => some ([], after)
    | cs => do
      let (v, rest) ← readValue fuel room cs
      match skipLines false rest with
      | ',' :: rest =>
        let (vs, after) ← readItems fuel room rest
        return (v :: vs, after)
      | ']' :: after => return ([v], after)
      | _ => none

/-- Puts the pairs from here to the closing brace into a table; returns it and the text after them. -/
def readPairs : Nat → Nat → Table → List Char → Option (Table × List Char)
  | 0, _, _, _ => none
  | fuel + 1, room, t, cs => do
    let (path, k, rest) ← readKey maxNesting cs
    let '=' :: rest := rest | none
    let (v, rest) ← readValue fuel room (skipSpace rest)
    let t ← addValue path k v t
    match skipSpace rest with
    | ',' :: rest => readPairs fuel room t rest
    | '\x7d' :: after => return (t, after)
    | _ => none

end

/-- A document that is being read: the tables that are complete, and the one that the last header
opened, with its path and whether it is one of a row of tables. -/
structure Document where
  root : Table := {}
  current : Table := {}
  path : Option (List String × String) := none
  inRow : Bool := false

namespace Document

/-- Puts the open table into its place. -/
def close (d : Document) : Option Table :=
  match d.path with
  | none => some d.current
  | some (path, k) =>
    (descend false (fun t =>
      match d.inRow, t.entries.lookup k with
      | true, some (.tables ts) => some (t.put k (.tables (ts ++ [d.current.entries])), ())
      | false, none => some (t.put k d.current.toToml, ())
      | _, _ => none) path d.root).map Prod.fst

/-- Opens a table, which must be new or must have stood only on the way to others. -/
def openTable (d : Document) (path : List String) (k : String) : Option Document := do
  let root ← d.close
  let (root, entries) ← descend false (fun t =>
    match t.entries.lookup k with
    | none => some (t, [])
    | some (.table true false entries) => some (t.erase k, entries)
    | _ => none) path root
  return { root, current := { entries }, path := some (path, k), inRow := false }

/-- Opens a further table of a row. -/
def openRow (d : Document) (path : List String) (k : String) : Option Document := do
  let root ← d.close
  let (root, _) ← descend false (fun t =>
    match t.entries.lookup k with
    | none => some (t.put k (.tables []), ())
    | some (.tables _) => some (t, ())
    | _ => none) path root
  return { root, current := {}, path := some (path, k), inRow := true }

/-- Puts a value into the open table. -/
def add (d : Document) (path : List String) (k : String) (v : Toml) : Option Document := do
  return { d with current := ← addValue path k v d.current }

/-- Reads the lines of a text into a document. -/
def readLines : Nat → Document → List Char → Option Document
  | 0, _, _ => none
  | fuel + 1, d, cs =>
    match skipSpace cs with
    | [] => some d
    | '[' :: '[' :: rest => do
      let (path, k, rest) ← readKey maxNesting rest
      let ']' :: ']' :: rest := rest | none
      readLines fuel (← d.openRow path k) (← endOfLine? rest)
    | '[' :: rest => do
      let (path, k, rest) ← readKey maxNesting rest
      let ']' :: rest := rest | none
      readLines fuel (← d.openTable path k) (← endOfLine? rest)
    | cs =>
      match endOfLine? cs with
      | some rest => readLines fuel d rest
      | none => do
        let (path, k, rest) ← readKey maxNesting cs
        let '=' :: rest := rest | none
        let (v, rest) ← readValue (rest.length + 1) maxNesting (skipSpace rest)
        readLines fuel (← d.add path k v) (← endOfLine? rest)

end Document

/-- The table of a document, which may start with a byte order mark. -/
def ofText? (s : String) : Option Table :=
  let cs := match s.toList with
    | '\ufeff' :: rest => rest
    | cs => cs
  (Document.readLines (cs.length + 1) {} cs).bind Document.close

/-- Decodes the table of a document. -/
def decodeText? (d : Decoder α) (s : String) : Option α :=
  (ofText? s).bind fun t => (d .document t.toToml.reading).toOption

end LedgerExplorer.Toml
