import LedgerExplorer.Json.Numeral
import LedgerExplorer.Json.Quotation

/-!
# Readings of JSON text

A `Reading` is what can be made out of a JSON text before and at its first fault. It keeps the parts
in the order of the text, so that a decoder that goes through it meets a wrong value before a fault
of form that stands further on. A value in memory has a reading without faults (`Json.reading`), and
a reading without faults is a value (`Reading.value?`).
-/

namespace LedgerExplorer

inductive Reading
  | null
  | bool (b : Bool)
  /-- A numeral; none if it has no value, as one that is too large. -/
  | number (n : Option Json.Number)
  /-- A string; none if a surrogate stands alone in it. -/
  | string (s : Option String)
  /-- Items up to the closing bracket, or up to a fault. -/
  | array (items : List Reading) (closed : Bool)
  /-- Members up to the closing brace, or up to a fault. -/
  | object (members : List (Option String × Reading)) (closed : Bool)
  /-- A well-formed array or object inside too many others. -/
  | deep
  /-- No value starts here. -/
  | unreadable

namespace Reading

/-- Whether the text cannot be followed beyond this part. -/
def broken : Reading → Bool
  | .array _ closed => !closed
  | .object _ closed => !closed
  | .unreadable => true
  | _ => false

/-- The greatest number of arrays and objects around a value. -/
def maxDepth : Nat := 127

def isSpace (c : Char) : Bool :=
  c == ' ' || c == '\n' || c == '\t' || c == '\r'

def skipSpace (cs : List Char) : List Char :=
  cs.dropWhile isSpace

/-- A reading as it stands inside `room` further arrays and objects. -/
def within (room : Nat) (r : Reading) : Reading :=
  if room = 0 then (if r.broken then .unreadable else .deep) else r

mutual

/-- The value at the start of a text, and the text after it. -/
def readValue : Nat → Nat → List Char → Reading × List Char
  | 0, _, _ => (.unreadable, [])
  | fuel + 1, room, cs =>
    match skipSpace cs with
    | 'n' :: 'u' :: 'l' :: 'l' :: rest => (.null, rest)
    | 't' :: 'r' :: 'u' :: 'e' :: rest => (.bool true, rest)
    | 'f' :: 'a' :: 'l' :: 's' :: 'e' :: rest => (.bool false, rest)
    | '"' :: rest =>
      match Json.readQuotation rest with
      | some (s, after) => (.string s, after)
      | none => (.unreadable, [])
    | '[' :: rest =>
      match skipSpace rest with
      | ']' :: after => (within room (.array [] true), after)
      | _ =>
        let (items, closed, after) := readItems fuel (room - 1) rest
        (within room (.array items closed), after)
    | '\x7b' :: rest =>
      match skipSpace rest with
      | '\x7d' :: after => (within room (.object [] true), after)
      | _ =>
        let (members, closed, after) := readMembers fuel (room - 1) rest
        (within room (.object members closed), after)
    | cs =>
      match Json.readNumeral cs with
      | some (l, after) => (.number l.value?, after)
      | none => (.unreadable, [])

/-- The items from here to the closing bracket, whether it was found, and the text after it. -/
def readItems : Nat → Nat → List Char → List Reading × Bool × List Char
  | 0, _, _ => ([], false, [])
  | fuel + 1, room, cs =>
    let (r, rest) := readValue fuel room cs
    if r.broken then ([r], false, [])
    else match skipSpace rest with
      | ',' :: rest =>
        let (rs, closed, after) := readItems fuel room rest
        (r :: rs, closed, after)
      | ']' :: after => ([r], true, after)
      | _ => ([r], false, [])

/-- The members from here to the closing brace, whether it was found, and the text after it. -/
def readMembers : Nat → Nat → List Char → List (Option String × Reading) × Bool × List Char
  | 0, _, _ => ([], false, [])
  | fuel + 1, room, cs =>
    match skipSpace cs with
    | '"' :: rest =>
      match Json.readQuotation rest with
      | none => ([], false, [])
      | some (k, rest) =>
        match skipSpace rest with
        | ':' :: rest =>
          let (r, rest) := readValue fuel room rest
          if r.broken then ([(k, r)], false, [])
          else match skipSpace rest with
            | ',' :: rest =>
              let (ms, closed, after) := readMembers fuel room rest
              ((k, r) :: ms, closed, after)
            | '\x7d' :: after => ([(k, r)], true, after)
            | _ => ([(k, r)], false, [])
        | _ => ([(k, .unreadable)], false, [])
    | _ => ([], false, [])

end

/-- The value that a text starts with, and whether only blanks follow it. An opening bracket takes two
steps, one for the value and one for its first item, and no other character takes more. -/
def ofText (s : String) : Reading × Bool :=
  let cs := s.toList
  let (r, rest) := readValue (2 * cs.length + 1) maxDepth cs
  (r, (skipSpace rest).isEmpty)

mutual

/-- The value of a reading without faults. -/
def value? : Reading → Option Json
  | .null => some .null
  | .bool b => some (.bool b)
  | .number n => n.map .number
  | .string s => s.map .string
  | .array items closed => if closed then (values? items).map .array else none
  | .object members closed => if closed then (memberValues? members).map .object else none
  | .deep => none
  | .unreadable => none

def values? : List Reading → Option (List Json)
  | [] => some []
  | r :: rest =>
    match value? r, values? rest with
    | some v, some vs => some (v :: vs)
    | _, _ => none

def memberValues? : List (Option String × Reading) → Option (List (String × Json))
  | [] => some []
  | (k, r) :: rest =>
    match k, value? r, memberValues? rest with
    | some k, some v, some vs => some ((k, v) :: vs)
    | _, _, _ => none

end

end Reading

namespace Json

mutual

/-- The reading of a value in memory. -/
def reading : Json → Reading
  | .null => .null
  | .bool b => .bool b
  | .number n => .number (some n)
  | .string s => .string (some s)
  | .array items => .array (readings items) true
  | .object members => .object (memberReadings members) true

def readings : List Json → List Reading
  | [] => []
  | v :: rest => reading v :: readings rest

def memberReadings : List (String × Json) → List (Option String × Reading)
  | [] => []
  | (k, v) :: rest => (some k, reading v) :: memberReadings rest

end

/-- The value of a well-formed text, with members in key order and the last of each name. -/
def ofText? (s : String) : Option Json :=
  match Reading.ofText s with
  | (r, true) => r.value?.map canonical
  | (_, false) => none

end Json

end LedgerExplorer
