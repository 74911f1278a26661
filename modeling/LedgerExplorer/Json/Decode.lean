import LedgerExplorer.Decimal.Shortest
import LedgerExplorer.Json.Reading
import LedgerExplorer.Text.Blank
import LedgerExplorer.Text.Quoted

/-!
# Decoding

A decoder turns a reading into a value of a type or reports the first thing it meets that does not
fit. Records are decoded by a `Layout`: their fields in order of declaration, read from an object by
name or from an array by position. The members of an object are visited in the order in which they
stand, and only then are missing fields reported.
-/

namespace LedgerExplorer

/-- What the reading was made from. In a value the size of every part is known beforehand, in a text
only when its end is reached, and a document does not mind surplus items. -/
inductive Medium
  | value
  | text
  | document
  deriving DecidableEq, Repr

/-- What stood where something else was expected. -/
inductive Found
  | null
  | bool (b : Bool)
  | number (n : Json.Number)
  | string (s : String)
  | sequence
  | map
  deriving DecidableEq, Repr

def Found.text : Found → String
  | .null => "null"
  | .bool b => "boolean `" ++ (if b then "true" else "false") ++ "`"
  | .number (.integer n) => "integer `" ++ Text.integer n ++ "`"
  | .number (.double x) => "floating point `" ++ x.text ++ "`"
  | .string s => "string " ++ Text.quoted s
  | .sequence => "sequence"
  | .map => "map"

/-- An unsigned integer type of the wire format. -/
structure Unsigned where
  name : String
  max : Nat

/-- A size or a position. -/
def Unsigned.size : Unsigned := ⟨"usize", UInt64.size - 1⟩

/-- A number of 64 bits. -/
def Unsigned.long : Unsigned := ⟨"u64", UInt64.size - 1⟩

/-- A number of 32 bits. -/
def Unsigned.short : Unsigned := ⟨"u32", UInt32.size - 1⟩

/-- What a decoder asks for. -/
inductive Expected
  | string
  | boolean
  | unsigned (name : String)
  | sequence
  | map
  | record (name : String)
  | stringOrMap
  | unit
  | singleMember
  | elements (name : String) (count : Nat)
  | fewerElements
  | pair
  deriving DecidableEq, Repr

def Expected.text : Expected → String
  | .string => "a string"
  | .boolean => "a boolean"
  | .unsigned name => name
  | .sequence => "a sequence"
  | .map => "a map"
  | .record name => "struct " ++ name
  | .stringOrMap => "string or map"
  | .unit => "unit"
  | .singleMember => "map with a single key"
  | .elements name count => "struct " ++ name ++ " with " ++ Text.natural count ++ " elements"
  | .fewerElements => "fewer elements in array"
  | .pair => "a tuple of size 2"

/-- Why a reading does not decode. -/
inductive DecodeError
  /-- The text is not well formed. -/
  | malformed
  | wrongType (found : Found) (expected : Expected)
  | wrongValue (found : Found) (expected : Expected)
  | wrongLength (length : Nat) (expected : Expected)
  | missingField (name : String)
  | duplicateField (name : String)
  | unknownVariant (name : String) (known : List String)
  /-- A count is neither an unsigned integer nor a string. -/
  | noCount
  | numeral (e : Text.NumeralError)
  deriving DecidableEq, Repr

def DecodeError.message : DecodeError → String
  | .malformed => "malformed text"
  | .wrongType found expected => "invalid type: " ++ found.text ++ ", expected " ++ expected.text
  | .wrongValue found expected => "invalid value: " ++ found.text ++ ", expected " ++ expected.text
  | .wrongLength length expected =>
    "invalid length " ++ Text.natural length ++ ", expected " ++ expected.text
  | .missingField name => "missing field `" ++ name ++ "`"
  | .duplicateField name => "duplicate field `" ++ name ++ "`"
  | .unknownVariant name known =>
    "unknown variant `" ++ name ++ "`, expected one of " ++
      String.intercalate ", " (known.map fun k => "`" ++ k ++ "`")
  | .noCount => "data did not match any variant of untagged enum RawCount"
  | .numeral e => e.message

/-- A decoder of a type. -/
abbrev Decoder (α : Type) := Medium → Reading → Except DecodeError α

/-- A type with a decoder. -/
class Decode (α : Type) where
  decode : Decoder α

export Decode (decode)

namespace Reading

/-- What stands here, unless the text is at fault. -/
def found : Reading → Except DecodeError Found
  | .null => .ok .null
  | .bool b => .ok (.bool b)
  | .number (some n) => .ok (.number n)
  | .string (some s) => .ok (.string s)
  | .array _ _ => .ok .sequence
  | .object _ _ => .ok .map
  | .number none | .string none | .deep | .unreadable => .error .malformed

/-- The report that something else was expected here. -/
def mismatch (r : Reading) (expected : Expected) : DecodeError :=
  match r.found with
  | .ok found => .wrongType found expected
  | .error e => e

/-- The value of a reading that has to be held as a whole before it can be judged. -/
def whole (r : Reading) : Except DecodeError Json :=
  match r.value? with
  | some v => .ok v
  | none => .error .malformed

end Reading

namespace Decoder

def string : Decoder String
  | _, .string (some s) => .ok s
  | _, r => .error (r.mismatch .string)

def bool : Decoder Bool
  | _, .bool b => .ok b
  | _, r => .error (r.mismatch .boolean)

/-- A natural number that an unsigned type holds. -/
def unsigned (u : Unsigned) : Decoder Nat
  | _, .number (some (.integer n)) =>
    if 0 ≤ n ∧ n ≤ u.max then .ok n.toNat
    else .error (.wrongValue (.number (.integer n)) (.unsigned u.name))
  | _, r => .error (r.mismatch (.unsigned u.name))

def size : Decoder UInt64 := fun m r => (unsigned .size m r).map UInt64.ofNat

def long : Decoder UInt64 := fun m r => (unsigned .long m r).map UInt64.ofNat

def short : Decoder UInt32 := fun m r => (unsigned .short m r).map UInt32.ofNat

/-- A value that null stands in for. -/
def optional (d : Decoder α) : Decoder (Option α)
  | _, .null => .ok none
  | m, r => (d m r).map some

/-- Decodes items from the left. -/
def items (d : Decoder α) (m : Medium) : List Reading → Except DecodeError (List α)
  | [] => .ok []
  | r :: rest => do
    let x ← d m r
    let xs ← items d m rest
    return x :: xs

def list (d : Decoder α) : Decoder (List α)
  | m, .array rs closed => do
    let xs ← items d m rs
    if closed then return xs else throw .malformed
  | _, r => .error (r.mismatch .sequence)

/-- An array of two items. -/
def pair (d : Decoder α) (e : Decoder β) : Decoder (α × β)
  | m, .array rs closed => do
    let r :: rest := rs | throw (.wrongLength 0 .pair)
    let x ← d m r
    let r :: rest := rest | throw (.wrongLength 1 .pair)
    let y ← e m r
    if !rest.isEmpty then throw (.wrongLength rs.length .fewerElements)
    if closed then return (x, y) else throw .malformed
  | _, r => .error (r.mismatch .pair)

/-- Decodes members from the left; a later one takes the place of an earlier one of its name. -/
def entries (d : Decoder α) (m : Medium) :
    Dict α → List (Option String × Reading) → Except DecodeError (Dict α)
  | acc, [] => .ok acc
  | _, (none, _) :: _ => .error .malformed
  | acc, (some k, r) :: rest => do
    let x ← d m r
    entries d m (acc.insert k x) rest

def dict (d : Decoder α) : Decoder (Dict α)
  | m, .object ms closed => do
    let acc ← entries d m .empty ms
    if closed then return acc else throw .malformed
  | _, r => .error (r.mismatch .map)

/-- The value of a name in a table of variants. -/
def variant (table : List (String × α)) (name : String) : Except DecodeError α :=
  match table.lookup name with
  | some x => .ok x
  | none => .error (.unknownVariant name (table.map Prod.fst))

/-- The empty payload of a variant. -/
def unit : Decoder Unit
  | _, .null => .ok ()
  | _, r => .error (r.mismatch .unit)

/-- A variant of a table, written as its name or as an object with its name over null. In a value the
members are counted first; in a text they are met one by one. -/
def enumeration (table : List (String × α)) : Decoder α
  | _, .string (some name) => variant table name
  | .text, .object [] _ => .error .malformed
  | .text, .object ((none, _) :: _) _ => .error .malformed
  | .text, .object ((some name, r) :: rest) closed => do
    let x ← variant table name
    unit .text r
    if rest.isEmpty && closed then return x else throw .malformed
  | m, .object [(some name, r)] _ => do
    let x ← variant table name
    unit m r
    return x
  | _, .object _ _ => .error (.wrongValue .map .singleMember)
  | .text, _ => .error .malformed
  | _, r => .error (r.mismatch .stringOrMap)

end Decoder

/-- A field of a record: its name, and the check that a member under this name passes. -/
structure Field where
  name : String
  check : Medium → Reading → Except DecodeError Unit

/-- A field whose member a decoder has to accept. -/
def Field.of (name : String) (d : Decoder α) : Field :=
  ⟨name, fun m r => (d m r).map fun _ => ()⟩

/-- The name of a record and its fields in order of declaration. -/
structure Layout where
  name : String
  fields : List Field

/-- The parts of a record: members by name, or items by position. -/
inductive Layout.Parts
  | members (ms : List (Option String × Reading))
  | items (rs : List Reading) (closed : Bool)

namespace Layout

/-- Visits members in the order in which they stand. Unknown ones are passed over. -/
def visit (l : Layout) (m : Medium) :
    List String → List (Option String × Reading) → Except DecodeError Unit
  | _, [] => .ok ()
  | _, (none, _) :: _ => .error .malformed
  | seen, (some k, r) :: rest =>
    match l.fields.find? fun f => f.name = k with
    | none => visit l m seen rest
    | some f =>
      if seen.contains k then .error (.duplicateField k)
      else do
        f.check m r
        visit l m (k :: seen) rest

/-- The position of a field. -/
def position (l : Layout) (name : String) : Nat :=
  l.fields.findIdx fun f => f.name = name

/-- The part for a field, or none if it is not there. -/
def part? (l : Layout) (name : String) : Parts → Except DecodeError (Option Reading)
  | .members ms => .ok (ms.lookup (some name))
  | .items rs closed =>
    match rs[l.position name]? with
    | some r => .ok (some r)
    | none => if closed then .ok none else .error .malformed

/-- The report that a field is not there. -/
def absent (l : Layout) (name : String) : Parts → DecodeError
  | .members _ => .missingField name
  | .items _ _ => .wrongLength (l.position name) (.elements l.name l.fields.length)

/-- A field that has to be there. -/
def required (l : Layout) (m : Medium) (ps : Parts) (name : String) (d : Decoder α) :
    Except DecodeError α := do
  match ← l.part? name ps with
  | some r => d m r
  | none => throw (l.absent name ps)

/-- A field with a value to take if it is not there. -/
def defaulted (l : Layout) (m : Medium) (ps : Parts) (name : String) (d : Decoder α) (x : α) :
    Except DecodeError α := do
  match ← l.part? name ps with
  | some r => d m r
  | none => return x

/-- Decodes a record whose fields `build` collects in order of declaration. -/
def decode (l : Layout) (build : Medium → Parts → Except DecodeError α) : Decoder α
  | m, .object ms closed => do
    l.visit m [] ms
    if closed then build m (.members ms) else throw .malformed
  | m, .array rs closed => do
    let x ← build m (.items rs closed)
    if m = .document then return x
    else if l.fields.length < rs.length then
      throw (if m = .value then .wrongLength rs.length .fewerElements else .malformed)
    else if closed then return x else throw .malformed
  | _, r => .error (r.mismatch (.record l.name))

end Layout

instance : Decode String := ⟨Decoder.string⟩

instance : Decode Bool := ⟨Decoder.bool⟩

instance [Decode α] : Decode (Option α) := ⟨Decoder.optional decode⟩

instance [Decode α] : Decode (List α) := ⟨Decoder.list decode⟩

instance : Decode Json := ⟨fun _ r => r.whole.map Json.canonical⟩

/-- Decodes a value in memory. -/
def Json.decodeAs (d : Decoder α) (v : Json) : Except DecodeError α :=
  d .value v.reading

/-- Decodes a text. -/
def Json.decodeText (d : Decoder α) (s : String) : Except DecodeError α :=
  let (r, alone) := Reading.ofText s
  match d .text r with
  | .ok x => if alone then .ok x else .error .malformed
  | .error e => .error e

/-- A type with a written form. -/
class Encode (α : Type) where
  encode : α → Json

export Encode (encode)

instance : Encode Json := ⟨id⟩

instance : Encode String := ⟨.string⟩

instance : Encode Bool := ⟨.bool⟩

instance : Encode UInt64 := ⟨Json.word⟩

instance [Encode α] : Encode (Option α) := ⟨Json.optional encode⟩

instance [Encode α] : Encode (List α) := ⟨fun xs => .array (xs.map encode)⟩

end LedgerExplorer
