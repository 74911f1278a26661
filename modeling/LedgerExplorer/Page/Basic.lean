import LedgerExplorer.Page.Query

/-!
# Pages

The rows of a page in the order of the source. A row may refer to an entity; the page shows the
entity where it could be resolved, and its raw id elsewhere.
-/

namespace LedgerExplorer

inductive Reference (E : Type)
  | resolved (entity : E)
  | unresolved (id : String)
  deriving DecidableEq

namespace Reference

/-- The entity, if it was resolved. -/
def entity? : Reference E → Option E
  | resolved e => some e
  | unresolved _ => none

def isResolved (r : Reference E) : Bool := r.entity?.isSome

instance [Encode E] : Encode (Reference E) where
  encode
    | resolved e => .object [("status", .string "resolved"), ("value", encode e)]
    | unresolved id => .object [("status", .string "unresolved"), ("value", .string id)]

end Reference

structure Row (R E : Type) where
  record : R
  /-- Missing if the record refers to nothing. -/
  reference : Option (Reference E)
  deriving DecidableEq

instance [Encode R] [Encode E] : Encode (Row R E) where
  encode row := .object (("record", encode row.record) ::
    (row.reference.map fun r => ("reference", encode r)).toList)

/-- One page of rows. -/
structure Page (R E : Type) where
  rows : List (Row R E)
  /-- The number of records that match the query on all pages. -/
  total : UInt64
  offset : UInt64
  limit : UInt64
  deriving DecidableEq

namespace Page

def size (p : Page R E) : Nat := p.rows.length

def isEmpty (p : Page R E) : Bool := p.rows.isEmpty

/-- Whether there are records beyond this page. The end of the page stops at the greatest word. -/
def hasMore (p : Page R E) : Bool :=
  min (p.offset.toNat + p.size) Text.maxWord < p.total.toNat

instance [Encode R] [Encode E] : Encode (Page R E) where
  encode p := .object [("rows", encode p.rows), ("total", encode p.total),
    ("offset", encode p.offset), ("limit", encode p.limit)]

end Page

end LedgerExplorer
