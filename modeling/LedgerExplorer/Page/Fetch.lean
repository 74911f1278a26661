import LedgerExplorer.Metrics
import LedgerExplorer.Page.Basic
import LedgerExplorer.Source

/-!
# Fetching pages

A fetch goes through three stages, between which it waits: it builds a request, it receives the
reply, and it puts the rows together from the answers to the references. Every stage first asks
whether the fetch has been cancelled.
-/

namespace LedgerExplorer

/-- Asks for the pages of one namespace. -/
structure Pager where
  namespaceName : String
  /-- The greatest number of rows of a page. -/
  maxPageSize : UInt64 := 100
  deriving DecidableEq, Repr

namespace Pager

/-- The pager with another bound, which is at least one. -/
def withMaxPageSize (p : Pager) (n : UInt64) : Pager :=
  { p with maxPageSize := max n 1 }

/-- The request that a query makes now. -/
def describe (p : Pager) (q : PageQuery) (now : Instant) : Except QueryError PageRequest :=
  PageRequest.build p.namespaceName q now p.maxPageSize

end Pager

/-- How the records of a page are decoded, and to which id each of them refers. -/
structure RowKind (R : Type) where
  decode : Decoder R
  reference? : R → Option String

/-- The body of a page. -/
structure RawPage (R : Type) where
  items : List R
  total : UInt64

namespace RawPage

def layout (d : Decoder R) : Layout where
  name := "RawPage"
  fields := [.of "items" (Decoder.list d), .of "total" Decoder.long]

def decoder (d : Decoder R) : Decoder (RawPage R) :=
  (layout d).decode fun m ps => do
    let items ← (layout d).required m ps "items" (Decoder.list d)
    let total ← (layout d).required m ps "total" Decoder.long
    return ⟨items, total⟩

end RawPage

/-- The members of a list, each at its first place. -/
def distinct : List String → List String
  | [] => []
  | x :: xs => x :: (distinct xs).filter (· ≠ x)

/-- A fetch whose request has been sent. -/
structure PageFetch (R : Type) where
  request : PageRequest
  rows : RowKind R

namespace PageFetch

/-- Builds the request of a query. -/
def start (p : Pager) (q : PageQuery) (now : Instant) (rows : RowKind R) (cancelled : Bool) :
    Except Failure (PageFetch R) :=
  match p.describe q now with
  | .error e => .error e.failure
  | .ok request => if cancelled then .error (.fault .cancelled) else .ok ⟨request, rows⟩

/-- Reads the reply to the request. An error of the source or of the body goes before cancellation. -/
def receive (f : PageFetch R) (cancelled : Bool) (reply : Reply) : Except Failure (RawPage R) :=
  match reply.decode (RawPage.decoder f.rows.decode) f.request.path with
  | .error e => .error e
  | .ok page => if cancelled then .error (.fault .cancelled) else .ok page

/-- The ids that the page refers to, each once. -/
def references (f : PageFetch R) (page : RawPage R) : List String :=
  distinct (page.items.filterMap f.rows.reference?)

/-- The row of a record. -/
def row (f : PageFetch R) (answers : Dict (Option E)) (record : R) : Row R E where
  record := record
  reference := (f.rows.reference? record).map fun id =>
    match answers.get? id with
    | some (some e) => .resolved e
    | _ => .unresolved id

/-- Puts the page together. -/
def assemble (f : PageFetch R) (page : RawPage R) (cancelled : Bool) (answers : Dict (Option E)) :
    Except Failure (Page R E) :=
  if cancelled then .error (.fault .cancelled)
  else .ok {
    rows := page.items.map (f.row answers)
    total := page.total
    offset := f.request.offset
    limit := f.request.limit }

/-- What the end of a fetch is counted as: a page as a success, a fault of the source or of the body
as an error, anything else not at all. -/
def counters (f : PageFetch R) : Except Failure (Page R E) → List Counter
  | .ok _ => [.pageFetch f.request.entityPath true, .pageDuration f.request.entityPath]
  | .error (.fault (.transport _)) | .error (.fault (.malformedResponse _ _)) =>
    [.pageFetch f.request.entityPath false, .pageDuration f.request.entityPath]
  | .error _ => []

end PageFetch

end LedgerExplorer
