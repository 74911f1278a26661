import LedgerExplorer.DateRange

/-!
# Page queries and page requests

A page query says which records of a collection a view asks for. A request is the query compiled for
a namespace and a moment: its path, and the query string
`<filters><date range>&limit=<n>&skip=<offset>&count` without the leading separator.
-/

namespace LedgerExplorer

structure PageQuery where
  entityPath : String
  filters : List FilterDraft := []
  dateRange : Option DateRange := none
  offset : UInt64 := 0
  limit : UInt64
  deriving DecidableEq, Repr

/-- The product, or the greatest word if it does not fit. -/
def saturatingMul (a b : UInt64) : UInt64 :=
  UInt64.ofNat (min (a.toNat * b.toNat) Text.maxWord)

/-- The sum, or the greatest word if it does not fit. -/
def saturatingAdd (a b : UInt64) : UInt64 :=
  UInt64.ofNat (min (a.toNat + b.toNat) Text.maxWord)

namespace PageQuery

/-- The query for the first page of a collection. -/
def first (entityPath : String) (limit : UInt64) : PageQuery where
  entityPath := entityPath
  limit := limit

def addFilter (q : PageQuery) (d : FilterDraft) : PageQuery :=
  { q with filters := q.filters ++ [d] }

def within (q : PageQuery) (r : DateRange) : PageQuery :=
  { q with dateRange := some r }

/-- Moves to a page, counted from zero. -/
def page (q : PageQuery) (n : UInt64) : PageQuery :=
  { q with offset := saturatingMul n q.limit }

/-- Moves to an offset. -/
def skip (q : PageQuery) (offset : UInt64) : PageQuery :=
  { q with offset := offset }

def layout : Layout where
  name := "PageQuery"
  fields := [.of "entityPath" Decoder.string, .of "filters" (decode : Decoder (List FilterDraft)),
    .of "dateRange" (decode : Decoder (Option DateRange)), .of "offset" Decoder.size,
    .of "limit" Decoder.size]

instance : Decode PageQuery where
  decode := layout.decode fun m ps => do
    let entityPath ← layout.required m ps "entityPath" Decoder.string
    let filters ← layout.defaulted m ps "filters" decode []
    let dateRange ← layout.defaulted m ps "dateRange" decode none
    let offset ← layout.defaulted m ps "offset" Decoder.size 0
    let limit ← layout.required m ps "limit" Decoder.size
    return ⟨entityPath, filters, dateRange, offset, limit⟩

instance : Encode PageQuery where
  encode q := .object [("entityPath", .string q.entityPath), ("filters", encode q.filters),
    ("dateRange", encode q.dateRange), ("offset", encode q.offset), ("limit", encode q.limit)]

end PageQuery

/-- Why a query makes no request. -/
inductive QueryError
  | emptyPath
  | limitOutside (limit max : Nat)
  /-- The window starts before the first second of the clock. -/
  | noStart
  deriving DecidableEq, Repr

/-- The explanation of an error that is reported to the caller. -/
def QueryError.message : QueryError → String
  | .emptyPath => "entity path is empty"
  | .limitOutside limit max =>
    "limit " ++ Text.natural limit ++ " outside 1..=" ++ Text.natural max
  | .noStart => "date range starts before the clock"

structure PageRequest where
  namespaceName : String
  entityPath : String
  /-- The percent-encoded tokens of the filters, each behind a separator. -/
  filterFragment : String
  /-- The token of the date range behind a separator, or nothing. -/
  dateRangeFragment : String
  offset : UInt64
  limit : UInt64
  deriving DecidableEq, Repr

namespace PageRequest

/-- The token of the date range of a query. -/
def rangeTokens (q : PageQuery) (now : Instant) : Except QueryError (List FilterToken) :=
  match q.dateRange with
  | none => .ok []
  | some r =>
    match r.token? now with
    | some t => .ok [t]
    | none => .error .noStart

/-- The request of a query; its limit has to lie between one and `maxLimit`. -/
def build (namespaceName : String) (q : PageQuery) (now : Instant) (maxLimit : UInt64) :
    Except QueryError PageRequest := do
  let entityPath := Text.trimSlashes q.entityPath
  if entityPath = "" then throw .emptyPath
  if q.limit = 0 ∨ maxLimit < q.limit then throw (.limitOutside q.limit.toNat maxLimit.toNat)
  let range ← rangeTokens q now
  return {
    namespaceName
    entityPath
    filterFragment := FilterToken.join (q.filters.map FilterDraft.compileEncoded)
    dateRangeFragment := FilterToken.join range
    offset := q.offset
    limit := q.limit
  }

def path (r : PageRequest) : String :=
  "/namespaces/" ++ r.namespaceName ++ "/" ++ r.entityPath

/-- The bounds of the page, each behind a separator. -/
def pagingFragment (r : PageRequest) : String :=
  "&limit=" ++ Text.natural r.limit.toNat ++ "&skip=" ++ Text.natural r.offset.toNat ++ "&count"

/-- The query string, without a leading question mark or separator. -/
def query (r : PageRequest) : String :=
  String.ofList ((r.filterFragment ++ r.dateRangeFragment ++ r.pagingFragment).toList.drop 1)

end PageRequest

end LedgerExplorer
