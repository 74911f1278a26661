import LedgerExplorer.Dict

/-!
# Metrics

What is counted, and the sample under which each count is exported. Counts are kept as a log of what
happened; `Counter.growth` adds it up.
-/

namespace LedgerExplorer

/-- Why a page is not shown. -/
inductive StaleReason
  | cancelled
  | superseded
  deriving DecidableEq, Repr

def StaleReason.name : StaleReason → String
  | .cancelled => "cancelled"
  | .superseded => "superseded"

/-- How a lookup in a cache was met. -/
inductive LookupResult
  | hit
  | coalesced
  | miss
  deriving DecidableEq, Repr

def LookupResult.name : LookupResult → String
  | .hit => "hit"
  | .coalesced => "coalesced"
  | .miss => "miss"

/-- How a fetch for a cache ended. -/
inductive FetchResult
  | resolved
  | notFound
  | error
  | aborted
  deriving DecidableEq, Repr

def FetchResult.name : FetchResult → String
  | .resolved => "resolved"
  | .notFound => "not_found"
  | .error => "error"
  | .aborted => "aborted"

/-- An event that raises a count by one. -/
inductive Counter
  /-- The fetch of a page ended with a page or with an error. -/
  | pageFetch (entityPath : String) (success : Bool)
  /-- The time that the fetch of a page took was observed. -/
  | pageDuration (entityPath : String)
  | stalePage (reason : StaleReason)
  | lookup (namespaceName : String) (result : LookupResult)
  | resolution (namespaceName : String) (result : FetchResult)
  /-- An entry of a histogram had a type without a category. -/
  | droppedType
  deriving DecidableEq, Repr

namespace Counter

/-- A character as it stands in a label. -/
def labelChar : Char → List Char
  | '\\' => ['\\', '\\']
  | '"' => ['\\', '"']
  | '\n' => ['\\', 'n']
  | c => [c]

/-- A label with its value in quotes. -/
def label (name value : String) : String :=
  name ++ "=\"" ++ String.ofList (value.toList.flatMap labelChar) ++ "\""

/-- The name of a sample with its labels, which stand in order of their names. -/
def sample (name : String) (labels : List (String × String)) : String :=
  "ledgerscope_" ++ name ++ "\x7b" ++
    String.intercalate "," (labels.map fun l => label l.1 l.2) ++ "\x7d"

/-- The sample that a count is exported under. -/
def sampleName : Counter → String
  | pageFetch entityPath success =>
    sample "page_fetches_total" [("entity", entityPath),
      ("status", if success then "success" else "error")]
  | pageDuration entityPath =>
    sample "page_fetch_duration_seconds_count" [("entity", entityPath)]
  | stalePage reason => sample "stale_pages_discarded_total" [("reason", reason.name)]
  | lookup namespaceName result =>
    sample "resolution_lookups_total" [("namespace", namespaceName), ("result", result.name)]
  | resolution namespaceName result =>
    sample "resolution_fetches_total" [("namespace", namespaceName), ("outcome", result.name)]
  | droppedType => "ledgerscope_histogram_types_dropped_total"

/-- How much every sample grew, without those that did not grow. -/
def growth (log : List Counter) : Dict Nat :=
  log.foldl (fun acc c => acc.insert c.sampleName ((acc.get? c.sampleName).getD 0 + 1)) .empty

end Counter

end LedgerExplorer
