import LedgerExplorer.DateRange

/-!
# Histogram requests

A request for the counts of a charted collection, in a number of buckets between two seconds.
-/

namespace LedgerExplorer

structure HistogramRequest where
  namespaceName : String
  collection : String
  start : Int
  stop : Int
  buckets : UInt64
  deriving DecidableEq, Repr

namespace HistogramRequest

/-- The request for a named window that ends now, with at least one bucket. -/
def forRange? (namespaceName collection : String) (r : DateRange) (now : Instant)
    (buckets : UInt64) : Option HistogramRequest :=
  (r.start? now).map fun start =>
    ⟨namespaceName, collection, start, now.seconds, max buckets 1⟩

def path (r : HistogramRequest) : String :=
  "/namespaces/" ++ r.namespaceName ++ "/charts/histogram/" ++ r.collection

/-- The query string, without a leading question mark. -/
def query (r : HistogramRequest) : String :=
  "startTime=" ++ Text.integer r.start ++ "&endTime=" ++ Text.integer r.stop ++ "&buckets=" ++
    Text.natural r.buckets.toNat

end HistogramRequest

end LedgerExplorer
