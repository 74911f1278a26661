import LedgerExplorer.Histogram.Category
import LedgerExplorer.Histogram.Sample
import LedgerExplorer.Page.Query

/-!
# Bucket rows

A row has one count for every category, so that all rows of a histogram have the same columns. Sums
stop at the greatest word.

A row is written flat, the timestamp first and then the counts in order, and read back from an object
whose other members are all counts.
-/

namespace LedgerExplorer

structure BucketRow where
  timestamp : String
  counts : Dict UInt64
  deriving DecidableEq

namespace BucketRow

/-- The count of a category, zero if the row has none. -/
def get (r : BucketRow) (category : String) : UInt64 :=
  (r.counts.get? category).getD 0

/-- The sum over all categories. -/
def total (r : BucketRow) : UInt64 :=
  r.counts.values.foldl saturatingAdd 0

/-- The members of the written form, in order. A category named like the timestamp makes two members
of one name. -/
def members (r : BucketRow) : List (String × Json) :=
  ("timestamp", .string r.timestamp) :: (r.counts.map encode).entries

instance : Encode BucketRow := ⟨fun r => .object r.members⟩

/-- The timestamp met so far and the members held back as counts. -/
structure Partial where
  timestamp : Option String := none
  rest : List (String × Reading) := []

/-- Visits the members: a timestamp is decoded at once, any other member has to be a value. -/
def collect (m : Medium) :
    Partial → List (Option String × Reading) → Except DecodeError Partial
  | p, [] => .ok p
  | _, (none, _) :: _ => .error .malformed
  | p, (some k, r) :: tail =>
    if k = "timestamp" then
      if p.timestamp.isSome then .error (.duplicateField k)
      else do
        let t ← Decoder.string m r
        collect m { p with timestamp := some t } tail
    else do
      let _ ← r.whole
      collect m { p with rest := p.rest ++ [(k, r)] } tail

/-- Decodes the members held back. -/
def collectCounts (m : Medium) : Dict UInt64 → List (String × Reading) →
    Except DecodeError (Dict UInt64)
  | acc, [] => .ok acc
  | acc, (k, r) :: rest => do
    let n ← Decoder.long m r
    collectCounts m (acc.insert k n) rest

instance : Decode BucketRow where
  decode
    | m, .object ms closed => do
      let p ← collect m {} ms
      if !closed then throw .malformed
      match p.timestamp with
      | none => throw (.missingField "timestamp")
      | some timestamp =>
        let counts ← collectCounts m .empty p.rest
        return ⟨timestamp, counts⟩
    | _, r => .error (r.mismatch (.record "BucketRow"))

end BucketRow

/-- The rows of samples, and how many of their entries had a type that is not mapped. -/
structure Histogram where
  rows : List BucketRow
  dropped : Nat
  deriving DecidableEq

namespace Histogram

/-- Adds a count to the category of its type, or leaves it out if the type is not mapped. -/
def addEntry (m : CategoryMap) (counts : Dict UInt64) (t : TypeCount) : Dict UInt64 :=
  match m.categoryOf? t.type with
  | some c => counts.insert c (saturatingAdd ((counts.get? c).getD 0) t.count)
  | none => counts

/-- The row of a sample. -/
def rowOf (m : CategoryMap) (s : MetricSample) : BucketRow :=
  ⟨s.timestamp, s.types.foldl (addEntry m) (m.categorySet.map fun _ => 0)⟩

/-- The number of entries of a sample whose type is not mapped. -/
def droppedOf (m : CategoryMap) (s : MetricSample) : Nat :=
  s.types.countP fun t => (m.categoryOf? t.type).isNone

/-- One row for every sample, in order. -/
def aggregate (samples : List MetricSample) (m : CategoryMap) : Histogram where
  rows := samples.map (rowOf m)
  dropped := samples.foldl (fun n s => n + droppedOf m s) 0

/-- Whether every count of every row is zero. -/
def isEmpty (rows : List BucketRow) : Bool :=
  rows.all fun r => r.counts.values.all (· == 0)

/-- Adds the counts of a row to the totals. -/
def addRow (totals : Dict UInt64) (r : BucketRow) : Dict UInt64 :=
  r.counts.entries.foldl
    (fun acc e => acc.insert e.1 (saturatingAdd ((acc.get? e.1).getD 0) e.2)) totals

/-- The sum of every category over all rows. -/
def totals (rows : List BucketRow) : Dict UInt64 :=
  rows.foldl addRow .empty

end Histogram

end LedgerExplorer
