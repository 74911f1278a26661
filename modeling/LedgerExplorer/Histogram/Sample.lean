import LedgerExplorer.Json.Decode

/-!
# Metric samples

The counts of one bucket as the source reports them, one for every raw type. A count is written as an
unsigned integer or as a string with a numeral.
-/

namespace LedgerExplorer

structure TypeCount where
  type : String
  count : UInt64
  deriving DecidableEq, Repr

structure MetricSample where
  timestamp : String
  types : List TypeCount := []
  deriving DecidableEq, Repr

/-- A count: an unsigned integer, or a string with a numeral and blanks around it. The part is held as
a whole before it is judged. -/
def Decoder.count : Decoder UInt64 := fun _ r => do
  match ← r.whole with
  | .number (.integer n) =>
    if 0 ≤ n ∧ n ≤ Unsigned.long.max then return UInt64.ofNat n.toNat else throw .noCount
  | .string s => (Text.readWord (Text.trim s)).mapError .numeral
  | _ => throw .noCount

namespace TypeCount

def layout : Layout where
  name := "TypeCount"
  fields := [.of "type" Decoder.string, .of "count" Decoder.count]

instance : Decode TypeCount where
  decode := layout.decode fun m ps => do
    let type ← layout.required m ps "type" Decoder.string
    let count ← layout.required m ps "count" Decoder.count
    return ⟨type, count⟩

instance : Encode TypeCount where
  encode t := .object [("type", .string t.type), ("count", encode t.count)]

end TypeCount

namespace MetricSample

def layout : Layout where
  name := "MetricSample"
  fields := [.of "timestamp" Decoder.string, .of "types" (decode : Decoder (List TypeCount))]

instance : Decode MetricSample where
  decode := layout.decode fun m ps => do
    let timestamp ← layout.required m ps "timestamp" Decoder.string
    let types ← layout.defaulted m ps "types" decode []
    return ⟨timestamp, types⟩

instance : Encode MetricSample where
  encode s := .object [("timestamp", .string s.timestamp), ("types", encode s.types)]

end MetricSample

end LedgerExplorer
