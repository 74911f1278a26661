import LedgerExplorer.Json.Decode

/-!
# Token transfers

Transfers, mints and burns. Each names the pool that it belongs to.
-/

namespace LedgerExplorer

structure TokenTransfer where
  localId : String
  /-- `mint`, `burn` or `transfer`. -/
  type : String
  pool : String
  amount : String
  /-- Missing for a mint. -/
  source : Option String := none
  /-- Missing for a burn. -/
  target : Option String := none
  key : Option String := none
  created : Option String := none
  deriving DecidableEq, Repr

namespace TokenTransfer

def layout : Layout where
  name := "TokenTransfer"
  fields := [.of "localId" Decoder.string, .of "type" Decoder.string, .of "pool" Decoder.string,
    .of "amount" Decoder.string, .of "from" (Decoder.optional Decoder.string),
    .of "to" (Decoder.optional Decoder.string), .of "key" (Decoder.optional Decoder.string),
    .of "created" (Decoder.optional Decoder.string)]

instance : Decode TokenTransfer where
  decode := layout.decode fun m ps => do
    let localId ← layout.required m ps "localId" Decoder.string
    let type ← layout.required m ps "type" Decoder.string
    let pool ← layout.required m ps "pool" Decoder.string
    let amount ← layout.required m ps "amount" Decoder.string
    let source ← layout.defaulted m ps "from" (Decoder.optional Decoder.string) none
    let target ← layout.defaulted m ps "to" (Decoder.optional Decoder.string) none
    let key ← layout.defaulted m ps "key" (Decoder.optional Decoder.string) none
    let created ← layout.defaulted m ps "created" (Decoder.optional Decoder.string) none
    return ⟨localId, type, pool, amount, source, target, key, created⟩

instance : Encode TokenTransfer where
  encode t := .object [("localId", .string t.localId), ("type", .string t.type),
    ("pool", .string t.pool), ("amount", .string t.amount), ("from", encode t.source),
    ("to", encode t.target), ("key", encode t.key), ("created", encode t.created)]

/-- The id of the pool that the transfer belongs to. -/
def reference? (t : TokenTransfer) : Option String :=
  some t.pool

end TokenTransfer

end LedgerExplorer
