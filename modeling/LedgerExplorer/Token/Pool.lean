import LedgerExplorer.Json.Decode

/-!
# Token pools

The records of the pool collection, with the fields that a view shows.
-/

namespace LedgerExplorer

structure TokenPool where
  id : String
  name : String
  symbol : Option String := none
  /-- `fungible` or `nonfungible`. -/
  type : Option String := none
  standard : Option String := none
  connector : Option String := none
  /-- The number of decimal places of an amount. -/
  decimals : UInt32 := 0
  created : Option String := none
  deriving DecidableEq, Repr

namespace TokenPool

def layout : Layout where
  name := "TokenPool"
  fields := [.of "id" Decoder.string, .of "name" Decoder.string,
    .of "symbol" (Decoder.optional Decoder.string), .of "type" (Decoder.optional Decoder.string),
    .of "standard" (Decoder.optional Decoder.string),
    .of "connector" (Decoder.optional Decoder.string), .of "decimals" Decoder.short,
    .of "created" (Decoder.optional Decoder.string)]

instance : Decode TokenPool where
  decode := layout.decode fun m ps => do
    let id ← layout.required m ps "id" Decoder.string
    let name ← layout.required m ps "name" Decoder.string
    let symbol ← layout.defaulted m ps "symbol" (Decoder.optional Decoder.string) none
    let type ← layout.defaulted m ps "type" (Decoder.optional Decoder.string) none
    let standard ← layout.defaulted m ps "standard" (Decoder.optional Decoder.string) none
    let connector ← layout.defaulted m ps "connector" (Decoder.optional Decoder.string) none
    let decimals ← layout.defaulted m ps "decimals" Decoder.short 0
    let created ← layout.defaulted m ps "created" (Decoder.optional Decoder.string) none
    return ⟨id, name, symbol, type, standard, connector, decimals, created⟩

instance : Encode TokenPool where
  encode p := .object [("id", .string p.id), ("name", .string p.name), ("symbol", encode p.symbol),
    ("type", encode p.type), ("standard", encode p.standard), ("connector", encode p.connector),
    ("decimals", .natural p.decimals.toNat), ("created", encode p.created)]

end TokenPool

end LedgerExplorer
