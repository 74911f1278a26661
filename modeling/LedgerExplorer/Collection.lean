import LedgerExplorer.Json.Decode

/-!
# Collections

The collections of the explorer: where each lives below a namespace, which fields a filter may name,
and under which name it is charted.
-/

namespace LedgerExplorer

inductive Collection
  | events
  | transactions
  | operations
  | messages
  | data
  | blockchainEvents
  | tokenPools
  | tokenTransfers
  | tokenBalances
  deriving DecidableEq, Repr

namespace Collection

def all : List Collection :=
  [events, transactions, operations, messages, data, blockchainEvents, tokenPools, tokenTransfers,
    tokenBalances]

/-- The path below a namespace. -/
def path : Collection → String
  | events => "events"
  | transactions => "transactions"
  | operations => "operations"
  | messages => "messages"
  | data => "data"
  | blockchainEvents => "blockchainevents"
  | tokenPools => "tokens/pools"
  | tokenTransfers => "tokens/transfers"
  | tokenBalances => "tokens/balances"

/-- The name of the wire format. -/
def name : Collection → String
  | events => "events"
  | transactions => "transactions"
  | operations => "operations"
  | messages => "messages"
  | data => "data"
  | blockchainEvents => "blockchain_events"
  | tokenPools => "token_pools"
  | tokenTransfers => "token_transfers"
  | tokenBalances => "token_balances"

/-- The collection of a path, which may have slashes around it. -/
def ofPath? (path : String) : Option Collection :=
  all.find? fun c => c.path = Text.trimSlashes path

/-- The fields that a filter may name, in the order in which they are offered. -/
def filterFields : Collection → List String
  | events => ["correlator", "created", "id", "reference", "sequence", "topic", "tx", "type"]
  | transactions => ["blockchainIds", "created", "id", "idempotencyKey", "type"]
  | operations => ["created", "error", "id", "plugin", "status", "tx", "type", "updated"]
  | messages =>
    ["author", "batch", "cid", "confirmed", "created", "datahash", "group", "hash", "id", "key",
      "pins", "sequence", "state", "tag", "topics", "txtype", "type"]
  | data =>
    ["blob.hash", "blob.name", "blob.public", "blob.size", "created", "datatype.name",
      "datatype.version", "hash", "id", "validator", "value"]
  | blockchainEvents =>
    ["created", "id", "listener", "name", "protocolId", "source", "timestamp", "tx.blockchainId",
      "tx.id", "tx.type"]
  | tokenPools =>
    ["connector", "created", "decimals", "id", "locator", "message", "name", "standard", "symbol",
      "tx.id", "tx.type", "type"]
  | tokenTransfers =>
    ["amount", "blockchainEvent", "connector", "created", "from", "key", "localId", "message",
      "messageHash", "pool", "protocolId", "to", "tokenIndex", "tx.id", "tx.type", "type", "uri"]
  | tokenBalances => ["balance", "connector", "key", "pool", "tokenIndex", "updated", "uri"]

/-- Whether a filter may name the field. -/
def allowsField (c : Collection) (field : String) : Bool :=
  c.filterFields.contains field

/-- The name under which the collection is charted. -/
def chartName? : Collection → Option String
  | events => some "events"
  | transactions => some "transactions"
  | operations => some "operations"
  | messages => some "messages"
  | blockchainEvents => some "blockchainevents"
  | tokenTransfers => some "tokentransfers"
  | data | tokenPools | tokenBalances => none

instance : Decode Collection := ⟨Decoder.enumeration (all.map fun c => (c.name, c))⟩

instance : Encode Collection := ⟨fun c => .string c.name⟩

end Collection

end LedgerExplorer
