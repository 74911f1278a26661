import LedgerExplorer.Collection
import LedgerExplorer.Config.Basic
import LedgerExplorer.Session.Step
import LedgerExplorer.Token.Pool
import LedgerExplorer.Token.Transfer

/-!
# Setting sessions up

A session shows one namespace with or without a cache of entities, which has to be of the same
namespace. The configuration gives the namespace, the bound of a page and the bound of the cache.
-/

namespace LedgerExplorer

namespace Session

/-- A session for the pages of a namespace, which come without entities. -/
def ofPager (pager : Pager) (now : Instant) : Session R E where
  pager := pager
  now := now

/-- Resolves the references of pages through a cache of the same namespace. -/
def attach (s : Session R E) (r : Resolver E) : Except Crash (Session R E) :=
  if r.cache.namespaceName = s.pager.namespaceName then .ok { s with resolver := some r }
  else .error .foreignCache

end Session

/-- An empty cache for the entities of a collection. -/
def Resolver.ofCollection (namespaceName collection : String) (bound : Option UInt64)
    (d : Decoder E) : Resolver E where
  cache := { namespaceName, bound }
  directory := .ofCollection namespaceName collection d

namespace Config

def pager (c : Config) : Pager :=
  Pager.withMaxPageSize { namespaceName := c.session.namespaceName } c.session.maxPageSize

/-- The cache of token pools, bounded as the configuration says. -/
def poolResolver (c : Config) : Resolver TokenPool :=
  .ofCollection c.session.namespaceName Collection.tokenPools.path c.cache.maxEntries decode

/-- A session whose pages come without entities. -/
def plainSession (c : Config) (now : Instant) : Session R E :=
  .ofPager c.pager now

/-- A session whose pages come with token pools. -/
def poolSession (c : Config) (now : Instant) : Except Crash (Session R TokenPool) :=
  (c.plainSession now).attach c.poolResolver

end Config

/-- A record of a page. -/
inductive Record
  | transfer (t : TokenTransfer)
  | untyped (v : Json)

instance : Encode Record where
  encode
    | .transfer t => encode t
    | .untyped v => v

namespace RowKind

/-- Transfers, which refer to their pools. -/
def transfers : RowKind Record where
  decode m r := (LedgerExplorer.decode m r).map Record.transfer
  reference?
    | .transfer t => t.reference?
    | .untyped _ => none

/-- Untyped records that refer to nothing. -/
def untyped : RowKind Record where
  decode m r := (LedgerExplorer.decode m r).map Record.untyped
  reference? _ := none

/-- Untyped records whose member of a name is the id of an entity, if it is a string. -/
def referring (field : String) : RowKind Record where
  decode m r := (LedgerExplorer.decode m r).map Record.untyped
  reference?
    | .untyped v => (v.member? field).bind Json.string?
    | .transfer _ => none

end RowKind

end LedgerExplorer
