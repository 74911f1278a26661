import LedgerExplorer.Config.Basic

/-!
# Settings from the environment

The variables that override settings. A page size that is no numeral is ignored.
-/

namespace LedgerExplorer

structure Environment where
  apiUrl : Option String := none
  namespaceName : Option String := none
  pageSize : Option String := none
  logLevel : Option String := none
  /-- The path of the configuration file. -/
  configPath : Option String := none
  deriving DecidableEq, Repr

/-- The environment whose variables a function looks up. -/
def Environment.ofLookup (get : String → Option String) : Environment where
  apiUrl := get "LEDGERSCOPE_API_URL"
  namespaceName := get "LEDGERSCOPE_NAMESPACE"
  pageSize := get "LEDGERSCOPE_PAGE_SIZE"
  logLevel := get "RUST_LOG"
  configPath := get "LEDGERSCOPE_CONFIG"

/-- The page size that the environment sets. -/
def Environment.pageSize? (e : Environment) : Option UInt64 :=
  match e.pageSize.map Text.readWord with
  | some (.ok n) => some n
  | _ => none

/-- The settings with those of the environment in place of their own. -/
def Config.override (c : Config) (e : Environment) : Config where
  api := { c.api with baseUrl := e.apiUrl.getD c.api.baseUrl }
  session := { c.session with
    namespaceName := e.namespaceName.getD c.session.namespaceName
    defaultPageSize := e.pageSize?.getD c.session.defaultPageSize }
  cache := c.cache
  logging := { c.logging with level := e.logLevel.getD c.logging.level }

end LedgerExplorer
