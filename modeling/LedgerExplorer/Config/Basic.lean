import LedgerExplorer.Fault

/-!
# Configuration

The settings of a session: where the API is, which namespace is shown, how many rows and buckets are
asked for, how many resolved references are kept, and what is logged. `Config.validate` says which
settings can be used.
-/

namespace LedgerExplorer

structure ApiConfig where
  baseUrl : String := "http://localhost:5000/api/v1"
  /-- The time in milliseconds that a request may take; with zero every request is out of time at
  once. -/
  timeoutMs : UInt64 := 30000
  deriving DecidableEq, Repr

structure SessionConfig where
  namespaceName : String := "default"
  /-- The rows of a page unless the caller says otherwise. -/
  defaultPageSize : UInt64 := 25
  maxPageSize : UInt64 := 100
  histogramBuckets : UInt64 := 24
  deriving DecidableEq, Repr

structure CacheConfig where
  /-- The greatest number of resolved references that are kept, if there is one. -/
  maxEntries : Option UInt64 := none
  deriving DecidableEq, Repr

structure LoggingConfig where
  level : String := "info"
  deriving DecidableEq, Repr

structure Config where
  api : ApiConfig := {}
  session : SessionConfig := {}
  cache : CacheConfig := {}
  logging : LoggingConfig := {}
  deriving DecidableEq, Repr

namespace ApiConfig

def layout : Layout where
  name := "ApiConfig"
  fields := [.of "base_url" Decoder.string, .of "timeout_ms" Decoder.long]

instance : Decode ApiConfig where
  decode := layout.decode fun m ps => do
    let baseUrl ← layout.defaulted m ps "base_url" Decoder.string ({} : ApiConfig).baseUrl
    let timeoutMs ← layout.defaulted m ps "timeout_ms" Decoder.long ({} : ApiConfig).timeoutMs
    return ⟨baseUrl, timeoutMs⟩

instance : Encode ApiConfig where
  encode c := .object [("base_url", .string c.baseUrl), ("timeout_ms", encode c.timeoutMs)]

end ApiConfig

namespace SessionConfig

def layout : Layout where
  name := "SessionConfig"
  fields := [.of "namespace" Decoder.string, .of "default_page_size" Decoder.size,
    .of "max_page_size" Decoder.size, .of "histogram_buckets" Decoder.size]

instance : Decode SessionConfig where
  decode := layout.decode fun m ps => do
    let namespaceName ←
      layout.defaulted m ps "namespace" Decoder.string ({} : SessionConfig).namespaceName
    let defaultPageSize ←
      layout.defaulted m ps "default_page_size" Decoder.size ({} : SessionConfig).defaultPageSize
    let maxPageSize ←
      layout.defaulted m ps "max_page_size" Decoder.size ({} : SessionConfig).maxPageSize
    let histogramBuckets ←
      layout.defaulted m ps "histogram_buckets" Decoder.size ({} : SessionConfig).histogramBuckets
    return ⟨namespaceName, defaultPageSize, maxPageSize, histogramBuckets⟩

instance : Encode SessionConfig where
  encode c := .object [("namespace", .string c.namespaceName),
    ("default_page_size", encode c.defaultPageSize), ("max_page_size", encode c.maxPageSize),
    ("histogram_buckets", encode c.histogramBuckets)]

end SessionConfig

namespace CacheConfig

def layout : Layout where
  name := "CacheSettings"
  fields := [.of "max_entries" (Decoder.optional Decoder.size)]

instance : Decode CacheConfig where
  decode := layout.decode fun m ps => do
    let maxEntries ← layout.defaulted m ps "max_entries" (Decoder.optional Decoder.size) none
    return ⟨maxEntries⟩

instance : Encode CacheConfig where
  encode c := .object [("max_entries", encode c.maxEntries)]

end CacheConfig

namespace LoggingConfig

def layout : Layout where
  name := "LoggingConfig"
  fields := [.of "level" Decoder.string]

instance : Decode LoggingConfig where
  decode := layout.decode fun m ps => do
    let level ← layout.defaulted m ps "level" Decoder.string ({} : LoggingConfig).level
    return ⟨level⟩

instance : Encode LoggingConfig where
  encode c := .object [("level", .string c.level)]

end LoggingConfig

namespace Config

def layout : Layout where
  name := "Config"
  fields := [.of "api" (decode : Decoder ApiConfig), .of "session" (decode : Decoder SessionConfig),
    .of "cache" (decode : Decoder CacheConfig), .of "logging" (decode : Decoder LoggingConfig)]

instance : Decode Config where
  decode := layout.decode fun m ps => do
    let api ← layout.defaulted m ps "api" decode {}
    let session ← layout.defaulted m ps "session" decode {}
    let cache ← layout.defaulted m ps "cache" decode {}
    let logging ← layout.defaulted m ps "logging" decode {}
    return ⟨api, session, cache, logging⟩

instance : Encode Config where
  encode c := .object [("api", encode c.api), ("session", encode c.session),
    ("cache", encode c.cache), ("logging", encode c.logging)]

/-- The report that a setting lies outside its bounds. -/
def outOfRange (field : String) (value min max : Nat) : ConfigError :=
  .outOfRange field (Text.natural value) (Text.natural min) (Text.natural max)

/-- Checks the settings one after the other and reports the first that cannot be used. -/
def validate (c : Config) : Except ConfigError Unit := do
  if Text.trim c.api.baseUrl = "" then throw (.missingField "api.base_url")
  if Text.trim c.session.namespaceName = "" then throw (.missingField "session.namespace")
  if c.session.maxPageSize = 0 then throw (outOfRange "session.max_page_size" 0 1 Text.maxWord)
  if c.session.defaultPageSize = 0 ∨ c.session.maxPageSize < c.session.defaultPageSize then
    throw (outOfRange "session.default_page_size" c.session.defaultPageSize.toNat 1
      c.session.maxPageSize.toNat)
  if c.session.histogramBuckets = 0 ∨ 1000 < c.session.histogramBuckets then
    throw (outOfRange "session.histogram_buckets" c.session.histogramBuckets.toNat 1 1000)
  if c.cache.maxEntries = some 0 then throw (outOfRange "cache.max_entries" 0 1 Text.maxWord)

end Config

end LedgerExplorer
