import LedgerExplorer.CommandLine.Arguments
import LedgerExplorer.CommandLine.Failure
import LedgerExplorer.Config.File
import LedgerExplorer.Dialogue
import LedgerExplorer.Json.Printer
import LedgerExplorer.Session.Setup

/-!
# Commands

Each command is a dialogue that ends in the text it prints or in an error. A command that fetches
sets a session up, starts one caller in it, and answers the session's calls over HTTP until the caller
has its result.
-/

namespace LedgerExplorer

namespace CommandLine

/-- What a command knows besides its words. -/
structure Surroundings where
  environment : Environment := {}
  now : Instant

/-- What a command prints, and what it counted. -/
structure Printed where
  text : String
  log : List Counter := []

abbrev CommandM := ExceptT CommandError Dialogue

/-- The result, or the failure as an error of the command. -/
def orFail (e : Except ε α) (f : ε → CommandError) : CommandM α :=
  match e with
  | .ok a => pure a
  | .error e => throw (f e)

/-- The value, or an error in its absence. -/
def orElse (o : Option α) (e : CommandError) : CommandM α :=
  match o with
  | some a => pure a
  | none => throw e

/-- The file that is read if no other one is named. -/
def defaultConfigPath : String := "ledgerscope.toml"

/-- The settings of the file at a path, under those of the environment. -/
def configOf (env : Environment) (path : String) (content : Except FileError String) :
    CommandM Config := do
  let c ← orFail (Config.ofFile path content) .configuration
  return c.override env

/-- The settings of the file that is named, else of the default one if it is there, under those of
the environment. -/
def readConfig (env : Environment) (named : Option String) : CommandM Config := do
  match named.or env.configPath with
  | some path => configOf env path (← Dialogue.askFile path)
  | none =>
    match ← Dialogue.askFile defaultConfigPath with
    | .error .missing => return Config.override {} env
    | content => configOf env defaultConfigPath content

/-- The settings that a command goes by, which can be used. -/
def loadConfig (env : Environment) (common : Common) : CommandM Config := do
  let c ← readConfig env common.config
  let c := { c with session.namespaceName := common.namespaceName.getD c.session.namespaceName }
  orFail c.validate .configuration
  return c

/-- The collection of a path that was typed. -/
def collectionOf (path : String) : CommandM Collection :=
  orElse (Collection.ofPath? path) (.unknownCollection path)

/-- The range of a name that was typed. -/
def rangeOf (name : String) : CommandM DateRange :=
  orElse (DateRange.ofName? name) (.unknownRange name)

/-- The drafts of typed filters. -/
def filtersOf (c : Collection) : List String → CommandM (List FilterDraft)
  | [] => pure []
  | spec :: rest => do
    let d ← orFail (FilterDraft.ofTyped c spec) .filter
    return d :: (← filtersOf c rest)

/-- The query for a page of a collection. -/
def queryOf (c : Collection) (paging : Paging) (config : Config) : CommandM PageQuery := do
  let limit := paging.limit.getD config.session.defaultPageSize
  let query := (PageQuery.first c.path limit).page paging.page
  let filters ← filtersOf c paging.filters
  let query := filters.foldl PageQuery.addFilter query
  match paging.range with
  | none => return query
  | some name => return query.within (← rangeOf name)

/-- Answers calls of a session over HTTP, one after the other. Callers make their lookups as soon as they
can. -/
def answerCalls (source : HttpSource) : List Call → Session R E → Dialogue (Session R E)
  | [], s => pure s
  | c :: rest, s => do
    let reply ← Dialogue.askUrl (source.url c.path c.query)
    answerCalls source rest (s.step (.ofReply (HttpSource.read c.path reply) c)).lookUpAll

/-- Answers the calls of a session: first those that are there, then the lookups that these lead to. -/
def serve (source : HttpSource) (s : Session R E) : Dialogue (Session R E) := do
  let s' ← answerCalls source s.calls s
  answerCalls source (s'.calls.drop s.calls.length) s'

/-- Runs the task of the only caller of a session. -/
def perform (config : Config) (s : Session R E) (t : Task R) :
    CommandM (Result R E × List Counter) := do
  let s ← serve (HttpSource.ofBase config.api.baseUrl) (s.step (.start t))
  match s.finished with
  | (_, .failed f) :: _ => throw (.failed f)
  | (_, r) :: _ => return (r, s.counters)
  | [] => return (.aborted, s.counters)

/-- A text on a line of its own. -/
def line (s : String) : String := s ++ "\n"

/-- Shows the request that a query makes in a session. -/
def describe (s : Session R E) (q : PageQuery) : CommandM Printed := do
  let r ← orFail (s.pager.describe q s.now) fun e => .failed e.failure
  return { text := line (Json.object [("path", .string r.path), ("query", .string r.query)]).pretty }

/-- Fetches a page and prints it. -/
def fetch (config : Config) (s : Session Record TokenPool) (q : PageQuery)
    (rows : RowKind Record) : CommandM Printed := do
  match ← perform config s (.page q rows none) with
  | (.page page, log) => return { text := line (encode page).pretty, log }
  | (_, log) => return { text := "", log }

/-- Shows or fetches the page of a query. What is shown is what a session without entities would ask
for, whichever session fetches. -/
def showOrFetch (config : Config) (now : Instant) (dryRun : Bool) (s : Session Record TokenPool)
    (q : PageQuery) (rows : RowKind Record) : CommandM Printed :=
  if dryRun then describe (config.plainSession now : Session Record Json) q
  else fetch config s q rows

def page (config : Config) (now : Instant) (entity : String) (paging : Paging) :
    CommandM Printed := do
  let c ← collectionOf entity
  let q ← queryOf c paging config
  showOrFetch config now paging.dryRun (config.plainSession now) q .untyped

def transfers (config : Config) (now : Instant) (paging : Paging) : CommandM Printed := do
  let q ← queryOf .tokenTransfers paging config
  let s ← orFail (config.poolSession now) fun c => .failed (.crash c)
  showOrFetch config now paging.dryRun s q .transfers

/-- The rows of a histogram with its legend and its sums. -/
def histogramReport (categories : CategoryMap) (rows : List BucketRow) : Json :=
  .object [("buckets", encode rows), ("empty", .bool (Histogram.isEmpty rows)),
    ("legend", encode categories.legend), ("totals", .ofDict encode (Histogram.totals rows))]

def histogram (config : Config) (now : Instant) (entity range : String)
    (buckets : Option UInt64) (categories : String) : CommandM Printed := do
  let c ← collectionOf entity
  let chart ← orElse c.chartName? (.noHistogram c)
  let range ← rangeOf range
  let text ← orFail (← Dialogue.askFile categories) (.unreadable categories)
  let categories : CategoryMap ← orFail (Json.decodeText decode text) .badCategories
  let request ← orElse (HistogramRequest.forRange? config.session.namespaceName chart range now
    (buckets.getD config.session.histogramBuckets)) (.failed (.crash .clockUnderflow))
  let s : Session Record TokenPool := config.plainSession now
  match ← perform config s (.histogram request categories) with
  | (.buckets rows, log) =>
    return { text := line (histogramReport categories rows).canonical.pretty, log }
  | (_, log) => return { text := "", log }

/-- The settings, line by line. -/
def settingLines (c : Config) : List String :=
  ["Configuration is valid!",
    "",
    "API Settings:",
    "  Base URL: " ++ c.api.baseUrl,
    "  Timeout: " ++ Text.natural c.api.timeoutMs.toNat ++ " ms",
    "",
    "Session Settings:",
    "  Namespace: " ++ c.session.namespaceName,
    "  Default page size: " ++ Text.natural c.session.defaultPageSize.toNat,
    "  Max page size: " ++ Text.natural c.session.maxPageSize.toNat,
    "  Histogram buckets: " ++ Text.natural c.session.histogramBuckets.toNat,
    "",
    "Cache:",
    "  Max entries: " ++ match c.cache.maxEntries with
      | some n => Text.natural n.toNat
      | none => "unbounded",
    "  Log level: " ++ c.logging.level]

def checkConfig (c : Config) : Printed where
  text := String.join ((settingLines c).map line)

/-- Carries a command out. -/
def Command.run (config : Config) (now : Instant) : Command → CommandM Printed
  | .page entity paging => CommandLine.page config now entity paging
  | .transfers paging => CommandLine.transfers config now paging
  | .histogram entity range buckets categories =>
    CommandLine.histogram config now entity range buckets categories
  | .checkConfig => pure (CommandLine.checkConfig config)

/-- Loads the configuration and carries the command out. -/
def Invocation.run (world : Surroundings) (i : Invocation) : CommandM Printed := do
  let config ← loadConfig world.environment i.common
  i.command.run config world.now

/-- How the program ends. -/
inductive Outcome
  /-- The text that was printed, and what was counted if that was asked for. -/
  | success (text : String) (metrics : Option (List Counter))
  | failure (e : CommandError)
  | misuse
  deriving DecidableEq, Repr

/-- The exit code. -/
def Outcome.code : Outcome → Nat
  | .success _ _ => 0
  | .failure _ => 1
  | .misuse => 2

def versionText : String := "ledgerscope 0.1.0"

def helpText : String :=
  "Usage: ledgerscope [-c FILE] [-n NAMESPACE] [--metrics] COMMAND

Commands:
  page ENTITY          Fetch one page of a collection
  transfers            Fetch token transfers with their pools
  histogram ENTITY     Fetch bucketed counts of a collection
  check-config         Validate the configuration"

/-- The program: reads its words and carries the command out. -/
def program (world : Surroundings) (args : List String) : Dialogue Outcome :=
  match Invocation.parse args with
  | .error .misuse => pure .misuse
  | .error .version => pure (.success (line versionText) none)
  | .error .help => pure (.success (line helpText) none)
  | .ok i => do
    match ← (i.run world).run with
    | .ok printed =>
      return .success printed.text (if i.common.metrics then some printed.log else none)
    | .error e => return .failure e

end CommandLine

end LedgerExplorer
