import LedgerExplorer.Config.Environment
import LedgerExplorer.Toml.Document
import LedgerExplorer.Toml.Printer

/-!
# Configuration files

Settings are kept in a TOML document with one table for each group. Saving writes every setting, so
that loading gives the same settings back; settings that cannot be written leave the file alone.
-/

namespace LedgerExplorer.Config

/-- The settings that a text holds, each at its default unless the text sets it. -/
def ofText? (s : String) : Option Config :=
  Toml.decodeText? decode s

/-- The settings of the file at a path with the given content. -/
def ofFile (path : String) : Except FileError String → Except ConfigError Config
  | .error e => .error (.file path e)
  | .ok text =>
    match ofText? text with
    | some c => .ok c
    | none => .error (.parse path "no table of settings")

/-- The groups of settings as they are written. -/
def tables (c : Config) : List (String × List (String × Toml.Setting)) :=
  [("api", [("base_url", .string c.api.baseUrl), ("timeout_ms", .integer c.api.timeoutMs.toNat)]),
    ("session", [("namespace", .string c.session.namespaceName),
      ("default_page_size", .integer c.session.defaultPageSize.toNat),
      ("max_page_size", .integer c.session.maxPageSize.toNat),
      ("histogram_buckets", .integer c.session.histogramBuckets.toNat)]),
    ("cache", match c.cache.maxEntries with
      | some n => [("max_entries", .integer n.toNat)]
      | none => []),
    ("logging", [("level", .string c.logging.level)])]

/-- The text of a file with these settings; none if a number is too large for it. -/
def text? (c : Config) : Option String :=
  (Toml.renderTables? c.tables).map String.ofList

/-- The settings in a file. -/
def load (f : FileSlot) : Except ConfigError Config :=
  ofFile f.path f.content

/-- Writes the settings to a file. -/
def save (c : Config) (f : FileSlot) : Except ConfigError Unit × FileSlot :=
  match c.text? with
  | none => (.error (.serialize "out of range of a signed integer"), f)
  | some text =>
    let (r, f') := f.write text
    (r.mapError (.file f.path), f')

end LedgerExplorer.Config
