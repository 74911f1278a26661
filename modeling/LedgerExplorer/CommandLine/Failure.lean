import LedgerExplorer.Fault
import LedgerExplorer.Filter.Typed
import LedgerExplorer.Json.Decode

/-!
# Failures of commands

Why a command comes to nothing, and how that is reported: an explanation in quotes, or the kind of the
fault with its fields. Of faults outside the program only the kind is reported.
-/

namespace LedgerExplorer

namespace CommandLine

inductive CommandError
  | unknownCollection (path : String)
  | unknownRange (name : String)
  | filter (e : TypedFilterError)
  | noHistogram (c : Collection)
  /-- The file of categories cannot be read. -/
  | unreadable (path : String) (e : FileError)
  /-- The file of categories does not hold categories. -/
  | badCategories (e : DecodeError)
  | configuration (e : ConfigError)
  | failed (f : Failure)
  deriving DecidableEq, Repr

/-- A kind of fault with the texts that belong to it. -/
def reportFields (kind : String) (fields : List (String × String)) : String :=
  kind ++ " \x7b " ++
    String.intercalate ", " (fields.map fun f => f.1 ++ ": " ++ f.2) ++ " \x7d"

def reportConfig : ConfigError → String
  | .file _ _ => "Io"
  | .parse _ _ => "Parse"
  | .serialize _ => "Serialize"
  | .outOfRange field value min max =>
    reportFields "OutOfRange" [("field", Text.quoted field), ("value", Text.quoted value),
      ("min", Text.quoted min), ("max", Text.quoted max)]
  | .missingField field => "MissingField(" ++ Text.quoted field ++ ")"

def reportTransport : TransportError → String
  | .status code path =>
    reportFields "Status" [("status", Text.natural code), ("path", Text.quoted path)]
  | .notFound path => "NotFound(" ++ Text.quoted path ++ ")"
  | .connection _ => "Connection"
  | .decode text => "Decode(" ++ Text.quoted text ++ ")"

def reportFault : Fault → String
  | .transport e => "Transport(" ++ reportTransport e ++ ")"
  | .malformedResponse path text =>
    reportFields "MalformedResponse" [("path", Text.quoted path), ("message", Text.quoted text)]
  | .configuration e => "Configuration(" ++ reportConfig e ++ ")"
  | .invalidRequest text => "InvalidRequest(" ++ Text.quoted text ++ ")"
  | .cancelled => "Cancelled"

def CommandError.report : CommandError → String
  | .unknownCollection path =>
    Text.quoted ("unknown collection '" ++ path ++ "' (expected one of " ++
      String.intercalate ", " (Collection.all.map Collection.path) ++ ")")
  | .unknownRange name =>
    Text.quoted ("unknown range '" ++ name ++ "' (expected 1hour, 24hours, 7days or 30days)")
  | .filter e => Text.quoted e.message
  | .noHistogram c => Text.quoted (c.path ++ " has no histogram")
  | .unreadable path e => Text.quoted ("failed to read " ++ path ++ ": " ++ e.message)
  | .badCategories _ => "Json"
  | .configuration e => reportConfig e
  | .failed (.fault f) => reportFault f
  | .failed (.crash _) => "Panic"

end CommandLine

end LedgerExplorer
