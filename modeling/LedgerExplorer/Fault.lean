import LedgerExplorer.File
import LedgerExplorer.Page.Query

/-!
# Faults

What can go wrong between asking for data and having it, kept by cause. A fault is an answer to the
caller; a crash ends the caller without one.
-/

namespace LedgerExplorer

/-- Why a source did not answer a request. -/
inductive TransportError
  | status (code : Nat) (path : String)
  | notFound (path : String)
  | connection (text : String)
  | decode (text : String)
  deriving DecidableEq, Repr

namespace TransportError

/-- Whether the error means that there is no such entity. -/
def isNotFound : TransportError → Bool
  | .notFound _ => true
  | .status code _ => code = 404
  | _ => false

def message : TransportError → String
  | .status code path => "HTTP " ++ Text.natural code ++ " for " ++ path
  | .notFound path => "Not found: " ++ path
  | .connection text => "Connection error: " ++ text
  | .decode text => "Decode error: " ++ text

end TransportError

/-- Why a configuration cannot be read, written or used. -/
inductive ConfigError
  /-- The file cannot be read or written. -/
  | file (path : String) (cause : FileError)
  | parse (path : String) (text : String)
  | serialize (text : String)
  | outOfRange (field : String) (value min max : String)
  | missingField (field : String)
  deriving DecidableEq, Repr

def ConfigError.message : ConfigError → String
  | .file path cause => "IO error on " ++ path ++ ": " ++ cause.message
  | .parse path text => "Failed to parse config file " ++ path ++ ": " ++ text
  | .serialize text => "Failed to serialize config: " ++ text
  | .outOfRange field value min max =>
    field ++ " value " ++ value ++ " is out of range [" ++ min ++ ", " ++ max ++ "]"
  | .missingField field => "Missing required field: " ++ field

inductive Fault
  | transport (e : TransportError)
  | malformedResponse (path : String) (text : String)
  | configuration (e : ConfigError)
  | invalidRequest (text : String)
  | cancelled
  deriving DecidableEq, Repr

def Fault.message : Fault → String
  | .transport e => "Transport error: " ++ e.message
  | .malformedResponse path text => "Malformed response from " ++ path ++ ": " ++ text
  | .configuration e => "Configuration error: " ++ e.message
  | .invalidRequest text => "Invalid request: " ++ text
  | .cancelled => "Request cancelled"

/-- What ends a caller without an answer. -/
inductive Crash
  /-- A date range starts before the first second of the clock. -/
  | clockUnderflow
  /-- The source itself crashed. -/
  | source
  /-- A cache was attached to an orchestrator of another namespace. -/
  | foreignCache
  deriving DecidableEq, Repr

/-- How a caller can fail. -/
inductive Failure
  | fault (f : Fault)
  | crash (c : Crash)
  deriving DecidableEq, Repr

/-- The failure of a caller whose query makes no request. -/
def QueryError.failure : QueryError → Failure
  | .noStart => .crash .clockUnderflow
  | e => .fault (.invalidRequest e.message)

end LedgerExplorer
