import LedgerExplorer.Fault
import LedgerExplorer.Json.Decode

/-!
# Data sources

A source is asked for a path and a query and replies with a JSON body, with an error, or by crashing.
-/

namespace LedgerExplorer

inductive Reply
  | body (v : Json)
  | error (e : TransportError)
  | crash
  deriving Inhabited

/-- The body of a reply, or the failure of the caller that asked. -/
def Reply.body? : Reply → Except Failure Json
  | .body v => .ok v
  | .error e => .error (.fault (.transport e))
  | .crash => .error (.crash .source)

/-- Decodes the body that a path replied with. -/
def Reply.decode (d : Decoder α) (path : String) (r : Reply) : Except Failure α := do
  let v ← r.body?
  (v.decodeAs d).mapError fun e => .fault (.malformedResponse path e.message)

end LedgerExplorer
