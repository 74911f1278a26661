import LedgerExplorer.Source

/-!
# Sources over HTTP

A source of this kind asks for URLs below a base. Success is a status from 200 to 299 with a JSON body;
404 means that there is nothing under the path.
-/

namespace LedgerExplorer

/-- What comes back from a request. -/
inductive HttpReply
  | answered (status : Nat) (body : String)
  /-- There is no connection, or it was closed before an answer. -/
  | unreachable
  deriving DecidableEq, Repr

/-- A source below a base URL, which does not end in a slash. -/
structure HttpSource where
  baseUrl : String
  deriving DecidableEq, Repr

namespace HttpSource

def ofBase (baseUrl : String) : HttpSource :=
  ⟨Text.trimEndSlashes baseUrl⟩

/-- The URL of a path with a query, which may be empty. -/
def url (s : HttpSource) (path query : String) : String :=
  if query = "" then s.baseUrl ++ path else s.baseUrl ++ path ++ "?" ++ query

/-- What the answer to the request for a path says. -/
def read (path : String) : HttpReply → Reply
  | .unreachable => .error (.connection "the server did not answer")
  | .answered status body =>
    if status = 404 then .error (.notFound path)
    else if status < 200 ∨ 299 < status then .error (.status status path)
    else match Json.ofText? body with
      | some v => .body v
      | none => .error (.decode "error decoding response body")

end HttpSource

end LedgerExplorer
