import LedgerExplorer.Cache.Basic
import LedgerExplorer.Metrics
import LedgerExplorer.Source

/-!
# Resolving references

A resolver looks ids up in a cache and fetches those that it does not know from the collection of
their entities. A fetch ends in an answer for everybody who waits for it, whether it found the entity
or not; a caller that goes away does not end it.
-/

namespace LedgerExplorer

/-- Where the entity of an id is found, and how it is decoded. -/
structure Directory (E : Type) where
  path : String → String
  decode : Decoder E

def Directory.ofCollection (namespaceName collection : String) (d : Decoder E) : Directory E where
  path id := "/namespaces/" ++ namespaceName ++ "/" ++ Text.trimSlashes collection ++ "/" ++ id
  decode := d

/-- How a fetch ended: with an entity, with the word that there is none, or with an error; none if it
died without a result. -/
abbrev FetchOutcome (E : Type) := Option (Except TransportError (Option E))

/-- What a reply to the lookup of an id says; a crash of the source is the death of the fetch. -/
def Directory.read (d : Directory E) (id : String) : Reply → FetchOutcome E
  | .body v =>
    match v.decodeAs d.decode with
    | .ok e => some (.ok (some e))
    | .error e => some (.error (.decode (d.path id ++ ": " ++ e.message)))
  | .error e => some (if e.isNotFound then .ok none else .error e)
  | .crash => none

def FetchResult.ofOutcome : FetchOutcome E → FetchResult
  | some (.ok (some _)) => .resolved
  | some (.ok none) => .notFound
  | some (.error e) => if e.isNotFound then .notFound else .error
  | none => .aborted

/-- The answer that waiting callers get from a fetch. -/
def answerOf : FetchOutcome E → Option E
  | some (.ok answer) => answer
  | _ => none

/-- A cache with the fetches that are under way for it. -/
structure Resolver (E : Type) where
  cache : Cache E
  directory : Directory E
  /-- The ids that are being fetched, in the order in which their fetches started. -/
  inFlight : List String := []
  log : List Counter := []

namespace Resolver

/-- Looks an id up for a caller; an unknown id starts a fetch. -/
def resolve (r : Resolver E) (caller : Nat) (id : String) : Lookup E × Resolver E :=
  match r.cache.lookup caller id with
  | (.hit answer, cache) =>
    (.hit answer, { r with cache, log := r.log ++ [.lookup cache.namespaceName .hit] })
  | (.coalesced, cache) =>
    (.coalesced, { r with cache, log := r.log ++ [.lookup cache.namespaceName .coalesced] })
  | (.miss, cache) =>
    (.miss, { r with
      cache
      inFlight := r.inFlight ++ [id]
      log := r.log ++ [.lookup cache.namespaceName .miss] })

/-- Ends the fetch of an id: the callers that waited, and the answer that they get. -/
def conclude (r : Resolver E) (id : String) (outcome : FetchOutcome E) :
    List Nat × Option E × Resolver E :=
  let answer := answerOf outcome
  let (waiters, cache) := r.cache.publish id answer
  (waiters, answer, { r with
    cache
    inFlight := r.inFlight.erase id
    log := r.log ++ [.resolution cache.namespaceName (.ofOutcome outcome)] })

/-- Ends the fetch of an id with the reply to its lookup. -/
def finish (r : Resolver E) (id : String) (reply : Reply) : List Nat × Option E × Resolver E :=
  r.conclude id (r.directory.read id reply)

def invalidate (r : Resolver E) (id : String) : Resolver E :=
  { r with cache := r.cache.invalidate id }

def clear (r : Resolver E) : Resolver E :=
  { r with cache := r.cache.clear }

end Resolver

end LedgerExplorer
