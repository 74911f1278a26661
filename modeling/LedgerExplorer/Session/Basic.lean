import LedgerExplorer.Cache.Resolver
import LedgerExplorer.Histogram.Row
import LedgerExplorer.Histogram.Request
import LedgerExplorer.Page.View

/-!
# Sessions

A session serves callers that ask for pages, histograms and entities of one namespace. Callers run at
the same time: each goes on when the reply or the answers that it waits for are there. The calls that
a session makes to its source and the results that its callers get are kept in order.
-/

namespace LedgerExplorer

inductive Call
  /-- The call that a caller makes for itself. -/
  | own (caller : Nat) (path query : String)
  /-- The lookup of an id on behalf of the cache. -/
  | entity (id path : String)
  deriving DecidableEq, Repr

namespace Call

def path : Call → String
  | own _ path _ => path
  | entity _ path => path

def query : Call → String
  | own _ _ query => query
  | entity _ _ => ""

end Call

inductive Guard
  | unguarded
  | token (name : String)
  /-- The view that a load belongs to, and the generation of the load. -/
  | view (number : Nat) (generation : UInt64)
  deriving DecidableEq, Repr

inductive Task (R : Type)
  | resolve (id : String)
  | resolveAll (ids : List String)
  | page (query : PageQuery) (rows : RowKind R) (token : Option String)
  | load (view : Nat) (query : PageQuery)
  | histogram (request : HistogramRequest) (categories : CategoryMap)

/-- What a caller is at. -/
inductive Job (R : Type)
  | resolve (id : String)
  | resolveAll
  /-- The body of the page is still to come. -/
  | page (fetch : PageFetch R) (g : Guard)
  /-- The answers to the references of the page are still to come. -/
  | rows (fetch : PageFetch R) (g : Guard) (page : RawPage R)
  | histogram (path : String) (categories : CategoryMap)

/-- The view that a job holds on to. -/
def Job.view? : Job R → Option Nat
  | .page _ (.view v _) | .rows _ (.view v _) _ => some v
  | _ => none

structure Caller (R E : Type) where
  number : Nat
  job : Job R
  answers : Dict (Option E) := .empty
  /-- The ids that were looked up and whose answers are still to come. -/
  missing : List String := []
  /-- The ids that are still to be looked up, in order. -/
  unasked : List String := []

/-- What a caller knows after a lookup of an id. -/
def Caller.meet (c : Caller R E) (id : String) : Lookup E → Caller R E
  | .hit answer => { c with answers := c.answers.insert id answer }
  | .coalesced | .miss => { c with missing := c.missing ++ [id] }

/-- What a caller ends with. -/
inductive Result (R E : Type)
  | answer (entity : Option E)
  | answers (entities : Dict (Option E))
  | page (page : Page R E)
  | load (outcome : LoadOutcome)
  | buckets (rows : List BucketRow)
  | failed (f : Failure)
  | aborted

structure Session (R E : Type) where
  pager : Pager
  now : Instant
  resolver : Option (Resolver E) := none
  /-- The callers that have not ended. -/
  callers : List (Caller R E) := []
  /-- The number of the next caller. -/
  nextCaller : Nat := 0
  /-- Every view that was opened, by its number. -/
  views : List (View R E) := []
  /-- The tokens that have fired. -/
  fired : List String := []
  /-- Every call that was made, in order. -/
  calls : List Call := []
  /-- Every caller that ended with its result, in order. -/
  finished : List (Nat × Result R E) := []
  log : List Counter := []

end LedgerExplorer
