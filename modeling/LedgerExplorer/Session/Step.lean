import LedgerExplorer.Session.Basic

/-!
# Steps of a session

A session goes from one state to the next by events: a caller starts, looks an id up or is aborted, a
reply comes in, a token fires, a view is opened, cancelled or dropped, the cache is told to forget. A
caller that asks for several ids looks them up one by one, so that anything may happen between two of
its lookups. Events may come in any order; one that meets nobody who waits for it changes nothing.
-/

namespace LedgerExplorer

namespace Session

def counters (s : Session R E) : List Counter :=
  s.log ++ (s.resolver.map Resolver.log).getD []

/-- Whether the fetches of a guard are cancelled. -/
def isCancelled (s : Session R E) : Guard → Bool
  | .unguarded => false
  | .token name => s.fired.contains name
  | .view v _ => s.views[v]?.any View.cancelled

def isRunning (s : Session R E) (n : Nat) : Bool :=
  s.callers.any (·.number == n)

/-- Whether a running caller holds on to a view. -/
def isHeld (s : Session R E) (v : Nat) : Bool :=
  s.callers.any fun c => c.job.view? == some v

/-- Cancels the views that their owners have dropped and no load holds on to. -/
def releaseViews (s : Session R E) : Session R E :=
  { s with views := s.views.mapIdx fun v view =>
      if view.dropped && !s.isHeld v then view.cancel else view }

def call (s : Session R E) (c : Call) : Session R E :=
  { s with calls := s.calls ++ [c] }

def count (s : Session R E) (cs : List Counter) : Session R E :=
  { s with log := s.log ++ cs }

/-- Lets a caller go on, in place of what it was. -/
def put (s : Session R E) (c : Caller R E) : Session R E :=
  { s with callers := s.callers.filter (·.number != c.number) ++ [c] }

def finish (s : Session R E) (n : Nat) (r : Result R E) : Session R E :=
  { s with
    callers := s.callers.filter (·.number != n)
    finished := s.finished ++ [(n, r)] }.releaseViews

/-- Ends a fetch of a page; the load of a view ends with what the view makes of it. -/
def finishPage (s : Session R E) (n : Nat) (g : Guard) (r : Except Failure (Page R E)) :
    Session R E :=
  match g, r with
  | _, .error (.crash c) => s.finish n (.failed (.crash c))
  | .view v generation, r =>
    match s.views[v]? with
    | none => s.finish n .aborted
    | some view =>
      let (outcome, view) := view.complete generation (r.mapError fun
        | .fault f => f
        | .crash _ => .cancelled)
      ({ s with views := s.views.set v view }.count (View.counters outcome)).finish n
        (match outcome with
          | .ok o => .load o
          | .error f => .failed (.fault f))
  | _, .ok page => s.finish n (.page page)
  | _, .error f => s.finish n (.failed f)

/-- Lets a caller that has all its answers end. -/
def settle (s : Session R E) (c : Caller R E) : Session R E :=
  if c.unasked.isEmpty && c.missing.isEmpty then
    match c.job with
    | .resolve id => s.finish c.number (.answer (c.answers.get? id).join)
    | .resolveAll => s.finish c.number (.answers c.answers)
    | .rows fetch g page =>
      let r := fetch.assemble page (s.isCancelled g) c.answers
      (s.count (fetch.counters r)).finishPage c.number g r
    | .page _ _ | .histogram _ _ => s.put c
  else s.put c

/-- Lets a caller ask for ids. Without a resolver there is nothing to look up. -/
def ask (s : Session R E) (n : Nat) (job : Job R) (ids : List String) : Session R E :=
  s.settle { number := n, job, unasked := if s.resolver.isSome then ids else [] }

/-- The calls that a lookup of an id leads to. -/
def callsFor (d : Directory E) (id : String) : Lookup E → List Call
  | .miss => [.entity id (d.path id)]
  | .hit _ | .coalesced => []

/-- Looks up the first id that a caller still has to look up, and lets the caller end or wait. -/
def lookUp (s : Session R E) (c : Caller R E) : Session R E :=
  match s.resolver, c.unasked with
  | some r, id :: rest =>
    let (found, r) := r.resolve c.number id
    let s := { s with resolver := some r, calls := s.calls ++ callsFor r.directory id found }
    s.settle ({ c with unasked := rest }.meet id found)
  | _, _ => s.settle { c with unasked := [] }

/-- Lets a caller make its next lookup. -/
def proceed (s : Session R E) (n : Nat) : Session R E :=
  match s.callers.find? (·.number == n) with
  | none => s
  | some c => if c.unasked.isEmpty then s else s.lookUp c

/-- Sends the request of a page for a caller. -/
def startPage (s : Session R E) (n : Nat) (g : Guard) (rows : RowKind R) (q : PageQuery) :
    Session R E :=
  match PageFetch.start s.pager q s.now rows (s.isCancelled g) with
  | .error e => s.finishPage n g (.error e)
  | .ok fetch =>
    (s.put { number := n, job := .page fetch g }).call
      (.own n fetch.request.path fetch.request.query)

/-- Starts a caller, which gets the next number. -/
def start (s : Session R E) (t : Task R) : Session R E :=
  let n := s.nextCaller
  let s := { s with nextCaller := n + 1 }
  match t with
  | .resolve id => s.lookUp { number := n, job := .resolve id, unasked := [id] }
  | .resolveAll ids => s.ask n .resolveAll (distinct ids)
  | .page q rows token =>
    s.startPage n (match token with | some name => .token name | none => .unguarded) rows q
  | .load v q =>
    match s.views[v]? with
    | none => s.finish n .aborted
    | some view =>
      let (generation, view) := view.begin
      { s with views := s.views.set v view }.startPage n (.view v generation) view.rows q
  | .histogram request categories =>
    let request := { request with namespaceName := s.pager.namespaceName }
    (s.put { number := n, job := .histogram request.path categories }).call
      (.own n request.path request.query)

/-- Takes the reply to the call that a caller made for itself. -/
def receive (s : Session R E) (n : Nat) (reply : Reply) : Session R E :=
  match s.callers.find? (·.number == n) with
  | none => s
  | some c =>
    match c.job with
    | .page fetch g =>
      match fetch.receive (s.isCancelled g) reply with
      | .error e =>
        (s.count (fetch.counters (.error e : Except Failure (Page R E)))).finishPage n g (.error e)
      | .ok page => s.ask n (.rows fetch g page) (fetch.references page)
    | .histogram path categories =>
      match reply.decode (decode : Decoder (List MetricSample)) path with
      | .error e => s.finish n (.failed e)
      | .ok samples =>
        let h := Histogram.aggregate samples categories
        (s.count (List.replicate h.dropped .droppedType)).finish n (.buckets h.rows)
    | .resolve _ | .resolveAll | .rows _ _ _ => s

/-- Gives a caller the answer to an id. -/
def tell (id : String) (answer : Option E) (s : Session R E) (n : Nat) : Session R E :=
  match s.callers.find? (·.number == n) with
  | none => s
  | some c =>
    s.settle { c with answers := c.answers.insert id answer, missing := c.missing.filter (· != id) }

/-- Takes the reply to the lookup of an id that is under way and tells everybody who waits for it. -/
def learn (s : Session R E) (id : String) (reply : Reply) : Session R E :=
  match s.resolver with
  | none => s
  | some r =>
    if r.inFlight.contains id then
      let (waiters, answer, r) := r.finish id reply
      waiters.foldl (tell id answer) { s with resolver := some r }
    else s

inductive Event (R : Type)
  | start (task : Task R)
  | receive (caller : Nat) (reply : Reply)
  | lookUp (caller : Nat)
  | learn (id : String) (reply : Reply)
  | abort (caller : Nat)
  | fire (token : String)
  | openView (rows : RowKind R)
  | cancelView (view : Nat)
  | dropView (view : Nat)
  | invalidate (id : String)
  | clear

def step (s : Session R E) : Event R → Session R E
  | .start task => s.start task
  | .receive n reply => s.receive n reply
  | .lookUp n => s.proceed n
  | .learn id reply => s.learn id reply
  | .abort n => if s.isRunning n then s.finish n .aborted else s
  | .fire token => { s with fired := token :: s.fired }
  | .openView rows => { s with views := s.views ++ [{ rows }] }
  | .cancelView v => { s with views := s.views.modify v View.cancel }
  | .dropView v => { s with views := s.views.modify v ({ · with dropped := true }) }.releaseViews
  | .invalidate id => { s with resolver := s.resolver.map (·.invalidate id) }
  | .clear => { s with resolver := s.resolver.map Resolver.clear }

def run (s : Session R E) (es : List (Event R)) : Session R E :=
  es.foldl step s

/-- Lets every caller make all the lookups that it still has to make. -/
def lookUpAll (s : Session R E) : Session R E :=
  s.run (s.callers.flatMap fun c => c.unasked.map fun _ => .lookUp c.number)

/-- The event that a reply to a call is. -/
def Event.ofReply (reply : Reply) : Call → Event R
  | .own n _ _ => .receive n reply
  | .entity id _ => .learn id reply

end Session

end LedgerExplorer
