import LedgerExplorer.Page.Fetch

/-!
# Page views

A view shows one page. Loads may overlap; each takes the next generation when it starts, and its page
is shown only if no later load has started and the view is not cancelled when it ends. Generations are
machine words that start again at zero after the greatest.
-/

namespace LedgerExplorer

inductive LoadOutcome
  | applied
  | superseded
  | cancelled
  deriving DecidableEq, Repr

def LoadOutcome.name : LoadOutcome → String
  | .applied => "applied"
  | .superseded => "superseded"
  | .cancelled => "cancelled"

structure View (R E : Type) where
  rows : RowKind R
  /-- The generation of the load that started last. -/
  latest : UInt64 := 0
  cancelled : Bool := false
  /-- The generation of the page that is shown, zero if there is none. -/
  applied : UInt64 := 0
  page : Option (Page R E) := none
  /-- Whether the owner has let go of the view. -/
  dropped : Bool := false

namespace View

/-- Starts a load: its generation, and the view that waits for it. -/
def begin (v : View R E) : UInt64 × View R E :=
  (v.latest + 1, { v with latest := v.latest + 1 })

def cancel (v : View R E) : View R E :=
  { v with cancelled := true }

/-- Ends the load of a generation. The outcome is reported unless the latest load failed. -/
def complete (v : View R E) (generation : UInt64) (r : Except Fault (Page R E)) :
    Except Fault LoadOutcome × View R E :=
  if v.cancelled || (match r with | .error .cancelled => true | _ => false) then
    (.ok .cancelled, v)
  else if v.latest ≠ generation then (.ok .superseded, v)
  else match r with
    | .error f => (.error f, v)
    | .ok page => (.ok .applied, { v with applied := generation, page := some page })

def counters : Except Fault LoadOutcome → List Counter
  | .ok .cancelled => [.stalePage .cancelled]
  | .ok .superseded => [.stalePage .superseded]
  | _ => []

end View

end LedgerExplorer
