import LedgerExplorer.Dict

/-!
# Resolution cache

The cache remembers what became of every id: pending while its entity is fetched, resolved with the
entity, or failed. An id that is looked up while it is pending waits for the fetch under way. A bound
on the number of entries takes away the terminal entries that were used least recently; pending ones
stay.
-/

namespace LedgerExplorer

inductive Slot (E : Type)
  /-- The callers that wait for the fetch, in the order in which they came. -/
  | pending (waiters : List Nat)
  | resolved (entity : E) (lastUsed : UInt64)
  | failed (lastUsed : UInt64)

inductive SlotState
  | pending
  | resolved
  | failed
  deriving DecidableEq, Repr

def SlotState.name : SlotState → String
  | .pending => "pending"
  | .resolved => "resolved"
  | .failed => "failed"

namespace Slot

def state : Slot E → SlotState
  | pending _ => .pending
  | resolved _ _ => .resolved
  | failed _ => .failed

def lastUsed? : Slot E → Option UInt64
  | pending _ => none
  | resolved _ t => some t
  | failed t => some t

def isPending (s : Slot E) : Bool := s.lastUsed?.isNone

def entity? : Slot E → Option E
  | resolved e _ => some e
  | _ => none

/-- The terminal slot of an answer. -/
def ofAnswer (answer : Option E) (lastUsed : UInt64) : Slot E :=
  match answer with
  | some e => .resolved e lastUsed
  | none => .failed lastUsed

end Slot

structure CacheStats where
  hits : UInt64 := 0
  coalesced : UInt64 := 0
  misses : UInt64 := 0
  failures : UInt64 := 0
  evictions : UInt64 := 0
  deriving DecidableEq, Repr

structure Cache (E : Type) where
  namespaceName : String
  /-- The number of entries beyond which terminal ones are taken away, if there is one. -/
  bound : Option UInt64 := none
  slots : Dict (Slot E) := .empty
  /-- The tick of the next use. -/
  clock : UInt64 := 0
  stats : CacheStats := {}

/-- How a lookup is met. -/
inductive Lookup (E : Type)
  /-- By the answer of a terminal slot. -/
  | hit (answer : Option E)
  /-- By waiting for a fetch under way. -/
  | coalesced
  /-- By a fetch that has to be started. -/
  | miss

namespace Cache

/-- A bound as a caller sets it: at least one. -/
def atLeastOne (n : UInt64) : UInt64 := max n 1

/-- Looks an id up for a caller. A hit counts as a use. -/
def lookup (c : Cache E) (caller : Nat) (id : String) : Lookup E × Cache E :=
  match c.slots.get? id with
  | some (.pending waiters) =>
    (.coalesced, { c with
      slots := c.slots.insert id (.pending (waiters ++ [caller]))
      stats.coalesced := c.stats.coalesced + 1 })
  | some slot =>
    (.hit slot.entity?, { c with
      slots := c.slots.insert id (.ofAnswer slot.entity? c.clock)
      clock := c.clock + 1
      stats.hits := c.stats.hits + 1 })
  | none =>
    (.miss, { c with
      slots := c.slots.insert id (.pending [caller])
      stats.misses := c.stats.misses + 1 })

def earlier (best : Option (String × UInt64)) (e : String × Slot E) : Option (String × UInt64) :=
  match best, e.2.lastUsed? with
  | some (k, t), some t' => if t' < t then some (e.1, t') else some (k, t)
  | none, some t' => some (e.1, t')
  | best, none => best

/-- The terminal id that was used least recently. -/
def leastRecent? (c : Cache E) : Option String :=
  (c.slots.entries.foldl earlier none).map Prod.fst

/-- Takes away up to `n` terminal entries, the least recently used first. -/
def evict : Nat → Cache E → Cache E
  | 0, c => c
  | n + 1, c =>
    match c.leastRecent? with
    | none => c
    | some id =>
      evict n { c with
        slots := c.slots.erase id
        stats.evictions := c.stats.evictions + 1 }

/-- The number of entries beyond the bound. -/
def excess (c : Cache E) : Nat :=
  match c.bound with
  | some n => c.slots.size - n.toNat
  | none => 0

/-- Puts the answer of a fetch under an id and takes away what is then too much. -/
def store (c : Cache E) (id : String) (answer : Option E) : Cache E :=
  let failures := if answer.isNone then c.stats.failures + 1 else c.stats.failures
  let c := { c with
    slots := c.slots.insert id (.ofAnswer answer c.clock)
    clock := c.clock + 1
    stats.failures := failures }
  c.evict c.excess

/-- Ends the fetch of an id and returns the callers that waited for it. An id that already has an
answer keeps it. -/
def publish (c : Cache E) (id : String) (answer : Option E) : List Nat × Cache E :=
  match c.slots.get? id with
  | some (.pending waiters) => (waiters, c.store id answer)
  | some _ => ([], c)
  | none => ([], c.store id answer)

def get? (c : Cache E) (id : String) : Option E :=
  (c.slots.get? id).bind Slot.entity?

def state? (c : Cache E) (id : String) : Option SlotState :=
  (c.slots.get? id).map Slot.state

/-- Every resolved entity under its id. -/
def snapshot (c : Cache E) : List (String × E) :=
  c.slots.entries.filterMap fun e => e.2.entity?.map fun x => (e.1, x)

def isTerminal (c : Cache E) (id : String) : Bool :=
  (c.slots.get? id).any fun s => !s.isPending

/-- Takes away the terminal entry of an id. -/
def invalidate (c : Cache E) (id : String) : Cache E :=
  if c.isTerminal id then { c with slots := c.slots.erase id } else c

def clear (c : Cache E) : Cache E :=
  { c with slots := c.slots.filter fun _ s => s.isPending }

def size (c : Cache E) : Nat := c.slots.size

def isEmpty (c : Cache E) : Bool := c.slots.isEmpty

end Cache

end LedgerExplorer
