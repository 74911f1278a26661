import LedgerExplorer.Proofs.Cache.Slots
import LedgerExplorer.Proofs.Lists

/-!
# Runs of a resolver

A desk is a resolver together with what happened at it: the calls that were made, the fetches that
were started, the callers that went away and the answers that were given. An event is a call that
takes its turn, a fetch that ends and is published, a waiting caller that is dropped, an entry that is
invalidated, or the cache being cleared. Each of them has the entries to itself, so a run is a list of
events, in any order and number; one that meets nobody it concerns changes nothing. How the fetches
end is not up to the desk: it is a function of the fetch, and any function will do.
-/

namespace LedgerExplorer

/-- A fetch of an id, counted from one among the fetches of that id. -/
@[ext] structure Fetch where
  id : String
  number : Nat
  deriving DecidableEq, Repr

/-- A call as it was met, with the fetch of its id that had started last by the end of its turn. -/
structure Inquiry where
  met : LookupResult
  fetch : Fetch
  deriving DecidableEq, Repr

structure Desk (E : Type) where
  resolver : Resolver E
  /-- The ids of the fetches that were started, in order. -/
  started : List String := []
  /-- The fetches that have not been published. -/
  running : List Fetch := []
  /-- The fetches that have been published, in order. -/
  published : List Fetch := []
  /-- Every call, at the place of its number. -/
  calls : List Inquiry := []
  /-- The calls whose callers went away before they were answered. -/
  dropped : List Nat := []
  /-- Every call that was answered with its answer, in order. -/
  answered : List (Nat × Option E) := []

namespace Desk

variable {E : Type}

/-- A desk with an empty cache, to which nobody has come yet. -/
def opened (namespaceName : String) (bound : Option UInt64) (directory : Directory E) : Desk E where
  resolver := { cache := { namespaceName, bound }, directory }

abbrev cache (d : Desk E) : Cache E := d.resolver.cache

/-- The fetch of an id that was started last. -/
def latest (d : Desk E) (id : String) : Fetch := ⟨id, d.started.count id⟩

/-- The calls that have neither been answered nor dropped. -/
def Waits (d : Desk E) (n : Nat) : Prop :=
  n < d.calls.length ∧ n ∉ d.dropped ∧ n ∉ d.answered.map Prod.fst

instance (d : Desk E) (n : Nat) : Decidable (d.Waits n) :=
  inferInstanceAs (Decidable (_ ∧ _ ∧ _))

/-- A call takes its turn. A hit is answered at once, a miss starts a fetch. -/
def resolve (d : Desk E) (id : String) : Desk E :=
  match d.resolver.resolve d.calls.length id with
  | (.hit a, resolver) => { d with
      resolver
      calls := d.calls ++ [⟨.hit, d.latest id⟩]
      answered := d.answered ++ [(d.calls.length, a)] }
  | (.coalesced, resolver) => { d with
      resolver
      calls := d.calls ++ [⟨.coalesced, d.latest id⟩] }
  | (.miss, resolver) =>
    let d := { d with resolver, started := d.started ++ [id] }
    { d with
      running := d.running ++ [d.latest id]
      calls := d.calls ++ [⟨.miss, d.latest id⟩] }

/-- A fetch ends as `outcome` says and is published. The callers that waited for it get the answer,
unless they have gone away. -/
def finish (outcome : Fetch → FetchOutcome E) (d : Desk E) (f : Fetch) : Desk E :=
  if f ∈ d.running then
    let (waiters, answer, resolver) := d.resolver.conclude f.id (outcome f)
    { d with
      resolver
      running := d.running.erase f
      published := d.published ++ [f]
      answered := d.answered ++ (waiters.filter (· ∉ d.dropped)).map fun n => (n, answer) }
  else d

/-- A caller goes away while it waits. -/
def drop (d : Desk E) (n : Nat) : Desk E :=
  if d.Waits n then { d with dropped := n :: d.dropped } else d

inductive Event
  | resolve (id : String)
  | finish (f : Fetch)
  | drop (call : Nat)
  | invalidate (id : String)
  | clear
  deriving DecidableEq, Repr

def Event.isDrop : Event → Bool
  | .drop _ => true
  | _ => false

/-- The id that an event asks for, if it is a call. -/
def Event.asked? : Event → Option String
  | .resolve id => some id
  | _ => none

def step (outcome : Fetch → FetchOutcome E) (d : Desk E) : Event → Desk E
  | .resolve id => d.resolve id
  | .finish f => d.finish outcome f
  | .drop n => d.drop n
  | .invalidate id => { d with resolver := d.resolver.invalidate id }
  | .clear => { d with resolver := d.resolver.clear }

def run (outcome : Fetch → FetchOutcome E) (d : Desk E) (es : List Event) : Desk E :=
  es.foldl (step outcome) d

variable {outcome : Fetch → FetchOutcome E} {d : Desk E} {id : String}

/-- What holds of a desk and is kept by every event holds after every run. -/
theorem run_induction {P : Desk E → Prop} (hd : P d) (hstep : ∀ d e, P d → P (step outcome d e))
    (es : List Event) : P (d.run outcome es) :=
  List.foldlRecOn es _ hd fun d hd e _ => hstep d e hd

/-! ## What a call and the end of a fetch do -/

theorem resolve_of_answer? {a : Option E} (h : d.cache.answer? id = some a) :
    d.resolve id = { d with
      resolver := (d.resolver.resolve d.calls.length id).2
      calls := d.calls ++ [⟨.hit, d.latest id⟩]
      answered := d.answered ++ [(d.calls.length, a)] } := by
  have hfound := (d.resolver.resolve_fst d.calls.length id).trans (Cache.lookup_fst _ _ _)
  rw [h] at hfound
  unfold resolve
  split <;> simp_all

theorem resolve_of_waiters? (h : (d.cache.waiters? id).isSome) :
    d.resolve id = { d with
      resolver := (d.resolver.resolve d.calls.length id).2
      calls := d.calls ++ [⟨.coalesced, d.latest id⟩] } := by
  have hfound := (d.resolver.resolve_fst d.calls.length id).trans (Cache.lookup_fst _ _ _)
  rw [Cache.answer?_eq_none_of_waiters? h, h] at hfound
  unfold resolve
  split <;> simp_all

theorem resolve_of_absent (hanswer : d.cache.answer? id = none)
    (hwaiters : d.cache.waiters? id = none) :
    d.resolve id = { d with
      resolver := (d.resolver.resolve d.calls.length id).2
      started := d.started ++ [id]
      running := d.running ++ [⟨id, d.started.count id + 1⟩]
      calls := d.calls ++ [⟨.miss, ⟨id, d.started.count id + 1⟩⟩] } := by
  have hfound := (d.resolver.resolve_fst d.calls.length id).trans (Cache.lookup_fst _ _ _)
  rw [hanswer, hwaiters] at hfound
  unfold resolve
  split <;> simp_all [latest]

theorem finish_of_mem {f : Fetch} {ws : List Nat} (hf : f ∈ d.running)
    (hw : d.cache.waiters? f.id = some ws) :
    d.finish outcome f = { d with
      resolver := (d.resolver.conclude f.id (outcome f)).2.2
      running := d.running.erase f
      published := d.published ++ [f]
      answered := d.answered ++
        (ws.filter (· ∉ d.dropped)).map fun n => (n, answerOf (outcome f)) } := by
  simp [finish, hf, Resolver.conclude_of_waiters? hw]

/-! ## The calls of a run -/

theorem calls_resolve (d : Desk E) (id : String) :
    (d.resolve id).calls.map (·.fetch.id) = d.calls.map (·.fetch.id) ++ [id] := by
  unfold resolve
  split <;> simp [latest]

theorem calls_finish (outcome : Fetch → FetchOutcome E) (d : Desk E) (f : Fetch) :
    (d.finish outcome f).calls = d.calls := by
  unfold finish
  split <;> rfl

theorem calls_drop (d : Desk E) (n : Nat) : (d.drop n).calls = d.calls := by
  unfold drop
  split <;> rfl

theorem calls_step (d : Desk E) (e : Event) :
    (d.step outcome e).calls.map (·.fetch.id) = d.calls.map (·.fetch.id) ++ e.asked?.toList := by
  cases e with
  | resolve id => exact d.calls_resolve id
  | finish f => simp [step, calls_finish, Event.asked?]
  | drop n => simp [step, calls_drop, Event.asked?]
  | invalidate id => simp [step, Event.asked?]
  | clear => simp [step, Event.asked?]

/-- Every call that an event makes is on record, in order. -/
theorem calls_run (d : Desk E) (es : List Event) :
    (d.run outcome es).calls.map (·.fetch.id) =
      d.calls.map (·.fetch.id) ++ es.filterMap Event.asked? :=
  foldl_record (fun d : Desk E => d.calls.map (·.fetch.id)) calls_step d es

end Desk

end LedgerExplorer
