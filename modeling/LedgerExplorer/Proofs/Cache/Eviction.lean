import LedgerExplorer.Proofs.Cache.Recency
import LedgerExplorer.Proofs.Cache.SingleFlight

/-!
# What is evicted in a run

Every run of a resolver is recorded as it goes: the calls, publications and forgetting that its events
amount to make up a record of the pending ids and of the order in which the others were used. While
the clock does not run out, the cache has the entries of that record (`Desk.Recorded`).
-/

namespace LedgerExplorer

namespace Cache

variable {E : Type}

@[simp] theorem bound_lookup (c : Cache E) (n : Nat) (id : String) :
    (c.lookup n id).2.bound = c.bound := by
  unfold lookup
  split <;> rfl

@[simp] theorem bound_evict (n : Nat) (c : Cache E) : (c.evict n).bound = c.bound := by
  induction n generalizing c with
  | zero => rfl
  | succ n ih =>
    rw [evict_succ]
    split
    · rfl
    · rw [ih]
      rfl

@[simp] theorem bound_invalidate (c : Cache E) (id : String) : (c.invalidate id).bound = c.bound := by
  unfold invalidate
  split <;> rfl

end Cache

namespace Desk

variable {E : Type} {outcome : Fetch → FetchOutcome E} {bound : Option UInt64} {d : Desk E}
  {r : Recency}

/-- How often the clock has ticked: once for every hit and once for every publication. -/
def ticks (d : Desk E) : Nat := d.calls.countP (·.met = .hit) + d.published.length

/-- What an event does to the entries, if it does anything. -/
def op? (d : Desk E) : Event → Option Recency.Op
  | .resolve id => some (.ask id)
  | .finish f => if f ∈ d.running then some (.publish f.id) else none
  | .drop _ => none
  | .invalidate id => some (.invalidate id)
  | .clear => some .clear

/-- What the events of a run do to the entries, in order. -/
def ops (outcome : Fetch → FetchOutcome E) (d : Desk E) : List Event → List Recency.Op
  | [] => []
  | e :: es => (d.op? e).toList ++ (d.step outcome e).ops outcome es

theorem cache_resolve (d : Desk E) (id : String) :
    (d.resolve id).cache = (d.cache.lookup d.calls.length id).2 := by
  rw [← Resolver.cache_resolve]
  unfold resolve
  split <;> simp [*]

theorem ticks_resolve (d : Desk E) (id : String) :
    (d.resolve id).ticks = if (d.cache.lastUsed? id).isSome then d.ticks + 1 else d.ticks := by
  rw [Cache.isSome_lastUsed?]
  cases ha : d.cache.answer? id with
  | some a =>
    rw [resolve_of_answer? ha]
    simp [ticks, Nat.add_right_comm]
  | none =>
    by_cases hw : d.cache.waiters? id = none
    · rw [resolve_of_absent ha hw]
      simp [ticks]
    · rw [resolve_of_waiters? (Option.isSome_iff_ne_none.2 hw)]
      simp [ticks]

theorem Tracked.cache_finish (h : d.Tracked) {f : Fetch} (hf : f ∈ d.running) :
    (d.finish outcome f).cache = d.cache.store f.id (answerOf (outcome f)) := by
  obtain ⟨ws, hw⟩ := h.waiters?_of_mem hf
  rw [finish_of_mem hf hw]
  simp only [cache, Resolver.conclude_of_waiters? hw]

theorem Tracked.ticks_finish (h : d.Tracked) {f : Fetch} (hf : f ∈ d.running) :
    (d.finish outcome f).ticks = d.ticks + 1 := by
  obtain ⟨ws, hw⟩ := h.waiters?_of_mem hf
  rw [finish_of_mem hf hw]
  simp [ticks, Nat.add_assoc]

/-- The clock shows the number of ticks, and while these fit into a word the cache has the recorded
entries. -/
structure Recorded (bound : Option UInt64) (d : Desk E) (r : Recency) : Prop where
  tracked : d.Tracked
  bound_eq : d.cache.bound = bound
  clock_eq : d.cache.clock = UInt64.ofNat d.ticks
  follows : d.ticks < UInt64.size → d.cache.Follows r

theorem opened_recorded (namespaceName : String) (bound : Option UInt64) (directory : Directory E) :
    (opened namespaceName bound directory).Recorded bound {} where
  tracked := opened_tracked namespaceName bound directory
  bound_eq := rfl
  clock_eq := rfl
  follows _ := Cache.empty_follows namespaceName bound

/-- The next tick fits if the clock has not run out after it. -/
theorem Recorded.clock_lt (h : d.Recorded bound r) (hlt : d.ticks + 1 < UInt64.size) :
    d.cache.clock.toNat + 1 < UInt64.size := by
  rw [h.clock_eq, UInt64.toNat_ofNat_of_lt' (Nat.lt_of_succ_lt hlt)]
  exact hlt

theorem Tracked.mem_pending (h : d.Tracked) (hfollows : d.cache.Follows r) {f : Fetch}
    (hf : f ∈ d.running) : f.id ∈ r.pending := by
  obtain ⟨ws, hw⟩ := h.waiters?_of_mem hf
  exact (hfollows.mem_pending f.id).2 (by simp [hw])

/-- The published id is the last in order before anything is evicted for it. -/
theorem Recorded.filed (h : d.Recorded bound r) {f : Fetch} (hf : f ∈ d.running)
    (hlt : (d.finish outcome f).ticks < UInt64.size) (a : Option E) :
    (d.cache.filed f.id a).Follows ⟨r.pending.erase f.id, r.used ++ [f.id]⟩ := by
  rw [h.tracked.ticks_finish hf] at hlt
  have hfollows := h.follows (Nat.lt_of_succ_lt hlt)
  exact hfollows.filed (h.clock_lt hlt) (h.tracked.mem_pending hfollows hf) a

theorem Recorded.resolve (h : d.Recorded bound r) (id : String) :
    (d.resolve id).Recorded bound (r.step bound (.ask id)) := by
  constructor
  · exact h.tracked.resolve id
  · rw [cache_resolve, Cache.bound_lookup, h.bound_eq]
  · rw [cache_resolve, Cache.clock_lookup, ticks_resolve, h.clock_eq]
    split
    · exact (UInt64.ofNat_add _ _).symm
    · rfl
  · intro hlt
    rw [ticks_resolve] at hlt
    have hold : d.ticks < UInt64.size := by
      split at hlt
      · exact Nat.lt_of_succ_lt hlt
      · exact hlt
    rw [cache_resolve]
    refine (h.follows hold).lookup bound _ id fun hused => ?_
    rw [if_pos hused] at hlt
    exact h.clock_lt hlt

theorem Recorded.finish (h : d.Recorded bound r) {f : Fetch} (hf : f ∈ d.running) :
    (d.finish outcome f).Recorded bound (r.step bound (.publish f.id)) := by
  constructor
  · exact h.tracked.finish f
  · rw [h.tracked.cache_finish hf, Cache.store_eq, Cache.bound_evict]
    exact h.bound_eq
  · rw [h.tracked.cache_finish hf, Cache.clock_store, h.tracked.ticks_finish hf, h.clock_eq]
    exact (UInt64.ofNat_add _ _).symm
  · intro hlt
    rw [h.tracked.ticks_finish hf] at hlt
    have hfollows := h.follows (Nat.lt_of_succ_lt hlt)
    rw [h.tracked.cache_finish hf, ← h.bound_eq]
    exact hfollows.store (h.clock_lt hlt) (h.tracked.mem_pending hfollows hf) _

theorem Recorded.step (h : d.Recorded bound r) (e : Event) :
    (d.step outcome e).Recorded bound ((d.op? e).elim r (r.step bound)) := by
  have htracked : (d.step outcome e).Tracked := h.tracked.step e
  cases e with
  | resolve id => exact h.resolve id
  | finish f =>
    by_cases hf : f ∈ d.running
    · rw [op?, if_pos hf]
      exact h.finish hf
    · simpa [op?, hf, Desk.step, Desk.finish] using h
  | drop n =>
    simp only [Desk.step, Desk.drop] at htracked ⊢
    split
    · next hwaits =>
      rw [if_pos hwaits] at htracked
      exact ⟨htracked, h.bound_eq, h.clock_eq, h.follows⟩
    · exact h
  | invalidate id =>
    refine ⟨htracked, ?_, ?_, fun hlt => (h.follows hlt).invalidate bound id⟩
    · exact (Cache.bound_invalidate _ _).trans h.bound_eq
    · exact (Cache.clock_invalidate _ _).trans h.clock_eq
  | clear => exact ⟨htracked, h.bound_eq, h.clock_eq, fun hlt => (h.follows hlt).clear bound⟩

theorem run_ops_cons (d : Desk E) (e : Event) (es : List Event) :
    r.run bound (d.ops outcome (e :: es)) =
      ((d.op? e).elim r (r.step bound)).run bound ((d.step outcome e).ops outcome es) := by
  rw [ops]
  cases d.op? e <;> rfl

theorem Recorded.run (h : d.Recorded bound r) (es : List Event) :
    (d.run outcome es).Recorded bound (r.run bound (d.ops outcome es)) := by
  induction es generalizing d r with
  | nil => exact h
  | cons e es ih =>
    rw [run_ops_cons]
    exact ih (h.step e)

/-- As long as the clock does not run out, the pending ids and the terminal ones in the order of their
last uses are those of the record: a hit moves an id to the end, a publication puts its id there and
takes ids away from the front while there are too many entries, and nothing else changes the order. No
two terminal ids were used at the same tick, so a publication evicts the same ids whatever order the
cache goes through its entries in, and a pending id is never among them. -/
theorem eviction_is_least_recently_used (namespaceName : String) (bound : Option UInt64)
    (directory : Directory E) (outcome : Fetch → FetchOutcome E) (es : List Event)
    (hticks : ((opened namespaceName bound directory).run outcome es).ticks < UInt64.size) :
    let d := (opened namespaceName bound directory).run outcome es
    let r := Recency.run bound {} ((opened namespaceName bound directory).ops outcome es)
    (∀ id, d.cache.state? id = some .pending ↔ id ∈ r.pending) ∧
    (∀ id, d.cache.isTerminal id ↔ id ∈ r.used) ∧
    d.cache.size = r.pending.card + r.used.length ∧
    r.used.Pairwise d.cache.UsedBefore ∧
    (∀ a b t, d.cache.lastUsed? a = some t → d.cache.lastUsed? b = some t → a = b) ∧
    ∀ f ∈ d.running, (d.finish outcome f).ticks < UInt64.size → ∀ a,
      (∀ listing, (∀ entries, (listing entries).Perm entries.entries) →
        (d.cache.filed f.id a).evictBy listing (d.cache.filed f.id a).excess =
          d.cache.store f.id a) ∧
      ∀ id, id ≠ f.id → d.cache.state? id = some .pending →
        (d.cache.store f.id a).state? id = some .pending := by
  intro d r
  have h : d.Recorded bound r := (opened_recorded namespaceName bound directory).run es
  have hfollows : d.cache.Follows r := h.follows hticks
  refine ⟨fun id => hfollows.mem_pending_iff_state?.symm, fun id => hfollows.mem_used_iff_isTerminal.symm,
    hfollows.size_eq, hfollows.used_before, fun a b t ha hb => hfollows.eq_of_lastUsed? ha hb,
    fun f hf hlt a => ⟨fun listing hlisting => ?_, fun id hid hpending => ?_⟩⟩
  · exact (h.filed hf hlt a).evictBy_eq hlisting _
  · rw [Cache.state?_eq_pending_iff] at hpending ⊢
    rwa [Cache.waiters?_store, if_neg hid]

/-- A directory whose records are their own ids. -/
def namesakes : Directory String := ⟨(·), Decoder.string⟩

/-- Every fetch in it finds its record. -/
def found : Fetch → FetchOutcome String := fun f => some (.ok (some f.id))

/-- Two entries are filed and the older one is hit again; then `c` is published next to the pending `d`. -/
def crowdedRun : List Event :=
  [.resolve "a", .finish ⟨"a", 1⟩, .resolve "b", .finish ⟨"b", 1⟩, .resolve "a", .resolve "c",
    .resolve "d", .finish ⟨"c", 1⟩]

theorem two_evicted_beside_pending :
    ((opened "default" (some 2) namesakes).run found crowdedRun).ticks < UInt64.size ∧
    Recency.run (some 2) {} ((opened "default" (some 2) namesakes).ops found crowdedRun) =
      ⟨{"d"}, ["c"]⟩ ∧
    ∀ id,
      (((opened "default" (some 2) namesakes).run found crowdedRun).cache.state? id =
        some .pending ↔ id = "d") ∧
      (((opened "default" (some 2) namesakes).run found crowdedRun).cache.isTerminal id ↔
        id = "c") := by
  have hticks : ((opened "default" (some 2) namesakes).run found crowdedRun).ticks < UInt64.size := by
    decide
  have hr : Recency.run (some 2) {} ((opened "default" (some 2) namesakes).ops found crowdedRun) =
      ⟨{"d"}, ["c"]⟩ := by decide
  obtain ⟨hpending, hterminal, -⟩ :=
    eviction_is_least_recently_used "default" (some 2) namesakes found crowdedRun hticks
  rw [hr] at hpending hterminal
  exact ⟨hticks, hr, fun id =>
    ⟨(hpending id).trans Finset.mem_singleton, (hterminal id).trans List.mem_singleton⟩⟩

end Desk

end LedgerExplorer
