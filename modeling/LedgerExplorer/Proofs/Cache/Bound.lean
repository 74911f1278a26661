import LedgerExplorer.Proofs.Cache.Capacity
import LedgerExplorer.Proofs.Cache.Losses

/-!
# The bound on terminal entries

Pending entries come in without a question, and only a publication looks at the bound. It evicts until
there is room or nothing terminal is left (`Cache.evict_exhausts`), so that there are never more terminal
entries than the bound allows, however many are pending.
-/

namespace LedgerExplorer

namespace Cache

variable {E : Type} {c c' : Cache E} {id : String} {bound : UInt64}

theorem size_evicted (h : (c.answer? id).isSome) : (c.evicted id).size + 1 = c.size := by
  have hmem : c.slots.contains id := (c.contains_iff id).2 (.inr h)
  have hperm : c.slots.keys.Perm (id :: (c.evicted id).slots.keys) := by
    apply (List.perm_ext_iff_of_nodup c.slots.nodup_keys _).2
    · intro id'
      rw [List.mem_cons, Dict.mem_keys, Dict.mem_keys]
      change c.slots.contains id' ↔ id' = id ∨ (c.evicted id).slots.contains id'
      rw [contains_evicted]
      by_cases hid : id' = id
      · simp [hid, hmem]
      · simp [hid]
    · apply List.nodup_cons.2 ⟨_, Dict.nodup_keys _⟩
      rw [Dict.mem_keys]
      change ¬ (c.evicted id).slots.contains id
      rw [contains_evicted]
      simp
  have hlength := hperm.length_eq
  rw [List.length_cons, Dict.keys, Dict.keys, List.length_map, List.length_map] at hlength
  exact hlength.symm

theorem evict_exhausts (n : Nat) (c : Cache E) :
    (c.evict n).size = c.size - n ∨ ∀ id, (c.evict n).answer? id = none := by
  induction n generalizing c with
  | zero => exact .inl rfl
  | succ n ih =>
    rw [evict_succ]
    split
    · next hnone => exact .inr (answer?_eq_none_of_leastRecent? hnone)
    · next victim hvictim =>
      apply (ih (c.evicted victim)).imp_left
      intro hsize
      have hone := size_evicted (leastRecent?_terminal hvictim)
      omega

theorem size_store (hbound : c.bound = some bound) (id : String) (a : Option E) :
    (c.store id a).size ≤ bound.toNat ∨ ∀ id', (c.store id a).answer? id' = none := by
  rw [store_eq]
  apply (evict_exhausts (c.filed id a).excess (c.filed id a)).imp_left
  intro hsize
  have hexcess : (c.filed id a).excess = (c.filed id a).size - bound.toNat := by
    unfold excess
    rw [show (c.filed id a).bound = some bound from hbound]
    rfl
  omega

/-! ## Counting entries -/

theorem terminals_eq (c : Cache E) : c.terminals = c.answered.length := List.countP_eq_length_filter

theorem terminals_le_size (c : Cache E) : c.terminals ≤ c.size := by
  rw [size, Dict.size, ← List.length_map (f := Prod.fst)]
  exact List.countP_le_length

theorem terminals_eq_zero (h : ∀ id, c.answer? id = none) : c.terminals = 0 := by
  rw [terminals_eq, List.length_eq_zero_iff]
  apply List.eq_nil_iff_forall_not_mem.2
  intro id hid
  rw [mem_answered, h] at hid
  cases hid

theorem terminals_le (h : ∀ id a, c'.answer? id = some a → c.answer? id = some a) :
    c'.terminals ≤ c.terminals := by
  rw [terminals_eq, terminals_eq]
  apply (List.subperm_of_subset c'.nodup_answered _).length_le
  intro id hid
  rw [mem_answered] at hid ⊢
  obtain ⟨a, ha⟩ := Option.isSome_iff_exists.1 hid
  simp [h id a ha]

theorem state?_eq_pending_of_mem (hid : id ∈ c.slots.keys) (h : c.answer? id = none) :
    c.state? id = some .pending := by
  rw [Dict.mem_keys] at hid
  rw [state?_eq_pending_iff]
  exact ((c.contains_iff id).1 hid).resolve_right (by simp [h])

theorem size_eq_add (c : Cache E) : c.size = c.terminals + c.pendings := by
  have hlength : c.size = c.slots.keys.length := (List.length_map _).symm
  rw [hlength, List.length_eq_countP_add_countP c.isTerminal, terminals, pendings]
  congr 1
  apply List.countP_congr
  intro id hid
  rw [decide_eq_true_eq, decide_eq_true_eq, isTerminal_iff]
  constructor
  · intro hnone
    exact state?_eq_pending_of_mem hid (Option.not_isSome_iff_eq_none.1 hnone)
  · intro hpending
    rw [answer?_eq_none_of_waiters? (state?_eq_pending_iff.1 hpending)]
    simp

theorem get?_pending_of_waiters? {ws : List Nat} (hsame : c'.waiters? id = c.waiters? id)
    (h : c.slots.get? id = some (.pending ws)) : c'.slots.get? id = some (.pending ws) := by
  rw [← waiters?_eq_some_iff] at h ⊢
  rw [hsame, h]

end Cache

namespace Desk

variable {E : Type} {outcome : Fetch → FetchOutcome E} {bound : UInt64} {d : Desk E} {r : Recency}

theorem Recorded.terminals_le_step (h : d.Recorded (some bound) r)
    (hle : d.cache.terminals ≤ bound.toNat) (e : Event) :
    (d.step outcome e).cache.terminals ≤ bound.toNat := by
  cases e with
  | resolve id =>
    apply Nat.le_trans (Cache.terminals_le _) hle
    intro id' a ha
    rwa [Desk.step, cache_resolve, Cache.answer?_lookup] at ha
  | finish f =>
    by_cases hf : f ∈ d.running
    · rw [Desk.step, h.tracked.cache_finish hf]
      rcases Cache.size_store h.bound_eq f.id (answerOf (outcome f)) with hsize | hnone
      · exact Nat.le_trans (Cache.terminals_le_size _) hsize
      · rw [Cache.terminals_eq_zero hnone]
        exact Nat.zero_le _
    · rw [Desk.step, show d.finish outcome f = d from if_neg hf]
      exact hle
  | drop n =>
    simp only [Desk.step, Desk.drop]
    split
    · exact hle
    · exact hle
  | invalidate id =>
    apply Nat.le_trans (Cache.terminals_le _) hle
    intro id' a ha
    exact Cache.answer?_of_invalidate ha
  | clear =>
    apply Nat.le_trans (Cache.terminals_le _) hle
    intro id a ha
    change d.cache.clear.answer? id = some a at ha
    simp at ha

theorem Recorded.terminals_le_run (h : d.Recorded (some bound) r)
    (hle : d.cache.terminals ≤ bound.toNat) (es : List Event) :
    (d.run outcome es).cache.terminals ≤ bound.toNat := by
  induction es generalizing d r with
  | nil => exact hle
  | cons e es ih => exact ih (h.step e) (h.terminals_le_step hle e)

/-- There are never more terminal entries than the bound allows, so that all beyond it are pending.
Right after a publication there are no more entries than that, or only pending ones. A pending entry
keeps its place and everybody who waits for it while other fetches are published, ids are invalidated
and the cache is cleared. -/
theorem terminals_within_bound (namespaceName : String) (bound : UInt64) (directory : Directory E)
    (outcome : Fetch → FetchOutcome E) (es : List Event) :
    let d := (opened namespaceName (some bound) directory).run outcome es
    d.cache.terminals ≤ bound.toNat ∧
    d.cache.size ≤ bound.toNat + d.cache.pendings ∧
    (∀ f ∈ d.running, (d.finish outcome f).cache.size ≤ bound.toNat ∨
      ∀ id ∈ (d.finish outcome f).cache.slots.keys,
        (d.finish outcome f).cache.state? id = some .pending) ∧
    ∀ id ws, d.cache.slots.get? id = some (.pending ws) →
      (∀ f ∈ d.running, f.id ≠ id →
        (d.finish outcome f).cache.slots.get? id = some (.pending ws)) ∧
      (∀ id', (d.step outcome (.invalidate id')).cache.slots.get? id = some (.pending ws)) ∧
      (d.step outcome .clear).cache.slots.get? id = some (.pending ws) := by
  intro d
  have hopened := opened_recorded namespaceName (some bound) directory
  have h : d.Recorded (some bound) _ := hopened.run es
  have hle : d.cache.terminals ≤ bound.toNat := by
    apply hopened.terminals_le_run _ es
    rw [Cache.terminals_eq_zero fun id => rfl]
    exact Nat.zero_le _
  refine ⟨hle, ?_, ?_, ?_⟩
  · rw [Cache.size_eq_add]
    exact Nat.add_le_add_right hle _
  · intro f hf
    rw [h.tracked.cache_finish hf]
    apply (Cache.size_store h.bound_eq f.id _).imp_right
    intro hnone id hid
    exact Cache.state?_eq_pending_of_mem hid (hnone id)
  · intro id ws hpending
    refine ⟨?_, fun id' => ?_, ?_⟩
    · intro f hf hne
      rw [h.tracked.cache_finish hf]
      apply Cache.get?_pending_of_waiters? _ hpending
      rw [Cache.waiters?_store, if_neg (Ne.symm hne)]
    · exact Cache.get?_pending_of_waiters? (Cache.waiters?_invalidate _ id' id) hpending
    · exact Cache.get?_pending_of_waiters? (Cache.waiters?_clear _ id) hpending

end Desk

end LedgerExplorer
