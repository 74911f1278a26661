import LedgerExplorer.Proofs.Cache.Eviction
import Mathlib.Data.List.Perm.Basic

/-!
# Where entries go

An entry that has an answer stays until it is evicted for a publication or forgotten. What is gone after
an operation is seen by comparing the ids before and after it (`Cache.lost`), whatever the cache counts.
Over a run, every fetch that was published has its entry in the cache or among those that were lost, and
the cache counts the evicted ones (`Desk.Balanced`).
-/

namespace LedgerExplorer

namespace Cache

variable {E : Type} {c c' : Cache E} {id : String}

/-- The ids that have an entry in the first cache and none in the second. -/
def lost (c c' : Cache E) : List String := c.slots.keys.filter fun id => !c'.slots.contains id

/-- The ids with an answer. -/
def answered (c : Cache E) : List String := c.slots.keys.filter c.isTerminal

theorem contains_iff (c : Cache E) (id : String) :
    c.slots.contains id ↔ (c.waiters? id).isSome ∨ (c.answer? id).isSome := by
  rw [← c.isSome_lastUsed?, ← c.isSome_get?]
  rfl

theorem isTerminal_iff (c : Cache E) (id : String) : c.isTerminal id ↔ (c.answer? id).isSome := by
  rw [isTerminal_eq, isSome_lastUsed?]

theorem mem_lost : id ∈ c.lost c' ↔ c.slots.contains id ∧ ¬ c'.slots.contains id := by
  rw [lost, List.mem_filter, Dict.mem_keys, Bool.not_eq_true', Bool.not_eq_true]
  rfl

theorem nodup_lost (c c' : Cache E) : (c.lost c').Nodup := c.slots.nodup_keys.filter _

theorem mem_answered : id ∈ c.answered ↔ (c.answer? id).isSome := by
  rw [answered, List.mem_filter, isTerminal_iff, Dict.mem_keys]
  apply and_iff_right_of_imp
  intro h
  exact (c.contains_iff id).2 (.inr h)

theorem nodup_answered (c : Cache E) : c.answered.Nodup := c.slots.nodup_keys.filter _

theorem lost_self (c : Cache E) : c.lost c = [] := by
  apply List.eq_nil_iff_forall_not_mem.2
  intro id h
  exact (mem_lost.1 h).2 (mem_lost.1 h).1

theorem evictions_lookup (c : Cache E) (n : Nat) (id : String) :
    (c.lookup n id).2.stats.evictions = c.stats.evictions := by
  unfold lookup
  split <;> rfl

/-! ## Evictions -/

theorem leastRecent?_terminal (h : c.leastRecent? = some id) : (c.answer? id).isSome := by
  obtain ⟨s, t, hs, ht⟩ := exists_slot_of_leastRecent? h
  rw [← c.isSome_lastUsed?, lastUsed?, hs, Option.bind_some, ht]
  rfl

theorem answer?_eq_none_of_leastRecent? (h : c.leastRecent? = none) (id : String) :
    c.answer? id = none := by
  have hnone := (foldl_earlier_eq_none (Option.map_eq_none_iff.1 h)).2
  apply Option.not_isSome_iff_eq_none.1
  rw [← c.isSome_lastUsed?, lastUsed?]
  cases hs : c.slots.get? id with
  | none => simp
  | some s => simp [hnone _ (Dict.mem_entries.2 hs)]

theorem contains_evicted (c : Cache E) (id id' : String) :
    (c.evicted id).slots.contains id' ↔ id' ≠ id ∧ c.slots.contains id' := by
  unfold evicted Dict.contains
  by_cases h : id' = id <;> simp [h]

theorem contains_of_evict {n : Nat} (h : (c.evict n).slots.contains id) : c.slots.contains id := by
  rw [contains_iff, waiters?_evict] at h
  rw [contains_iff]
  apply h.imp_right
  intro hanswer
  rcases c.answer?_evict n id with hkept | hgone
  · exact hkept ▸ hanswer
  · simp [hgone] at hanswer

/-- Every entry that is evicted is counted. -/
theorem evictions_evict (n : Nat) (c : Cache E) :
    (c.evict n).stats.evictions =
      c.stats.evictions + UInt64.ofNat (c.lost (c.evict n)).length := by
  induction n generalizing c with
  | zero => simp [evict, lost_self]
  | succ n ih =>
    rw [evict_succ]
    split
    · simp [lost_self]
    · next victim hvictim =>
      have hmem : c.slots.contains victim := (c.contains_iff victim).2 (.inr (leastRecent?_terminal hvictim))
      have hlost : (c.lost ((c.evicted victim).evict n)).Perm
          (victim :: (c.evicted victim).lost ((c.evicted victim).evict n)) := by
        apply (List.perm_ext_iff_of_nodup (nodup_lost _ _) _).2
        · intro id
          rw [List.mem_cons, mem_lost, mem_lost, contains_evicted]
          by_cases hid : id = victim
          · subst hid
            simp only [hmem, true_and, true_or, iff_true]
            intro hkept
            exact ((c.contains_evicted id id).1 (contains_of_evict hkept)).1 rfl
          · simp [hid]
        · apply List.nodup_cons.2 ⟨_, nodup_lost _ _⟩
          rw [mem_lost, contains_evicted]
          simp
      have hone : (c.evicted victim).stats.evictions = c.stats.evictions + 1 := rfl
      rw [ih, hlost.length_eq, List.length_cons, hone, Nat.add_comm, UInt64.ofNat_add, UInt64.add_assoc]
      rfl

/-! ## Answers that are kept or lost -/

/-- Entries that are not kept are lost, if those whose fetch is under way are kept. -/
theorem answered_perm (hwaiters : ∀ id, c'.waiters? id = c.waiters? id)
    (hanswer : ∀ id, c'.answer? id = c.answer? id ∨ c'.answer? id = none) :
    c.answered.Perm (c'.answered ++ c.lost c') := by
  apply (List.perm_ext_iff_of_nodup c.nodup_answered _).2
  · intro id
    have hexclusive : (c.answer? id).isSome → c.waiters? id = none := by
      intro h
      obtain ⟨a, ha⟩ := Option.isSome_iff_exists.1 h
      exact waiters?_eq_none_of_answer? ha
    rw [List.mem_append, mem_answered, mem_answered, mem_lost, contains_iff, contains_iff, hwaiters]
    rcases hanswer id with hkept | hgone
    · rw [hkept]
      tauto
    · rw [hgone]
      by_cases ha : (c.answer? id).isSome
      · simp [ha, hexclusive ha]
      · simp [ha, Option.isSome_iff_ne_none]
  · apply List.nodup_append.2 ⟨c'.nodup_answered, c.nodup_lost c', _⟩
    rintro id hid _ hlost rfl
    exact (mem_lost.1 hlost).2 ((c'.contains_iff id).2 (.inr (mem_answered.1 hid)))

theorem answer?_filed (c : Cache E) (id id' : String) (a : Option E) :
    (c.filed id a).answer? id' = if id' = id then some a else c.answer? id' := by
  unfold filed answer?
  by_cases hid : id' = id <;> simp [Dict.get?_insert, hid]

theorem answered_filed (hpending : (c.waiters? id).isSome) (a : Option E) :
    (c.filed id a).answered.Perm (id :: c.answered) := by
  apply (List.perm_ext_iff_of_nodup (nodup_answered _) _).2
  · intro id'
    rw [mem_answered, List.mem_cons, mem_answered, answer?_filed]
    by_cases hid : id' = id <;> simp [hid]
  · apply List.nodup_cons.2 ⟨_, c.nodup_answered⟩
    rw [mem_answered, answer?_eq_none_of_waiters? hpending]
    simp

theorem lost_filed (hpending : (c.waiters? id).isSome) (a : Option E) :
    ((c.filed id a).lost c').Perm (c.lost c') := by
  apply (List.perm_ext_iff_of_nodup (nodup_lost _ _) (nodup_lost _ _)).2
  intro id'
  simp only [mem_lost, contains_iff, answer?_filed, waiters?_filed]
  by_cases hid : id' = id
  · subst hid
    simp [hpending]
  · simp [hid]

/-- A published id has an answer or is among the lost ones. -/
theorem answered_store (hpending : (c.waiters? id).isSome) (a : Option E) :
    (id :: c.answered).Perm ((c.store id a).answered ++ c.lost (c.store id a)) := by
  apply (answered_filed hpending a).symm.trans
  apply (answered_perm (waiters?_evict _ _) (answer?_evict _ _)).trans
  exact (lost_filed hpending a).append_left _

theorem evictions_store (hpending : (c.waiters? id).isSome) (a : Option E) :
    (c.store id a).stats.evictions =
      c.stats.evictions + UInt64.ofNat (c.lost (c.store id a)).length := by
  rw [← (lost_filed hpending a).length_eq]
  exact evictions_evict _ _

theorem lost_store_of_unbounded (hpending : (c.waiters? id).isSome) (hbound : c.bound = none)
    (a : Option E) : c.lost (c.store id a) = [] := by
  rw [store_of_unbounded hbound]
  apply List.Perm.eq_nil
  rw [← lost_self (c.filed id a)]
  exact (lost_filed hpending a).symm

theorem answered_invalidate (c : Cache E) (id : String) :
    c.answered.Perm ((c.invalidate id).answered ++ c.lost (c.invalidate id)) := by
  apply answered_perm (c.waiters?_invalidate id)
  intro id'
  rw [answer?_invalidate]
  split
  · exact .inr rfl
  · exact .inl rfl

theorem evictions_invalidate (c : Cache E) (id : String) :
    (c.invalidate id).stats.evictions = c.stats.evictions := by
  unfold invalidate
  split <;> rfl

theorem answered_clear (c : Cache E) : c.answered.Perm (c.clear.answered ++ c.lost c.clear) :=
  answered_perm c.waiters?_clear fun id => .inr (c.answer?_clear id)

end Cache

namespace Desk

variable {E : Type} {outcome : Fetch → FetchOutcome E} {bound : Option UInt64} {d : Desk E}

def Event.publishes : Event → Bool
  | .finish _ => true
  | _ => false

def Event.forgets : Event → Bool
  | .invalidate _ | .clear => true
  | _ => false

/-- The ids whose entries the events of one kind took away, in order. -/
def lostBy (outcome : Fetch → FetchOutcome E) (kind : Event → Bool) (d : Desk E) :
    List Event → List String
  | [] => []
  | e :: es =>
    (if kind e then d.cache.lost (d.step outcome e).cache else []) ++
      (d.step outcome e).lostBy outcome kind es

/-- Every published fetch has its entry in the cache, or it was evicted or forgotten. -/
structure Balanced (bound : Option UInt64) (d : Desk E) (evicted forgotten : List String) :
    Prop where
  tracked : d.Tracked
  bound_eq : d.cache.bound = bound
  published_perm : (d.published.map Fetch.id).Perm (d.cache.answered ++ evicted ++ forgotten)
  evictions_eq : d.cache.stats.evictions = UInt64.ofNat evicted.length
  evicted_eq_nil : bound = none → evicted = []

theorem opened_balanced (namespaceName : String) (bound : Option UInt64)
    (directory : Directory E) : (opened namespaceName bound directory).Balanced bound [] [] where
  tracked := opened_tracked namespaceName bound directory
  bound_eq := rfl
  published_perm := .nil
  evictions_eq := rfl
  evicted_eq_nil _ := rfl

variable {evicted forgotten : List String}

/-- A step that publishes nothing keeps the account, if what it loses was not evicted. -/
theorem Balanced.of_cache (h : d.Balanced bound evicted forgotten) {d' : Desk E} {lost : List String}
    (htracked : d'.Tracked) (hpublished : d'.published = d.published)
    (hbound : d'.cache.bound = d.cache.bound)
    (hevictions : d'.cache.stats.evictions = d.cache.stats.evictions)
    (hlost : d.cache.answered.Perm (d'.cache.answered ++ lost)) :
    d'.Balanced bound evicted (forgotten ++ lost) where
  tracked := htracked
  bound_eq := hbound.trans h.bound_eq
  published_perm := by
    rw [hpublished]
    apply h.published_perm.trans
    apply List.perm_iff_count.2
    intro id
    have hcount := List.perm_iff_count.1 hlost id
    simp only [List.count_append] at hcount ⊢
    omega
  evictions_eq := hevictions.trans h.evictions_eq
  evicted_eq_nil := h.evicted_eq_nil

theorem published_resolve (d : Desk E) (id : String) : (d.resolve id).published = d.published := by
  unfold Desk.resolve
  split <;> rfl

theorem Balanced.resolve (h : d.Balanced bound evicted forgotten) (id : String) :
    (d.resolve id).Balanced bound evicted forgotten := by
  have hanswered : d.cache.answered.Perm ((d.resolve id).cache.answered ++ []) := by
    rw [List.append_nil]
    apply (List.perm_ext_iff_of_nodup (Cache.nodup_answered _) (Cache.nodup_answered _)).2
    intro id'
    rw [Cache.mem_answered, Cache.mem_answered, cache_resolve, Cache.answer?_lookup]
  have hevictions : (d.resolve id).cache.stats.evictions = d.cache.stats.evictions := by
    rw [cache_resolve, Cache.evictions_lookup]
  rw [← List.append_nil forgotten]
  apply h.of_cache (h.tracked.resolve id) (d.published_resolve id) _ hevictions hanswered
  rw [cache_resolve, Cache.bound_lookup]

theorem Balanced.finish (h : d.Balanced bound evicted forgotten) {f : Fetch} (hf : f ∈ d.running) :
    (d.finish outcome f).Balanced bound
      (evicted ++ d.cache.lost (d.finish outcome f).cache) forgotten := by
  obtain ⟨ws, hw⟩ := h.tracked.waiters?_of_mem hf
  have hpending : (d.cache.waiters? f.id).isSome := by simp [hw]
  have hpublished : (d.finish outcome f).published = d.published ++ [f] := by
    rw [finish_of_mem hf hw]
  constructor
  · exact h.tracked.finish f
  · rw [h.tracked.cache_finish hf, Cache.store_eq, Cache.bound_evict]
    exact h.bound_eq
  · rw [hpublished, h.tracked.cache_finish hf]
    apply List.perm_iff_count.2
    intro id
    have hold := List.perm_iff_count.1 h.published_perm id
    have hnew := List.perm_iff_count.1 (Cache.answered_store hpending (answerOf (outcome f))) id
    simp only [List.map_append, List.map_cons, List.map_nil, List.count_append,
      List.count_cons, List.count_nil] at hold hnew ⊢
    omega
  · rw [h.tracked.cache_finish hf, Cache.evictions_store hpending, h.evictions_eq,
      List.length_append, UInt64.ofNat_add]
  · intro hbound
    rw [h.evicted_eq_nil hbound, h.tracked.cache_finish hf,
      Cache.lost_store_of_unbounded hpending (h.bound_eq.trans hbound)]
    rfl

theorem Balanced.step (h : d.Balanced bound evicted forgotten) (e : Event) :
    (d.step outcome e).Balanced bound
      (evicted ++ if e.publishes then d.cache.lost (d.step outcome e).cache else [])
      (forgotten ++ if e.forgets then d.cache.lost (d.step outcome e).cache else []) := by
  have htracked : (d.step outcome e).Tracked := h.tracked.step e
  cases e with
  | resolve id =>
    simp only [Event.publishes, Event.forgets, Bool.false_eq_true, if_false, List.append_nil]
    exact h.resolve id
  | finish f =>
    simp only [Event.publishes, Event.forgets, Bool.false_eq_true, if_false, if_true,
      List.append_nil, Desk.step]
    by_cases hf : f ∈ d.running
    · exact h.finish hf
    · rw [show d.finish outcome f = d from if_neg hf, Cache.lost_self, List.append_nil]
      exact h
  | drop n =>
    simp only [Event.publishes, Event.forgets, Bool.false_eq_true, if_false, List.append_nil,
      Desk.step, Desk.drop]
    split
    · exact ⟨{ h.tracked with }, h.bound_eq, h.published_perm, h.evictions_eq, h.evicted_eq_nil⟩
    · exact h
  | invalidate id =>
    simp only [Event.publishes, Event.forgets, Bool.false_eq_true, if_false, if_true,
      List.append_nil]
    exact h.of_cache htracked rfl (Cache.bound_invalidate _ _) (Cache.evictions_invalidate _ _)
      (Cache.answered_invalidate _ _)
  | clear =>
    simp only [Event.publishes, Event.forgets, Bool.false_eq_true, if_false, if_true,
      List.append_nil]
    exact h.of_cache htracked rfl rfl rfl (Cache.answered_clear _)

theorem Balanced.run (h : d.Balanced bound evicted forgotten) (es : List Event) :
    (d.run outcome es).Balanced bound (evicted ++ d.lostBy outcome Event.publishes es)
      (forgotten ++ d.lostBy outcome Event.forgets es) := by
  induction es generalizing d evicted forgotten with
  | nil =>
    simp only [lostBy, List.append_nil]
    exact h
  | cons e es ih =>
    simp only [lostBy, ← List.append_assoc]
    exact ih (h.step e)

end Desk
end LedgerExplorer
