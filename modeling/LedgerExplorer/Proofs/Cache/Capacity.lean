import LedgerExplorer.Proofs.Cache.Eviction

/-!
# How much a publication evicts

The bound of a cache is compared with the number of all its entries, but only terminal ones can be
taken away for it. So an entry whose fetch is under way leaves less room for the others: a publication
evicts one terminal entry for every entry beyond the bound, pending ones included, until there is no
terminal one left.
-/

namespace LedgerExplorer

namespace Cache

variable {E : Type} {c : Cache E} {r : Recency} {id : String}

/-- The number of terminal entries. -/
def terminals (c : Cache E) : Nat := c.slots.keys.countP c.isTerminal

/-- The number of entries whose fetch is under way. -/
def pendings (c : Cache E) : Nat := c.slots.keys.countP fun id => c.state? id = some .pending

theorem Follows.terminals_eq (h : c.Follows r) : c.terminals = r.used.length := by
  have hpending : r.pending.toList.countP c.isTerminal = 0 := by
    refine List.countP_eq_zero.2 fun id hid => ?_
    rw [← h.mem_used_iff_isTerminal]
    exact h.not_mem_used (Finset.mem_toList.1 hid)
  have hused : r.used.countP c.isTerminal = r.used.length :=
    List.countP_eq_length.2 fun id hid => h.mem_used_iff_isTerminal.1 hid
  rw [terminals, h.keys_perm.countP_eq, List.countP_append, hpending, hused, Nat.zero_add]

theorem Follows.pendings_eq (h : c.Follows r) : c.pendings = r.pending.card := by
  have hpending : r.pending.toList.countP (fun id => c.state? id = some .pending) =
      r.pending.toList.length := by
    refine List.countP_eq_length.2 fun id hid => ?_
    simpa using h.mem_pending_iff_state?.1 (Finset.mem_toList.1 hid)
  have hused : r.used.countP (fun id => c.state? id = some .pending) = 0 := by
    refine List.countP_eq_zero.2 fun id hid => ?_
    rw [decide_eq_true_eq, ← h.mem_pending_iff_state?]
    exact fun hmem => h.not_mem_used hmem hid
  rw [pendings, h.keys_perm.countP_eq, List.countP_append, hpending, hused, Finset.length_toList,
    Nat.add_zero]

/-- Evictions are counted while there is a terminal entry to take away. -/
theorem Follows.evictions_evict (h : c.Follows r) (n : Nat) :
    (c.evict n).stats.evictions = c.stats.evictions + UInt64.ofNat (min n r.used.length) := by
  induction n generalizing c r with
  | zero => simp [Cache.evict]
  | succ n ih =>
    have hfirst : c.leastRecent? = r.used.head? := h.earliest_eq (.refl _)
    rw [evict_succ, hfirst]
    obtain ⟨pending, used⟩ := r
    cases used with
    | nil => simp
    | cons id ids =>
      have hrest := ih (h.evicted rfl)
      have hone : (c.evicted id).stats.evictions = c.stats.evictions + 1 := rfl
      rw [hone, UInt64.add_assoc, UInt64.add_comm 1] at hrest
      rw [List.length_cons, Nat.add_min_add_right, UInt64.ofNat_add]
      exact hrest

/-- The id that was used last is there until every terminal entry is taken away. -/
theorem Follows.isTerminal_evict_last (h : c.Follows r) {ids : List String}
    (hused : r.used = ids ++ [id]) (n : Nat) : (c.evict n).isTerminal id ↔ n < r.used.length := by
  have hlast : id ∉ ids := by
    have hnodup := h.used_nodup
    rw [hused, List.nodup_append] at hnodup
    exact fun hid => hnodup.2.2 id hid id (List.mem_singleton_self id) rfl
  have hdropped : id ∉ ids.drop n := fun hid => hlast (List.mem_of_mem_drop hid)
  rw [← (h.evict n).mem_used_iff_isTerminal, hused, List.drop_append, List.mem_append,
    or_iff_right hdropped, List.length_append, List.length_singleton, Nat.lt_succ_iff]
  by_cases hn : n ≤ ids.length
  · simp [Nat.sub_eq_zero_of_le hn, hn]
  · have hall : [id].length ≤ n - ids.length := by
      rw [List.length_singleton]
      omega
    rw [List.drop_eq_nil_of_le hall]
    simp [hn]

end Cache

namespace Desk

variable {E : Type}

/-- What a publication evicts is the number of all entries, the published one and the pending ones
included, less the bound, but not more than there are terminal entries. The published outcome itself
is kept if fewer ids are pending than the bound allows entries. So terminal entries are evicted
according to their own number only if no other id is pending or nothing is evicted at all. -/
theorem publication_makes_room_for_pending (namespaceName : String) (bound : UInt64)
    (directory : Directory E) (outcome : Fetch → FetchOutcome E) (es : List Event) (f : Fetch)
    (hf : f ∈ ((opened namespaceName (some bound) directory).run outcome es).running)
    (hticks : (((opened namespaceName (some bound) directory).run outcome es).finish outcome f).ticks
      < UInt64.size) :
    let d := (opened namespaceName (some bound) directory).run outcome es
    let filed := d.cache.filed f.id (answerOf (outcome f))
    let published := (d.finish outcome f).cache
    let n := min filed.terminals (filed.terminals + filed.pendings - bound.toNat)
    published.terminals = filed.terminals - n ∧
    published.pendings = filed.pendings ∧
    published.stats.evictions = filed.stats.evictions + UInt64.ofNat n ∧
    (published.isTerminal f.id ↔ filed.pendings < bound.toNat) ∧
    (0 < bound → (n = filed.terminals - bound.toNat ↔
      filed.pendings = 0 ∨ filed.terminals + filed.pendings ≤ bound.toNat)) := by
  intro d filed published n
  have h : d.Recorded (some bound) _ := (opened_recorded namespaceName (some bound) directory).run es
  have hfiled : filed.Follows _ := h.filed hf hticks _
  have hpublished : published = filed.evict filed.excess := h.tracked.cache_finish hf
  have hexcess : filed.excess = filed.terminals + filed.pendings - bound.toNat := by
    have hbound : filed.bound = some bound := h.bound_eq
    rw [hfiled.terminals_eq, hfiled.pendings_eq, Nat.add_comm, hfiled.excess_eq, hbound]
    rfl
  have hevicted := hfiled.evict filed.excess
  rw [← hpublished, hexcess] at hevicted
  have hone : 0 < filed.terminals := by simp [hfiled.terminals_eq]
  refine ⟨?_, ?_, ?_, ?_, fun hbound => ?_⟩
  · rw [hevicted.terminals_eq, List.length_drop, ← hfiled.terminals_eq]
    exact Nat.sub_eq_sub_min _ _
  · rw [hevicted.pendings_eq, hfiled.pendings_eq]
  · rw [hpublished, hfiled.evictions_evict, ← hfiled.terminals_eq, hexcess, Nat.min_comm]
  · rw [hpublished, hfiled.isTerminal_evict_last rfl, ← hfiled.terminals_eq, hexcess]
    omega
  · have hbound : 0 < bound.toNat := hbound
    simp only [n]
    omega

/-- With room for one entry, the first outcome is evicted at once because another id is pending. -/
theorem published_evicted_beside_pending :
    let d := (opened "default" (some 1) namesakes).run found [.resolve "a", .resolve "b"]
    let published := (d.finish found ⟨"a", 1⟩).cache
    (d.cache.filed "a" (some "a")).terminals = 1 ∧ published.terminals = 0 ∧
    published.stats.evictions = 1 ∧ ¬ published.isTerminal "a" := by
  have hf : (⟨"a", 1⟩ : Fetch) ∈
      ((opened "default" (some 1) namesakes).run found [.resolve "a", .resolve "b"]).running := by
    decide
  obtain ⟨hterminals, -, hevictions, hkept, -⟩ := publication_makes_room_for_pending "default" 1
    namesakes found [.resolve "a", .resolve "b"] ⟨"a", 1⟩ hf (by decide)
  refine ⟨by decide, hterminals.trans (by decide), hevictions.trans (by decide), ?_⟩
  exact hkept.not.2 (by decide)

end Desk

end LedgerExplorer
