import LedgerExplorer.Proofs.Cache.Uses
import Mathlib.Data.Finset.Card
import Mathlib.Data.List.Perm.Basic

/-!
# Recency

Without ticks, a cache is a set of pending ids and a list of terminal ones in the order in which they
were last used: a use moves an id to the end of the list, and a publication takes ids away from its
front while there are too many entries. A cache whose clock does not run out does just that
(`Cache.Follows`), whatever order it goes through its entries in.
-/

namespace LedgerExplorer

/-- The entries of a cache without what is in them. -/
structure Recency where
  pending : Finset String := ∅
  /-- The terminal ids in the order of their last use, the least recent one first. -/
  used : List String := []
  deriving DecidableEq

namespace Recency

inductive Op
  | ask (id : String)
  | publish (id : String)
  | invalidate (id : String)
  | clear
  deriving DecidableEq, Repr

def size (r : Recency) : Nat := r.pending.card + r.used.length

/-- Takes ids away from the front while there are more entries than the bound allows. -/
def trim (bound : Option UInt64) (pending : Nat) : List String → List String
  | [] => []
  | id :: ids =>
    if bound.any fun n => n.toNat < pending + (ids.length + 1) then trim bound pending ids
    else id :: ids

/-- An id that is asked for is used if it is terminal, and pending otherwise. -/
def step (bound : Option UInt64) (r : Recency) : Op → Recency
  | .ask id =>
    if id ∈ r.used then { r with used := r.used.erase id ++ [id] }
    else { r with pending := insert id r.pending }
  | .publish id =>
    let pending := r.pending.erase id
    { pending, used := trim bound pending.card (r.used ++ [id]) }
  | .invalidate id => { r with used := r.used.erase id }
  | .clear => { r with used := [] }

def run (bound : Option UInt64) (r : Recency) (ops : List Op) : Recency :=
  ops.foldl (step bound) r

def excess (bound : Option UInt64) (n : Nat) : Nat :=
  match bound with
  | some b => n - b.toNat
  | none => 0

theorem trim_eq_drop (bound : Option UInt64) (pending : Nat) (ids : List String) :
    trim bound pending ids = ids.drop (excess bound (pending + ids.length)) := by
  induction ids with
  | nil => simp [trim]
  | cons id ids ih =>
    unfold trim
    cases bound with
    | none => simp [excess]
    | some b =>
      simp only [Option.any_some, decide_eq_true_eq, excess, List.length_cons] at ih ⊢
      split
      · next hlt =>
        have hsucc : pending + (ids.length + 1) - b.toNat = pending + ids.length - b.toNat + 1 := by
          omega
        rw [ih, hsucc, List.drop_succ_cons]
      · next hle =>
        rw [Nat.sub_eq_zero_of_le (Nat.not_lt.1 hle), List.drop_zero]

end Recency

namespace Cache

variable {E : Type} {c c' : Cache E} {r : Recency} {id : String}

/-- Both ids are terminal, and the first was used before the second. -/
def UsedBefore (c : Cache E) (a b : String) : Prop :=
  ∃ s ∈ c.lastUsed? a, ∃ t ∈ c.lastUsed? b, s < t

/-- A cache has the recorded pending ids, and its terminal ids in the recorded order of their last
uses, which all lie before the tick of the clock. -/
structure Follows (c : Cache E) (r : Recency) : Prop where
  mem_pending : ∀ id, id ∈ r.pending ↔ (c.waiters? id).isSome
  mem_used : ∀ id, id ∈ r.used ↔ (c.lastUsed? id).isSome
  used_before : r.used.Pairwise c.UsedBefore
  lt_clock : ∀ id, ∀ t ∈ c.lastUsed? id, t < c.clock

theorem empty_follows (namespaceName : String) (bound : Option UInt64) :
    ({ namespaceName, bound } : Cache E).Follows {} where
  mem_pending id := by simp [waiters?]
  mem_used id := by simp [lastUsed?]
  used_before := .nil
  lt_clock id := by simp [lastUsed?]

theorem Follows.mem_used_iff_isTerminal (h : c.Follows r) : id ∈ r.used ↔ c.isTerminal id = true := by
  rw [h.mem_used, isTerminal_eq]

theorem Follows.mem_pending_iff_state? (h : c.Follows r) :
    id ∈ r.pending ↔ c.state? id = some .pending := by
  rw [h.mem_pending, state?_eq_pending_iff]

/-- Different terminal ids were used at different ticks. -/
theorem Follows.nodup_lastUsed? (h : c.Follows r) : (r.used.map c.lastUsed?).Nodup := by
  refine List.pairwise_map.2 (h.used_before.imp ?_)
  rintro a b ⟨s, hs, t, ht, hlt⟩ heq
  cases hs.symm.trans (heq.trans ht)
  exact UInt64.lt_irrefl s hlt

theorem Follows.used_nodup (h : c.Follows r) : r.used.Nodup := h.nodup_lastUsed?.of_map

theorem Follows.eq_of_lastUsed? (h : c.Follows r) {a b : String} {t : UInt64}
    (ha : c.lastUsed? a = some t) (hb : c.lastUsed? b = some t) : a = b := by
  have hmem {id : String} (hid : c.lastUsed? id = some t) : id ∈ r.used :=
    (h.mem_used id).2 (by simp [hid])
  exact List.inj_on_of_nodup_map h.nodup_lastUsed? (hmem ha) (hmem hb) (ha.trans hb.symm)

theorem Follows.not_mem_used (h : c.Follows r) (hid : id ∈ r.pending) : id ∉ r.used := by
  rw [h.mem_used, lastUsed?_eq_none_of_waiters? ((h.mem_pending id).1 hid)]
  simp

theorem Follows.keys_perm (h : c.Follows r) : c.slots.keys.Perm (r.pending.toList ++ r.used) := by
  refine (List.perm_ext_iff_of_nodup c.slots.nodup_keys ?_).2 fun id => ?_
  · refine List.nodup_append.2 ⟨r.pending.nodup_toList, h.used_nodup, ?_⟩
    rintro a ha b hb rfl
    exact h.not_mem_used (Finset.mem_toList.1 ha) hb
  · rw [Dict.mem_keys, isSome_get?, List.mem_append, Finset.mem_toList, h.mem_pending, h.mem_used]

theorem Follows.size_eq (h : c.Follows r) : c.size = r.size := by
  have hlength := h.keys_perm.length_eq
  rwa [Dict.keys, List.length_map, List.length_append, Finset.length_toList] at hlength

/-! ## Uses -/

/-- A use gives an id the tick of the clock, which goes on, and moves it to the end. -/
theorem Follows.use (h : c.Follows r) (hclock : c.clock.toNat + 1 < UInt64.size)
    {pending : Finset String} (hw : ∀ id', id' ∈ pending ↔ (c'.waiters? id').isSome)
    (hu : ∀ id', c'.lastUsed? id' = if id' = id then some c.clock else c.lastUsed? id')
    (hnext : c'.clock = c.clock + 1) : c'.Follows ⟨pending, r.used.erase id ++ [id]⟩ := by
  have hlt : c.clock < c.clock + 1 := by
    rw [UInt64.lt_iff_toNat_lt, UInt64.toNat_add, UInt64.toNat_one, Nat.mod_eq_of_lt hclock]
    exact Nat.lt_succ_self _
  have hold {a : String} (ha : a ∈ r.used.erase id) :
      c'.lastUsed? a = c.lastUsed? a ∧ (c.lastUsed? a).isSome := by
    obtain ⟨hne, hmem⟩ := h.used_nodup.mem_erase_iff.1 ha
    exact ⟨by rw [hu, if_neg hne], (h.mem_used a).1 hmem⟩
  constructor
  · exact hw
  · intro a
    rw [hu, List.mem_append, List.mem_singleton, h.used_nodup.mem_erase_iff, h.mem_used]
    by_cases hid : a = id <;> simp [hid]
  · refine List.pairwise_append.2 ⟨?_, List.pairwise_singleton _ _, ?_⟩
    · refine (h.used_before.sublist List.erase_sublist).imp_of_mem ?_
      rintro a b ha hb ⟨s, hs, t, ht, hst⟩
      exact ⟨s, (hold ha).1 ▸ hs, t, (hold hb).1 ▸ ht, hst⟩
    · intro a ha b hb
      cases List.mem_singleton.1 hb
      obtain ⟨s, hs⟩ := Option.isSome_iff_exists.1 (hold ha).2
      refine ⟨s, (hold ha).1 ▸ hs, c.clock, ?_, h.lt_clock a s hs⟩
      rw [hu, if_pos rfl]
      rfl
  · intro a t ht
    rw [hnext]
    rw [hu] at ht
    split at ht
    · cases ht
      exact hlt
    · exact UInt64.lt_trans (h.lt_clock a t ht) hlt

/-- A lookup of a terminal id is a use; one of any other id leaves the order alone. -/
theorem Follows.lookup (h : c.Follows r) (bound : Option UInt64) (n : Nat) (id : String)
    (hclock : (c.lastUsed? id).isSome → c.clock.toNat + 1 < UInt64.size) :
    (c.lookup n id).2.Follows (r.step bound (.ask id)) := by
  have hanswer := c.isSome_lastUsed? id
  simp only [Recency.step]
  by_cases hused : id ∈ r.used
  · have hsome := (h.mem_used id).1 hused
    have hne : c.answer? id ≠ none := Option.isSome_iff_ne_none.1 (hanswer ▸ hsome)
    rw [if_pos hused]
    refine h.use (hclock hsome) (fun id' => ?_) (fun id' => ?_) ?_
    · simp [waiters?_lookup, hne, h.mem_pending]
    · simp [lastUsed?_lookup, hsome]
    · simp [clock_lookup, hsome]
  · have hnone : c.lastUsed? id = none :=
      Option.not_isSome_iff_eq_none.1 ((h.mem_used id).not.1 hused)
    have hanswer : c.answer? id = none :=
      Option.not_isSome_iff_eq_none.1 (by simp [← hanswer, hnone])
    have hsame (a : String) : (c.lookup n id).2.lastUsed? a = c.lastUsed? a := by
      simp [lastUsed?_lookup, hnone]
    rw [if_neg hused]
    constructor
    · intro a
      rw [Finset.mem_insert, waiters?_lookup, h.mem_pending]
      by_cases hid : a = id <;> simp [hid, hanswer]
    · intro a
      rw [hsame, h.mem_used]
    · have hbefore : (c.lookup n id).2.UsedBefore = c.UsedBefore := by
        funext a b
        simp only [UsedBefore, hsame]
      rw [hbefore]
      exact h.used_before
    · intro a t ht
      rw [hsame] at ht
      simpa [clock_lookup, hnone] using h.lt_clock a t ht

theorem Follows.filed (h : c.Follows r) (hclock : c.clock.toNat + 1 < UInt64.size)
    (hid : id ∈ r.pending) (a : Option E) :
    (c.filed id a).Follows ⟨r.pending.erase id, r.used ++ [id]⟩ := by
  rw [← List.erase_of_not_mem (h.not_mem_used hid)]
  refine h.use hclock (fun id' => ?_) (c.lastUsed?_filed id · a) rfl
  rw [Finset.mem_erase, waiters?_filed, h.mem_pending]
  by_cases hid' : id' = id <;> simp [hid']

/-! ## Forgetting -/

/-- Forgetting terminal ids keeps the others in their order. -/
theorem Follows.forget (h : c.Follows r) {kept : List String} (hkept : kept.Sublist r.used)
    (hw : ∀ id, c'.waiters? id = c.waiters? id)
    (hu : ∀ id, c'.lastUsed? id = if id ∈ kept then c.lastUsed? id else none)
    (hclock : c'.clock = c.clock) : c'.Follows { r with used := kept } := by
  constructor
  · intro id
    rw [hw]
    exact h.mem_pending id
  · intro id
    rw [hu]
    by_cases hid : id ∈ kept
    · simpa [hid] using (h.mem_used id).1 (hkept.subset hid)
    · simp [hid]
  · refine (h.used_before.sublist hkept).imp_of_mem ?_
    rintro a b ha hb ⟨s, hs, t, ht, hst⟩
    exact ⟨s, by rwa [hu, if_pos ha], t, by rwa [hu, if_pos hb], hst⟩
  · intro id t ht
    rw [hu] at ht
    split at ht
    · rw [hclock]
      exact h.lt_clock id t ht
    · cases ht

theorem Follows.mem_erase_used (h : c.Follows r) (id' : String) :
    (if id' = id then none else c.lastUsed? id') =
      if id' ∈ r.used.erase id then c.lastUsed? id' else none := by
  by_cases hid : id' = id
  · simp [hid, h.used_nodup.mem_erase_iff]
  · by_cases hused : id' ∈ r.used
    · simp [hid, hused, h.used_nodup.mem_erase_iff]
    · have hnone := (h.mem_used id').not.1 hused
      simpa [hid, hused, h.used_nodup.mem_erase_iff] using hnone

theorem Follows.invalidate (h : c.Follows r) (bound : Option UInt64) (id : String) :
    (c.invalidate id).Follows (r.step bound (.invalidate id)) := by
  refine h.forget List.erase_sublist (c.waiters?_invalidate id) (fun id' => ?_) (c.clock_invalidate id)
  rw [lastUsed?_invalidate, h.mem_erase_used]

theorem Follows.clear (h : c.Follows r) (bound : Option UInt64) :
    c.clear.Follows (r.step bound .clear) :=
  h.forget (List.nil_sublist _) c.waiters?_clear (by simp) rfl

/-- The least recently used id of a record is the earliest one in any listing of the entries. -/
theorem Follows.earliest_eq (h : c.Follows r) {l : List (String × Slot E)}
    (hl : l.Perm c.slots.entries) : (l.foldl earlier none).map Prod.fst = r.used.head? := by
  have hentry {k : String} {s : Slot E} : (k, s) ∈ l ↔ c.slots.get? k = some s :=
    hl.mem_iff.trans Dict.mem_entries
  have hslot {k : String} {t : UInt64} (ht : c.lastUsed? k = some t) :
      ∃ s, (k, s) ∈ l ∧ s.lastUsed? = some t := by
    obtain ⟨s, hs, ht⟩ := Option.bind_eq_some_iff.1 ht
    exact ⟨s, hentry.2 hs, ht⟩
  cases hfold : l.foldl earlier none with
  | none =>
    have hnone := (foldl_earlier_eq_none hfold).2
    cases hused : r.used with
    | nil => rfl
    | cons a rest =>
      obtain ⟨t, ht⟩ := Option.isSome_iff_exists.1 ((h.mem_used a).1 (by simp [hused]))
      obtain ⟨s, hs, hst⟩ := hslot ht
      cases (hnone _ hs).symm.trans hst
  | some e =>
    obtain ⟨k, t⟩ := e
    have hk : c.lastUsed? k = some t := by
      rcases foldl_earlier_mem hfold with hbest | ⟨s, hs, ht⟩
      · cases hbest
      · simp [lastUsed?, hentry.1 hs, ht]
    have hle {a : String} {s : UInt64} (ha : c.lastUsed? a = some s) : t ≤ s := by
      obtain ⟨slot, hslot, hs⟩ := hslot ha
      exact (foldl_earlier_le hfold).2 _ hslot s hs
    have hmem := (h.mem_used k).2 (by simp [hk])
    cases hused : r.used with
    | nil => simp [hused] at hmem
    | cons a rest =>
      have hbefore := h.used_before
      rw [hused] at hbefore hmem
      rcases List.mem_cons.1 hmem with rfl | hlater
      · rfl
      · obtain ⟨s, hs, t', ht', hlt⟩ := (List.pairwise_cons.1 hbefore).1 k hlater
        cases hk.symm.trans ht'
        exact absurd (hle hs) (UInt64.not_le.2 hlt)

theorem Follows.evicted (h : c.Follows r) {ids : List String} (hused : r.used = id :: ids) :
    (c.evicted id).Follows { r with used := ids } := by
  have hids : ids = r.used.erase id := by simp [hused]
  have hsome := (h.mem_used id).1 (by simp [hused])
  refine h.forget (by simp [hused]) (fun id' => ?_) (fun id' => ?_) rfl
  · by_cases hid : id' = id
    · subst hid
      have hnone : c.waiters? id' = none := by
        refine Option.not_isSome_iff_eq_none.1 fun hw => ?_
        simp [lastUsed?_eq_none_of_waiters? hw] at hsome
      rw [hnone]
      simp [Cache.evicted, waiters?]
    · simp [Cache.evicted, waiters?, hid]
  · rw [hids, ← h.mem_erase_used]
    by_cases hid : id' = id <;> simp [Cache.evicted, lastUsed?, hid]

/-- Evictions take ids away from the front. -/
theorem Follows.evict (h : c.Follows r) (n : Nat) :
    (c.evict n).Follows { r with used := r.used.drop n } := by
  induction n generalizing c r with
  | zero => exact h
  | succ n ih =>
    have hfirst : c.leastRecent? = r.used.head? := h.earliest_eq (.refl _)
    rw [evict_succ, hfirst]
    obtain ⟨pending, used⟩ := r
    cases used with
    | nil => exact h
    | cons id ids => exact ih (h.evicted rfl)

/-- Evictions by a cache that goes through its entries in an order of its own. -/
def evictBy (listing : Dict (Slot E) → List (String × Slot E)) : Nat → Cache E → Cache E
  | 0, c => c
  | n + 1, c =>
    match ((listing c.slots).foldl earlier none).map Prod.fst with
    | none => c
    | some id => (c.evicted id).evictBy listing n

theorem Follows.evictBy_eq (h : c.Follows r) {listing : Dict (Slot E) → List (String × Slot E)}
    (hlisting : ∀ d, (listing d).Perm d.entries) (n : Nat) : c.evictBy listing n = c.evict n := by
  induction n generalizing c r with
  | zero => rfl
  | succ n ih =>
    have hfirst : c.leastRecent? = r.used.head? := h.earliest_eq (.refl _)
    rw [evictBy, evict_succ, hfirst, h.earliest_eq (hlisting _)]
    cases hused : r.used with
    | nil => rfl
    | cons id ids => exact ih (h.evicted hused)

theorem Follows.excess_eq (h : c.Follows r) : c.excess = Recency.excess c.bound r.size := by
  unfold Cache.excess Recency.excess
  rw [← h.size_eq]
  rfl

/-- A publication is a use, after which ids are taken away from the front. -/
theorem Follows.store (h : c.Follows r) (hclock : c.clock.toNat + 1 < UInt64.size)
    (hid : id ∈ r.pending) (a : Option E) :
    (c.store id a).Follows (r.step c.bound (.publish id)) := by
  have hfiled := h.filed hclock hid a
  have hevicted := hfiled.evict (c.filed id a).excess
  rw [hfiled.excess_eq] at hevicted
  rw [store_eq, hfiled.excess_eq]
  simp only [Recency.step, Recency.trim_eq_drop]
  exact hevicted

end Cache

end LedgerExplorer
