import LedgerExplorer.Cache.Resolver

/-!
# The entries of a cache, operation by operation

An entry is seen in two ways: by the callers that wait for it while it is pending (`Cache.waiters?`)
and by its answer once it is terminal (`Cache.answer?`). Every operation of a cache and of a resolver
is described by what it does to these two. Evictions never touch a pending entry, and what they leave
of a terminal one is what it was.
-/

namespace LedgerExplorer

namespace Slot

/-- The callers that wait for a pending slot. -/
def waiters? : Slot E → Option (List Nat)
  | pending ws => some ws
  | _ => none

/-- The answer of a terminal slot. -/
def answer? : Slot E → Option (Option E)
  | pending _ => none
  | resolved e _ => some (some e)
  | failed _ => some none

@[simp] theorem waiters?_pending (ws : List Nat) : (pending ws : Slot E).waiters? = some ws := rfl

@[simp] theorem answer?_pending (ws : List Nat) : (pending ws : Slot E).answer? = none := rfl

@[simp] theorem waiters?_ofAnswer (a : Option E) (t : UInt64) : (ofAnswer a t).waiters? = none := by
  cases a <;> rfl

@[simp] theorem answer?_ofAnswer (a : Option E) (t : UInt64) : (ofAnswer a t).answer? = some a := by
  cases a <;> rfl

@[simp] theorem waiters?_resolved (e : E) (t : UInt64) : (resolved e t).waiters? = none := rfl

@[simp] theorem answer?_resolved (e : E) (t : UInt64) : (resolved e t).answer? = some (some e) := rfl

@[simp] theorem waiters?_failed (t : UInt64) : (failed t : Slot E).waiters? = none := rfl

@[simp] theorem answer?_failed (t : UInt64) : (failed t : Slot E).answer? = some none := rfl

theorem waiters?_eq_none_of_lastUsed? {s : Slot E} {t : UInt64} (h : s.lastUsed? = some t) :
    s.waiters? = none := by
  cases s with
  | pending ws => cases h
  | resolved e t => rfl
  | failed t => rfl

theorem isPending_eq (s : Slot E) : s.isPending = s.waiters?.isSome := by
  cases s <;> rfl

end Slot

namespace Cache

variable {E : Type} {c : Cache E} {id : String}

/-- The callers that wait for an id, if it is pending. -/
def waiters? (c : Cache E) (id : String) : Option (List Nat) :=
  (c.slots.get? id).bind Slot.waiters?

/-- The answer that a lookup of an id meets, if it is terminal. -/
def answer? (c : Cache E) (id : String) : Option (Option E) :=
  (c.slots.get? id).bind Slot.answer?

theorem waiters?_eq_some_iff {ws : List Nat} :
    c.waiters? id = some ws ↔ c.slots.get? id = some (.pending ws) := by
  unfold waiters?
  cases h : c.slots.get? id with
  | none => simp
  | some s => cases s <;> simp [Slot.waiters?]

theorem state?_eq_pending_iff : c.state? id = some .pending ↔ (c.waiters? id).isSome := by
  unfold state? waiters?
  cases h : c.slots.get? id with
  | none => simp
  | some s => cases s <;> simp [Slot.waiters?, Slot.state]

theorem state?_eq_none_iff : c.state? id = none ↔ c.answer? id = none ∧ c.waiters? id = none := by
  unfold state? answer? waiters?
  cases h : c.slots.get? id with
  | none => simp
  | some s => cases s <;> simp [Slot.answer?, Slot.waiters?]

theorem get?_eq_some_iff {e : E} : c.get? id = some e ↔ c.answer? id = some (some e) := by
  unfold get? answer?
  cases h : c.slots.get? id with
  | none => simp
  | some s => cases s <;> simp [Slot.answer?, Slot.entity?]

theorem answer?_eq_none_of_waiters? (h : (c.waiters? id).isSome) : c.answer? id = none := by
  obtain ⟨ws, hws⟩ := Option.isSome_iff_exists.1 h
  simp [answer?, waiters?_eq_some_iff.1 hws, Slot.answer?]

theorem waiters?_eq_none_of_answer? {a : Option E} (h : c.answer? id = some a) :
    c.waiters? id = none := by
  refine Option.not_isSome_iff_eq_none.1 fun hw => ?_
  rw [answer?_eq_none_of_waiters? hw] at h
  cases h

/-! ## Lookups -/

theorem lookup_fst (c : Cache E) (n : Nat) (id : String) :
    (c.lookup n id).1 = match c.answer? id with
      | some a => .hit a
      | none => if (c.waiters? id).isSome then .coalesced else .miss := by
  unfold lookup answer? waiters?
  cases h : c.slots.get? id with
  | none => rfl
  | some s => cases s <;> rfl

/-- A lookup that is not a hit leaves the caller among those that wait for the id. -/
theorem waiters?_lookup (c : Cache E) (n : Nat) (id id' : String) :
    (c.lookup n id).2.waiters? id' =
      if id' = id ∧ c.answer? id = none then some ((c.waiters? id).getD [] ++ [n])
      else c.waiters? id' := by
  unfold lookup answer? waiters?
  cases h : c.slots.get? id with
  | none => by_cases hid : id' = id <;> simp [Dict.get?_insert, hid]
  | some s =>
    by_cases hid : id' = id
    · subst hid
      cases s with
      | pending ws => simp [Dict.get?_insert]
      | resolved e t => simp [Dict.get?_insert, h]
      | failed t => simp [Dict.get?_insert, h]
    · cases s <;> simp [Dict.get?_insert, hid]

theorem answer?_lookup (c : Cache E) (n : Nat) (id id' : String) :
    (c.lookup n id).2.answer? id' = c.answer? id' := by
  unfold lookup answer?
  cases h : c.slots.get? id with
  | none => by_cases hid : id' = id <;> simp [Dict.get?_insert, hid, h]
  | some s =>
    by_cases hid : id' = id
    · subst hid
      cases s <;> simp [Dict.get?_insert, h, Slot.entity?]
    · cases s <;> simp [Dict.get?_insert, hid]

theorem namespaceName_lookup (c : Cache E) (n : Nat) (id : String) :
    (c.lookup n id).2.namespaceName = c.namespaceName := by
  unfold lookup
  split <;> rfl

/-! ## Evictions -/

/-- The earlier used one of several entries is the one to begin with or one of the entries. -/
theorem foldl_earlier_mem {l : List (String × Slot E)} {best : Option (String × UInt64)}
    {k : String} {t : UInt64} (h : l.foldl earlier best = some (k, t)) :
    best = some (k, t) ∨ ∃ s, (k, s) ∈ l ∧ s.lastUsed? = some t := by
  induction l generalizing best with
  | nil => exact .inl h
  | cons e l ih =>
    rcases ih h with hbest | ⟨s, hs, ht⟩
    · rw [earlier.eq_def] at hbest
      split at hbest
      · next k₀ t₀ t' hu =>
        split at hbest
        · cases hbest; exact .inr ⟨e.2, List.mem_cons_self, hu⟩
        · exact .inl hbest
      · next t' hu => cases hbest; exact .inr ⟨e.2, List.mem_cons_self, hu⟩
      · exact .inl hbest
    · exact .inr ⟨s, List.mem_cons_of_mem _ hs, ht⟩

/-- Only entries that were used are candidates for eviction. -/
theorem exists_slot_of_leastRecent? (h : c.leastRecent? = some id) :
    ∃ s t, c.slots.get? id = some s ∧ s.lastUsed? = some t := by
  unfold leastRecent? at h
  obtain ⟨⟨k, t⟩, hfold, rfl⟩ := Option.map_eq_some_iff.1 h
  rcases foldl_earlier_mem hfold with hbest | ⟨s, hs, ht⟩
  · cases hbest
  · exact ⟨s, t, Dict.mem_entries.1 hs, ht⟩

theorem waiters?_leastRecent? (h : c.leastRecent? = some id) : c.waiters? id = none := by
  obtain ⟨s, t, hs, ht⟩ := exists_slot_of_leastRecent? h
  rw [waiters?, hs]
  exact Slot.waiters?_eq_none_of_lastUsed? ht

@[simp] theorem waiters?_evict (n : Nat) (c : Cache E) (id : String) :
    (c.evict n).waiters? id = c.waiters? id := by
  induction n generalizing c with
  | zero => rfl
  | succ n ih =>
    simp only [evict]
    split
    · rfl
    · next victim hvictim =>
      rw [ih]
      by_cases hid : id = victim
      · subst hid
        rw [waiters?_leastRecent? hvictim]
        simp [waiters?]
      · simp [waiters?, hid]

/-- What an eviction leaves of an entry is what it was. -/
theorem answer?_evict (n : Nat) (c : Cache E) (id : String) :
    (c.evict n).answer? id = c.answer? id ∨ (c.evict n).answer? id = none := by
  induction n generalizing c with
  | zero => exact .inl rfl
  | succ n ih =>
    simp only [evict]
    split
    · exact .inl rfl
    · next victim _ =>
      rcases ih { c with
          slots := c.slots.erase victim
          stats.evictions := c.stats.evictions + 1 } with hkept | hgone
      · rw [hkept]
        by_cases hid : id = victim <;> simp [answer?, hid]
      · exact .inr hgone

/-! ## Publications -/

theorem waiters?_store (c : Cache E) (id id' : String) (a : Option E) :
    (c.store id a).waiters? id' = if id' = id then none else c.waiters? id' := by
  unfold store
  rw [waiters?_evict]
  by_cases hid : id' = id <;> simp [waiters?, Dict.get?_insert, hid]

theorem answer?_store (c : Cache E) (id id' : String) (a : Option E) :
    (c.store id a).answer? id' = (if id' = id then some a else c.answer? id') ∨
      (c.store id a).answer? id' = none := by
  unfold store
  refine (answer?_evict _ _ _).imp_left fun h => h.trans ?_
  by_cases hid : id' = id <;> simp [answer?, Dict.get?_insert, hid]

/-- An answer that is there after a publication is the published one or was there before. -/
theorem answer?_of_store {id' : String} {a b : Option E} (h : (c.store id a).answer? id' = some b) :
    id' = id ∧ b = a ∨ c.answer? id' = some b := by
  rcases c.answer?_store id id' a with hkept | hgone
  · rw [hkept] at h
    by_cases hid : id' = id
    · rw [if_pos hid] at h
      exact .inl ⟨hid, (Option.some.inj h).symm⟩
    · rw [if_neg hid] at h
      exact .inr h
  · rw [hgone] at h
    cases h

theorem publish_of_waiters? {ws : List Nat} (h : c.waiters? id = some ws) (a : Option E) :
    c.publish id a = (ws, c.store id a) := by
  simp [publish, waiters?_eq_some_iff.1 h]

/-- Whatever a publication meets, nobody waits for its id afterwards, and other ids are left alone. -/
theorem waiters?_publish (c : Cache E) (id id' : String) (a : Option E) :
    (c.publish id a).2.waiters? id' = if id' = id then none else c.waiters? id' := by
  unfold publish
  split
  · exact waiters?_store c id id' a
  · next s hnot hs =>
    by_cases hid : id' = id
    · subst hid
      rw [if_pos rfl]
      cases s with
      | pending ws => exact (hnot ws rfl).elim
      | resolved e t => simp [waiters?, hs]
      | failed t => simp [waiters?, hs]
    · rw [if_neg hid]
  · exact waiters?_store c id id' a

/-! ## Forgetting -/

@[simp] theorem waiters?_invalidate (c : Cache E) (id id' : String) :
    (c.invalidate id).waiters? id' = c.waiters? id' := by
  unfold invalidate
  split
  · next hterminal =>
    by_cases hid : id' = id
    · subst hid
      cases h : c.slots.get? id' with
      | none => simp [isTerminal, h] at hterminal
      | some s =>
        have hs : s.waiters? = none := by simpa [isTerminal, h, Slot.isPending_eq] using hterminal
        simp [waiters?, h, hs]
    · simp [waiters?, hid]
  · rfl

theorem answer?_invalidate (c : Cache E) (id id' : String) :
    (c.invalidate id).answer? id' = if id' = id then none else c.answer? id' := by
  unfold invalidate
  split
  · by_cases hid : id' = id <;> simp [answer?, hid]
  · next hterminal =>
    by_cases hid : id' = id
    · subst hid
      rw [if_pos rfl]
      cases h : c.slots.get? id' with
      | none => simp [answer?, h]
      | some s =>
        have hs : s.isPending := by simpa [isTerminal, h] using hterminal
        cases s with
        | pending ws => simp [answer?, h]
        | resolved e t => cases hs
        | failed t => cases hs
    · rw [if_neg hid]

theorem answer?_of_invalidate {id' : String} {a : Option E}
    (h : (c.invalidate id).answer? id' = some a) : c.answer? id' = some a := by
  rw [answer?_invalidate] at h
  split at h
  · cases h
  · exact h

@[simp] theorem waiters?_clear (c : Cache E) (id : String) : c.clear.waiters? id = c.waiters? id := by
  unfold clear waiters?
  rw [Dict.get?_filter]
  cases h : c.slots.get? id with
  | none => rfl
  | some s => cases s <;> rfl

@[simp] theorem answer?_clear (c : Cache E) (id : String) : c.clear.answer? id = none := by
  unfold clear answer?
  rw [Dict.get?_filter]
  cases h : c.slots.get? id with
  | none => rfl
  | some s => cases s <;> rfl

end Cache

namespace Resolver

variable {E : Type} {r : Resolver E} {id : String}

theorem resolve_fst (r : Resolver E) (n : Nat) (id : String) :
    (r.resolve n id).1 = (r.cache.lookup n id).1 := by
  unfold resolve
  split <;> simp [*]

theorem cache_resolve (r : Resolver E) (n : Nat) (id : String) :
    (r.resolve n id).2.cache = (r.cache.lookup n id).2 := by
  unfold resolve
  split <;> simp [*]

/-- A fetch starts exactly for an id without an entry. -/
theorem inFlight_resolve (r : Resolver E) (n : Nat) (id : String) :
    (r.resolve n id).2.inFlight =
      if r.cache.answer? id = none ∧ r.cache.waiters? id = none then r.inFlight ++ [id]
      else r.inFlight := by
  have hfound := r.cache.lookup_fst n id
  unfold resolve
  split <;> rename_i hlookup <;> rw [hlookup] at hfound <;>
    cases ha : r.cache.answer? id <;> cases hw : r.cache.waiters? id <;> simp_all

theorem conclude_of_waiters? {ws : List Nat} (h : r.cache.waiters? id = some ws)
    (o : FetchOutcome E) :
    r.conclude id o = (ws, answerOf o, { r with
      cache := r.cache.store id (answerOf o)
      inFlight := r.inFlight.erase id
      log := r.log ++
        [.resolution (r.cache.store id (answerOf o)).namespaceName (.ofOutcome o)] }) := by
  simp [conclude, Cache.publish_of_waiters? h]

end Resolver

end LedgerExplorer
