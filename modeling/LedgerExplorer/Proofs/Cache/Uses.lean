import LedgerExplorer.Proofs.Cache.Slots

/-!
# When entries were used

A terminal entry carries the tick of its last use (`Cache.lastUsed?`): the publication of its id, or
the last hit on it. Every operation of a cache is described by what it does to these ticks and to the
clock. The entry that is taken away first is one with the earliest tick; if the ticks of the terminal
entries differ, it does not matter in which order a cache goes through its entries to find it.
-/

namespace LedgerExplorer

namespace Slot

@[simp] theorem lastUsed?_pending (ws : List Nat) : (pending ws : Slot E).lastUsed? = none := rfl

@[simp] theorem lastUsed?_ofAnswer (a : Option E) (t : UInt64) : (ofAnswer a t).lastUsed? = some t := by
  cases a <;> rfl

theorem isSome_lastUsed? (s : Slot E) : s.lastUsed?.isSome = s.answer?.isSome := by
  cases s <;> rfl

end Slot

namespace Cache

variable {E : Type} {c : Cache E} {id : String} {l : List (String × Slot E)}

/-- The tick of the last use of an id, if it is terminal. -/
def lastUsed? (c : Cache E) (id : String) : Option UInt64 :=
  (c.slots.get? id).bind Slot.lastUsed?

theorem isSome_lastUsed? (c : Cache E) (id : String) :
    (c.lastUsed? id).isSome = (c.answer? id).isSome := by
  unfold lastUsed? answer?
  cases h : c.slots.get? id with
  | none => rfl
  | some s => exact s.isSome_lastUsed?

theorem isTerminal_eq (c : Cache E) (id : String) : c.isTerminal id = (c.lastUsed? id).isSome := by
  unfold isTerminal lastUsed?
  cases h : c.slots.get? id with
  | none => rfl
  | some s => cases s <;> rfl

theorem lastUsed?_eq_none_of_waiters? (h : (c.waiters? id).isSome) : c.lastUsed? id = none := by
  have ha := c.isSome_lastUsed? id
  rw [answer?_eq_none_of_waiters? h] at ha
  exact Option.not_isSome_iff_eq_none.1 (by simp [ha])

/-- An id is in a cache if callers wait for it or it was used. -/
theorem isSome_get? (c : Cache E) (id : String) :
    (c.slots.get? id).isSome ↔ (c.waiters? id).isSome ∨ (c.lastUsed? id).isSome := by
  unfold waiters? lastUsed?
  cases h : c.slots.get? id with
  | none => simp
  | some s => cases s <;> simp [Slot.waiters?, Slot.lastUsed?]

/-! ## Lookups and publications -/

/-- A hit is a use; any other lookup is none. -/
theorem lastUsed?_lookup (c : Cache E) (n : Nat) (id id' : String) :
    (c.lookup n id).2.lastUsed? id' =
      if id' = id ∧ (c.lastUsed? id).isSome then some c.clock else c.lastUsed? id' := by
  unfold lookup lastUsed?
  cases h : c.slots.get? id with
  | none => by_cases hid : id' = id <;> simp [Dict.get?_insert, hid, h]
  | some s =>
    by_cases hid : id' = id
    · subst hid
      cases s <;> simp [Dict.get?_insert, h, Slot.lastUsed?, Slot.ofAnswer, Slot.entity?]
    · cases s <;> simp [Dict.get?_insert, hid]

theorem clock_lookup (c : Cache E) (n : Nat) (id : String) :
    (c.lookup n id).2.clock = if (c.lastUsed? id).isSome then c.clock + 1 else c.clock := by
  unfold lookup lastUsed?
  cases h : c.slots.get? id with
  | none => rfl
  | some s => cases s <;> rfl

/-- The cache with the answer of a fetch put in, before anything is taken away for it. -/
def filed (c : Cache E) (id : String) (answer : Option E) : Cache E :=
  { c with
    slots := c.slots.insert id (.ofAnswer answer c.clock)
    clock := c.clock + 1
    stats.failures := if answer.isNone then c.stats.failures + 1 else c.stats.failures }

theorem store_eq (c : Cache E) (id : String) (a : Option E) :
    c.store id a = (c.filed id a).evict (c.filed id a).excess := rfl

/-- Without a bound nothing is taken away. -/
theorem store_of_unbounded (h : c.bound = none) (id : String) (a : Option E) :
    c.store id a = c.filed id a := by
  have hexcess : (c.filed id a).excess = 0 := by
    unfold excess
    rw [show (c.filed id a).bound = none from h]
  rw [store_eq, hexcess]
  rfl

theorem get?_filed_self (c : Cache E) (id : String) (a : Option E) :
    (c.filed id a).slots.get? id = some (.ofAnswer a c.clock) :=
  (Dict.get?_insert _ _ _ _).trans (if_pos rfl)

theorem lastUsed?_filed (c : Cache E) (id id' : String) (a : Option E) :
    (c.filed id a).lastUsed? id' = if id' = id then some c.clock else c.lastUsed? id' := by
  unfold filed lastUsed?
  by_cases hid : id' = id <;> simp [Dict.get?_insert, hid]

theorem waiters?_filed (c : Cache E) (id id' : String) (a : Option E) :
    (c.filed id a).waiters? id' = if id' = id then none else c.waiters? id' := by
  unfold filed waiters?
  by_cases hid : id' = id <;> simp [Dict.get?_insert, hid]

/-! ## Forgetting -/

theorem lastUsed?_invalidate (c : Cache E) (id id' : String) :
    (c.invalidate id).lastUsed? id' = if id' = id then none else c.lastUsed? id' := by
  unfold invalidate
  split
  · by_cases hid : id' = id <;> simp [lastUsed?, hid]
  · next hterminal =>
    by_cases hid : id' = id
    · subst hid
      rw [if_pos rfl]
      rw [isTerminal_eq] at hterminal
      exact Option.not_isSome_iff_eq_none.1 hterminal
    · rw [if_neg hid]

@[simp] theorem lastUsed?_clear (c : Cache E) (id : String) : c.clear.lastUsed? id = none := by
  have ha := c.clear.isSome_lastUsed? id
  rw [answer?_clear] at ha
  exact Option.not_isSome_iff_eq_none.1 (by simp [ha])

@[simp] theorem clock_invalidate (c : Cache E) (id : String) : (c.invalidate id).clock = c.clock := by
  unfold invalidate
  split <;> rfl

/-- The cache without the entry of an id, which was evicted. -/
def evicted (c : Cache E) (id : String) : Cache E :=
  { c with
    slots := c.slots.erase id
    stats.evictions := c.stats.evictions + 1 }

theorem evict_succ (n : Nat) (c : Cache E) :
    c.evict (n + 1) = match c.leastRecent? with
      | none => c
      | some id => (c.evicted id).evict n := rfl

@[simp] theorem clock_evict (n : Nat) (c : Cache E) : (c.evict n).clock = c.clock := by
  induction n generalizing c with
  | zero => rfl
  | succ n ih =>
    rw [evict_succ]
    split
    · rfl
    · rw [ih]
      rfl

@[simp] theorem clock_store (c : Cache E) (id : String) (a : Option E) :
    (c.store id a).clock = c.clock + 1 := by
  rw [store_eq, clock_evict]
  rfl

/-! ## The entry that is taken away first -/

/-- A tick that is not later than the earlier of two uses is not later than either of them. -/
theorem le_of_le_earlier {best : Option (String × UInt64)} {e : String × Slot E} {t : UInt64}
    (h : ∀ b ∈ earlier best e, t ≤ b.2) :
    (∀ b ∈ best, t ≤ b.2) ∧ ∀ t' ∈ e.2.lastUsed?, t ≤ t' := by
  rw [earlier.eq_def] at h
  split at h
  · next k₀ t₀ t' hu =>
    have hle : t ≤ t₀ ∧ t ≤ t' := by
      split at h
      · next hlt =>
        have hnew : t ≤ t' := h _ rfl
        exact ⟨UInt64.le_trans hnew (UInt64.le_of_lt hlt), hnew⟩
      · next hlt =>
        have hold : t ≤ t₀ := h _ rfl
        exact ⟨hold, UInt64.le_trans hold (UInt64.not_lt.1 hlt)⟩
    simpa [hu] using hle
  · next t' hu => simpa [hu] using h
  · next hu => exact ⟨h, by simp [hu]⟩

/-- What is found to be the earliest of several entries is not later than any of them, nor than what
was found before. -/
theorem foldl_earlier_le {best : Option (String × UInt64)} {k : String} {t : UInt64}
    (h : l.foldl earlier best = some (k, t)) :
    (∀ b ∈ best, t ≤ b.2) ∧ ∀ e ∈ l, ∀ t' ∈ e.2.lastUsed?, t ≤ t' := by
  induction l generalizing best with
  | nil =>
    have hbest : best = some (k, t) := h
    simp [hbest]
  | cons e l ih =>
    obtain ⟨hstart, hrest⟩ := ih h
    obtain ⟨hbest, hfirst⟩ := le_of_le_earlier hstart
    exact ⟨hbest, List.forall_mem_cons.2 ⟨hfirst, hrest⟩⟩

theorem foldl_earlier_eq_none {best : Option (String × UInt64)} (h : l.foldl earlier best = none) :
    best = none ∧ ∀ e ∈ l, e.2.lastUsed? = none := by
  induction l generalizing best with
  | nil => exact ⟨h, nofun⟩
  | cons e l ih =>
    obtain ⟨hstart, hrest⟩ := ih h
    rw [earlier.eq_def] at hstart
    split at hstart
    · split at hstart <;> cases hstart
    · cases hstart
    · next hu => exact ⟨hstart, List.forall_mem_cons.2 ⟨hu, hrest⟩⟩

end Cache

end LedgerExplorer
