import LedgerExplorer.Proofs.Cache.Desk

/-!
# One fetch at a time

The fetches that a resolver has under way are those of its pending ids, one for each
(`Resolver.SingleFlight`). Looking up, concluding a fetch, invalidating and clearing keep it so,
whatever is evicted on the way.
-/

namespace LedgerExplorer

namespace Resolver

variable {E : Type} {r : Resolver E}

/-- The fetches under way are those of the pending ids, one for each. -/
structure SingleFlight (r : Resolver E) : Prop where
  nodup : r.inFlight.Nodup
  mem_iff : ∀ id, id ∈ r.inFlight ↔ (r.cache.waiters? id).isSome

theorem empty_singleFlight (namespaceName : String) (bound : Option UInt64)
    (directory : Directory E) :
    ({ cache := { namespaceName, bound }, directory } : Resolver E).SingleFlight where
  nodup := .nil
  mem_iff id := by simp [Cache.waiters?]

theorem SingleFlight.count_inFlight (h : r.SingleFlight) (id : String) :
    r.inFlight.count id = if (r.cache.waiters? id).isSome then 1 else 0 := by
  split
  · next hp => exact List.count_eq_one_of_mem h.nodup ((h.mem_iff id).2 hp)
  · next hp => exact List.count_eq_zero.2 fun hmem => hp ((h.mem_iff id).1 hmem)

theorem SingleFlight.resolve (h : r.SingleFlight) (n : Nat) (id : String) :
    (r.resolve n id).2.SingleFlight := by
  by_cases hmiss : r.cache.answer? id = none ∧ r.cache.waiters? id = none
  · have hnew : id ∉ r.inFlight := fun hmem => by simpa [hmiss.2] using (h.mem_iff id).1 hmem
    refine ⟨?_, fun id' => ?_⟩
    · rw [inFlight_resolve, if_pos hmiss]
      exact List.Nodup.append h.nodup (List.nodup_singleton id) (by simpa using hnew)
    · rw [inFlight_resolve, if_pos hmiss, cache_resolve, Cache.waiters?_lookup]
      by_cases hid : id' = id
      · simp [hid, hmiss.1]
      · simp [hid, h.mem_iff]
  · refine ⟨by rw [inFlight_resolve, if_neg hmiss]; exact h.nodup, fun id' => ?_⟩
    rw [inFlight_resolve, if_neg hmiss, cache_resolve, Cache.waiters?_lookup, h.mem_iff]
    by_cases hwait : id' = id ∧ r.cache.answer? id = none
    · obtain ⟨rfl, ha⟩ := hwait
      have hpending : r.cache.waiters? id' ≠ none := fun hw => hmiss ⟨ha, hw⟩
      simp [ha, Option.isSome_iff_ne_none, hpending]
    · rw [if_neg hwait]

theorem SingleFlight.conclude (h : r.SingleFlight) (id : String) (o : FetchOutcome E) :
    (r.conclude id o).2.2.SingleFlight where
  nodup := h.nodup.erase id
  mem_iff id' := by
    change id' ∈ r.inFlight.erase id ↔ ((r.cache.publish id (answerOf o)).2.waiters? id').isSome
    rw [h.nodup.mem_erase_iff, Cache.waiters?_publish, h.mem_iff]
    by_cases hid : id' = id <;> simp [hid]

theorem SingleFlight.invalidate (h : r.SingleFlight) (id : String) :
    (r.invalidate id).SingleFlight where
  nodup := h.nodup
  mem_iff id' := by
    change id' ∈ r.inFlight ↔ ((r.cache.invalidate id).waiters? id').isSome
    rw [h.mem_iff, Cache.waiters?_invalidate]

theorem SingleFlight.clear (h : r.SingleFlight) : r.clear.SingleFlight where
  nodup := h.nodup
  mem_iff id := by
    change id ∈ r.inFlight ↔ (r.cache.clear.waiters? id).isSome
    rw [h.mem_iff, Cache.waiters?_clear]

end Resolver

namespace Desk

variable {E : Type} {outcome : Fetch → FetchOutcome E} {d : Desk E}

/-- The fetches that run are the ones that the resolver has under way, each is the last of its id
that was started, and every fetch that was started runs or has been published, but not both. -/
structure Tracked (d : Desk E) : Prop where
  singleFlight : d.resolver.SingleFlight
  inFlight_eq : d.resolver.inFlight = d.running.map Fetch.id
  eq_latest : ∀ f ∈ d.running, f = d.latest f.id
  started_iff : ∀ f, 0 < f.number ∧ f.number ≤ d.started.count f.id ↔ f ∈ d.running ∨ f ∈ d.published
  disjoint : ∀ f ∈ d.running, f ∉ d.published
  balance : ∀ id, d.started.count id =
    (d.published.map Fetch.id).count id + (d.running.map Fetch.id).count id
  started_of_answer? : ∀ {id a}, d.cache.answer? id = some a → 0 < d.started.count id

theorem Tracked.waiters?_of_mem (h : d.Tracked) {f : Fetch} (hf : f ∈ d.running) :
    ∃ ws, d.cache.waiters? f.id = some ws := by
  have hmem : f.id ∈ d.resolver.inFlight := h.inFlight_eq ▸ List.mem_map_of_mem hf
  exact Option.isSome_iff_exists.1 ((h.singleFlight.mem_iff f.id).1 hmem)

theorem Tracked.latest_mem_iff (h : d.Tracked) (id : String) :
    d.latest id ∈ d.running ↔ (d.cache.waiters? id).isSome := by
  constructor
  · intro hmem
    obtain ⟨ws, hws⟩ := h.waiters?_of_mem hmem
    simp [show d.cache.waiters? id = some ws from hws]
  · intro hw
    have hmem := (h.singleFlight.mem_iff id).2 hw
    rw [h.inFlight_eq] at hmem
    obtain ⟨f, hf, rfl⟩ := List.mem_map.1 hmem
    exact h.eq_latest f hf ▸ hf

theorem Tracked.running_nodup (h : d.Tracked) : (d.running.map Fetch.id).Nodup :=
  h.inFlight_eq ▸ h.singleFlight.nodup

theorem Tracked.mem_erase_iff (h : d.Tracked) {f g : Fetch} :
    g ∈ d.running.erase f ↔ g ≠ f ∧ g ∈ d.running :=
  h.running_nodup.of_map.mem_erase_iff

theorem Tracked.eq_of_id (h : d.Tracked) {f g : Fetch} (hf : f ∈ d.running) (hg : g ∈ d.running)
    (hid : f.id = g.id) : f = g := by
  rw [h.eq_latest f hf, h.eq_latest g hg, hid]

/-- The last fetch of a terminal id has been published. -/
theorem Tracked.latest_mem_published (h : d.Tracked) {id : String} {a : Option E}
    (ha : d.cache.answer? id = some a) : d.latest id ∈ d.published := by
  refine ((h.started_iff (d.latest id)).1 ⟨h.started_of_answer? ha, Nat.le_refl _⟩).resolve_left ?_
  rw [h.latest_mem_iff, Cache.waiters?_eq_none_of_answer? ha]
  simp

theorem opened_tracked (namespaceName : String) (bound : Option UInt64) (directory : Directory E) :
    (opened namespaceName bound directory).Tracked where
  singleFlight := Resolver.empty_singleFlight namespaceName bound directory
  inFlight_eq := rfl
  eq_latest f hf := by cases hf
  started_iff f := by
    simp only [opened, List.count_nil, List.not_mem_nil, or_self, iff_false]
    omega
  disjoint f hf := by cases hf
  balance id := rfl
  started_of_answer? h := by simp [opened, Cache.answer?] at h

/-- A step that starts and ends no fetch and brings no new answers. -/
theorem Tracked.of_resolver (h : d.Tracked) {r : Resolver E} (hr : r.SingleFlight)
    (hids : r.inFlight = d.resolver.inFlight)
    (hanswers : ∀ {id a}, r.cache.answer? id = some a → d.cache.answer? id = some a) :
    ({ d with resolver := r }).Tracked where
  singleFlight := hr
  inFlight_eq := hids.trans h.inFlight_eq
  eq_latest := h.eq_latest
  started_iff := h.started_iff
  disjoint := h.disjoint
  balance := h.balance
  started_of_answer? ha := h.started_of_answer? (hanswers ha)

/-- A call for an id without an entry starts one fetch of it, the next of its number. -/
theorem Tracked.resolve_absent (h : d.Tracked) {id : String} (hanswer : d.cache.answer? id = none)
    (hwaiters : d.cache.waiters? id = none) : (d.resolve id).Tracked := by
  have hids := d.resolver.inFlight_resolve d.calls.length id
  rw [if_pos ⟨hanswer, hwaiters⟩] at hids
  rw [resolve_of_absent hanswer hwaiters]
  exact {
    singleFlight := h.singleFlight.resolve d.calls.length id
    inFlight_eq := by
      rw [hids, h.inFlight_eq]
      simp
    eq_latest := by
      intro f hf
      rcases List.mem_append.1 hf with hold | hnew
      · obtain ⟨ws, hws⟩ := h.waiters?_of_mem hold
        have hne : id ≠ f.id := by
          rintro rfl
          simp [hwaiters] at hws
        have hlatest : d.latest f.id = f := (h.eq_latest f hold).symm
        simpa [latest, List.count_append, hne] using hlatest.symm
      · simp_all [latest]
    started_iff := by
      intro f
      rw [List.mem_append, or_right_comm, ← h.started_iff f, List.mem_singleton, Fetch.ext_iff]
      by_cases hid : f.id = id
      · subst hid
        simp only [List.count_append, List.count_singleton_self, true_and]
        omega
      · simp [List.count_append, hid, Ne.symm hid]
    disjoint := by
      intro f hf
      rcases List.mem_append.1 hf with hold | hnew
      · exact h.disjoint f hold
      · cases List.mem_singleton.1 hnew
        intro hmem
        exact absurd ((h.started_iff _).2 (.inr hmem)).2 (Nat.not_succ_le_self _)
    balance := by
      intro id'
      simp only [List.count_append, List.map_append, List.map_cons, List.map_nil, h.balance id']
      omega
    started_of_answer? := fun {id' a} ha => by
      rw [cache, Resolver.cache_resolve, Cache.answer?_lookup] at ha
      exact Nat.lt_of_lt_of_le (h.started_of_answer? ha) (by simp) }

theorem Tracked.resolve (h : d.Tracked) (id : String) : (d.resolve id).Tracked := by
  by_cases hmiss : d.cache.answer? id = none ∧ d.cache.waiters? id = none
  · exact h.resolve_absent hmiss.1 hmiss.2
  · have hids := d.resolver.inFlight_resolve d.calls.length id
    rw [if_neg hmiss] at hids
    have htracked := h.of_resolver (h.singleFlight.resolve d.calls.length id) hids
      fun {id' a} ha => by rwa [Resolver.cache_resolve, Cache.answer?_lookup] at ha
    cases ha : d.cache.answer? id with
    | some a =>
      rw [resolve_of_answer? ha]
      exact { htracked with }
    | none =>
      have hw : (d.cache.waiters? id).isSome :=
        Option.isSome_iff_ne_none.2 fun hnone => hmiss ⟨ha, hnone⟩
      rw [resolve_of_waiters? hw]
      exact { htracked with }

theorem Tracked.finish (h : d.Tracked) (f : Fetch) : (d.finish outcome f).Tracked := by
  by_cases hf : f ∈ d.running
  · obtain ⟨ws, hws⟩ := h.waiters?_of_mem hf
    have hids := map_erase_of_nodup h.running_nodup hf
    rw [finish_of_mem hf hws]
    exact {
      singleFlight := h.singleFlight.conclude f.id (outcome f)
      inFlight_eq := by
        change d.resolver.inFlight.erase f.id = _
        rw [h.inFlight_eq, hids]
      eq_latest := by
        intro g hg
        exact h.eq_latest g (List.mem_of_mem_erase hg)
      started_iff := by
        intro g
        rw [h.started_iff g, h.mem_erase_iff, List.mem_append, List.mem_singleton]
        by_cases hgf : g = f
        · simp [hgf, hf]
        · simp [hgf]
      disjoint := by
        intro g hg
        obtain ⟨hne, hold⟩ := h.mem_erase_iff.1 hg
        simp [h.disjoint g hold, hne]
      balance := by
        intro id
        have hpos := List.count_pos_iff.2 (List.mem_map_of_mem (f := Fetch.id) hf)
        simp only [← hids, List.map_append, List.map_cons, List.map_nil, List.count_append,
          List.count_erase, List.count_singleton, h.balance id]
        by_cases hid : f.id = id
        · subst hid
          simp only [beq_self_eq_true, if_true]
          omega
        · simp [hid]
      started_of_answer? := fun {id a} ha => by
        simp only [cache, Resolver.conclude_of_waiters? hws] at ha
        rcases Cache.answer?_of_store ha with ⟨rfl, -⟩ | hold
        · have hmem := (h.started_iff f).2 (.inl hf)
          exact Nat.lt_of_lt_of_le hmem.1 hmem.2
        · exact h.started_of_answer? hold }
  · simpa [Desk.finish, hf] using h

theorem Tracked.step (h : d.Tracked) (e : Event) : (d.step outcome e).Tracked := by
  cases e with
  | resolve id => exact h.resolve id
  | finish f => exact h.finish f
  | drop n =>
    simp only [Desk.step, Desk.drop]
    split
    · exact { h with }
    · exact h
  | invalidate id =>
    exact h.of_resolver (h.singleFlight.invalidate id) rfl Cache.answer?_of_invalidate
  | clear =>
    refine h.of_resolver h.singleFlight.clear rfl fun {id a} ha => ?_
    change d.cache.clear.answer? id = some a at ha
    simp at ha

theorem Tracked.run (h : d.Tracked) (es : List Event) : (d.run outcome es).Tracked :=
  run_induction h (fun _ e hd => hd.step e) es

/-- Whatever happened before, one fetch is under way for every pending id and none for any other: so
many were started and not published. A fetch that ends finds its id pending, and its publication
stores the answer for those who wait. -/
theorem one_fetch_per_pending_id (namespaceName : String) (bound : Option UInt64)
    (directory : Directory E) (outcome : Fetch → FetchOutcome E) (es : List Event) :
    let d := (opened namespaceName bound directory).run outcome es
    d.resolver.inFlight = d.running.map Fetch.id ∧
    (∀ id, d.started.count id =
      (d.published.map Fetch.id).count id + (d.running.map Fetch.id).count id) ∧
    (∀ id, (d.running.map Fetch.id).count id =
      if d.cache.state? id = some .pending then 1 else 0) ∧
    (∀ f ∈ d.running, ∀ g ∈ d.running, f.id = g.id → f = g) ∧
    ∀ f ∈ d.running, ∃ ws, d.cache.slots.get? f.id = some (.pending ws) ∧
      ∀ a, d.cache.publish f.id a = (ws, d.cache.store f.id a) := by
  intro d
  have h : d.Tracked := (opened_tracked namespaceName bound directory).run es
  refine ⟨h.inFlight_eq, h.balance, fun id => ?_, fun f hf g hg => h.eq_of_id hf hg, fun f hf => ?_⟩
  · rw [← h.inFlight_eq, h.singleFlight.count_inFlight]
    simp only [Cache.state?_eq_pending_iff]
  · obtain ⟨ws, hws⟩ := h.waiters?_of_mem hf
    exact ⟨ws, Cache.waiters?_eq_some_iff.1 hws, Cache.publish_of_waiters? hws⟩

end Desk

end LedgerExplorer
