import LedgerExplorer.Proofs.Cache.SingleFlight

/-!
# Who waits, and who is answered

A call that is not a hit waits for the fetch that was the last of its id when it was made, and for no
other: it is registered once with the pending entry of that id as long as the fetch runs, and when the
fetch is published it is answered, unless its caller has gone away. `Desk.Accounted` says so of every
call at once, and every event keeps it.
-/

namespace LedgerExplorer

namespace Desk

variable {E : Type} {outcome : Fetch → FetchOutcome E} {d : Desk E}

/-- How often a call is among those that wait for an id. -/
def registrations (d : Desk E) (id : String) (n : Nat) : Nat :=
  ((d.cache.waiters? id).getD []).count n

/-- How many answers a call got. -/
def answersTo (d : Desk E) (n : Nat) : Nat :=
  (d.answered.map Prod.fst).count n

theorem registrations_of_waiters? {id : String} {ws : List Nat} (hw : d.cache.waiters? id = some ws)
    (n : Nat) : d.registrations id n = ws.count n := by
  simp [registrations, hw]

/-! ## What a call changes -/

/-- A desk after a call for an id, seen from the calls: the new one is registered with the id unless
it is a hit, which is answered, and nothing changes for the others. -/
structure Called (d d' : Desk E) (id : String) (c : Inquiry) : Prop where
  calls_eq : d'.calls = d.calls ++ [c]
  dropped_eq : d'.dropped = d.dropped
  fetch_eq : c.fetch = d'.latest id
  running_iff : c.fetch ∈ d'.running ↔ c.met ≠ .hit
  published_of_hit : c.met = .hit → c.fetch ∈ d.published
  published_eq : d'.published = d.published
  mem_of_mem : ∀ f ∈ d.running, f ∈ d'.running
  mem_or_new : ∀ f ∈ d'.running, f ∈ d.running ∨ d.started.count f.id < f.number
  registrations_eq : ∀ id' n, d'.registrations id' n =
    d.registrations id' n + if c.met ≠ .hit ∧ id' = id ∧ n = d.calls.length then 1 else 0
  answersTo_eq : ∀ n, d'.answersTo n =
    d.answersTo n + if c.met = .hit ∧ n = d.calls.length then 1 else 0

theorem waiters?_resolve (d : Desk E) (id id' : String) :
    (d.resolver.resolve d.calls.length id).2.cache.waiters? id' =
      if id' = id ∧ d.cache.answer? id = none
      then some ((d.cache.waiters? id).getD [] ++ [d.calls.length])
      else d.cache.waiters? id' := by
  rw [Resolver.cache_resolve, Cache.waiters?_lookup]

theorem registrations_resolve (d : Desk E) {d' : Desk E} {id : String}
    (hd' : d'.resolver = (d.resolver.resolve d.calls.length id).2) (id' : String) (n : Nat) :
    d'.registrations id' n = d.registrations id' n +
      if d.cache.answer? id = none ∧ id' = id ∧ n = d.calls.length then 1 else 0 := by
  unfold registrations cache
  rw [hd', waiters?_resolve]
  by_cases hid : id' = id
  · subst hid
    by_cases ha : d.cache.answer? id' = none
    · simp [ha, count_singleton_eq]
    · simp [ha]
  · simp [hid]

theorem resolve_called (h : d.Tracked) (id : String) : ∃ c, Called d (d.resolve id) id c := by
  cases ha : d.cache.answer? id with
  | some a =>
    have hended : d.latest id ∉ d.running := fun hmem => by
      simpa [Cache.waiters?_eq_none_of_answer? ha] using (h.latest_mem_iff id).1 hmem
    rw [resolve_of_answer? ha]
    exact ⟨⟨.hit, d.latest id⟩, {
      calls_eq := rfl
      dropped_eq := rfl
      fetch_eq := rfl
      running_iff := by simp [hended]
      published_of_hit _ := h.latest_mem_published ha
      published_eq := rfl
      mem_of_mem _ hf := hf
      mem_or_new _ hf := .inl hf
      registrations_eq id' n := by rw [d.registrations_resolve rfl]; simp [ha]
      answersTo_eq n := by simp [answersTo, count_singleton_eq] }⟩
  | none =>
    by_cases hw : d.cache.waiters? id = none
    · rw [resolve_of_absent ha hw]
      exact ⟨⟨.miss, ⟨id, d.started.count id + 1⟩⟩, {
        calls_eq := rfl
        dropped_eq := rfl
        fetch_eq := by simp [latest]
        running_iff := by simp
        published_of_hit hmet := by cases hmet
        published_eq := rfl
        mem_of_mem _ hf := List.mem_append_left _ hf
        mem_or_new f hf := by
          refine (List.mem_append.1 hf).imp_right fun hnew => ?_
          cases List.mem_singleton.1 hnew
          exact Nat.lt_succ_self _
        registrations_eq id' n := by rw [d.registrations_resolve rfl]; simp [ha]
        answersTo_eq n := by simp [answersTo] }⟩
    · have hsome := Option.isSome_iff_ne_none.2 hw
      rw [resolve_of_waiters? hsome]
      exact ⟨⟨.coalesced, d.latest id⟩, {
        calls_eq := rfl
        dropped_eq := rfl
        fetch_eq := rfl
        running_iff := by simpa [h.latest_mem_iff] using hsome
        published_of_hit hmet := by cases hmet
        published_eq := rfl
        mem_of_mem _ hf := hf
        mem_or_new _ hf := .inl hf
        registrations_eq id' n := by rw [d.registrations_resolve rfl]; simp [ha]
        answersTo_eq n := by simp [answersTo] }⟩

/-! ## What the end of a fetch changes -/

theorem finish_frame (d : Desk E) (outcome : Fetch → FetchOutcome E) {f : Fetch} {ws : List Nat}
    (hf : f ∈ d.running) (hw : d.cache.waiters? f.id = some ws) :
    (d.finish outcome f).running = d.running.erase f ∧
      (d.finish outcome f).published = d.published ++ [f] ∧
      (d.finish outcome f).calls = d.calls ∧ (d.finish outcome f).dropped = d.dropped := by
  rw [finish_of_mem hf hw]
  exact ⟨rfl, rfl, rfl, rfl⟩

/-- Nobody waits for the id of a published fetch any more. -/
theorem registrations_finish {f : Fetch} {ws : List Nat} (hf : f ∈ d.running)
    (hw : d.cache.waiters? f.id = some ws) (id : String) (n : Nat) :
    (d.finish outcome f).registrations id n = if id = f.id then 0 else d.registrations id n := by
  rw [finish_of_mem hf hw]
  unfold registrations cache
  rw [Resolver.conclude_of_waiters? hw]
  change ((Cache.waiters? (d.cache.store f.id _) id).getD []).count n = _
  rw [Cache.waiters?_store]
  by_cases hid : id = f.id <;> simp [hid]

/-- Whoever was registered is answered as often, unless it was dropped. -/
theorem answersTo_finish {f : Fetch} {ws : List Nat} (hf : f ∈ d.running)
    (hw : d.cache.waiters? f.id = some ws) (n : Nat) :
    (d.finish outcome f).answersTo n =
      d.answersTo n + if n ∈ d.dropped then 0 else d.registrations f.id n := by
  rw [finish_of_mem hf hw]
  simp only [answersTo, registrations, hw, Option.getD_some, List.map_append, List.map_map,
    List.count_append]
  congr 1
  change ((ws.filter _).map id).count n = _
  rw [List.map_id]
  by_cases hn : n ∈ d.dropped
  · rw [if_pos hn]
    exact List.count_eq_zero.2 fun hmem => by simpa [hn] using (List.mem_filter.1 hmem).2
  · rw [if_neg hn]
    exact List.count_filter (by simpa using hn)

/-! ## Every call is accounted for -/

/-- A call is registered once with its id while its fetch runs, and with no other id. It has no answer
while its fetch runs or if it was dropped, and one answer otherwise. Hits never wait. -/
structure Accounted (d : Desk E) : Prop where
  tracked : d.Tracked
  ran : ∀ {n : Nat} {c : Inquiry}, d.calls[n]? = some c →
    c.fetch ∈ d.running ∨ c.fetch ∈ d.published
  hit_ended : ∀ {n : Nat} {c : Inquiry}, d.calls[n]? = some c → c.met = .hit →
    c.fetch ∉ d.running ∧ n ∉ d.dropped
  dropped_lt : ∀ n ∈ d.dropped, n < d.calls.length
  registrations_eq : ∀ {n : Nat} {c : Inquiry}, d.calls[n]? = some c → ∀ id,
    d.registrations id n = if c.fetch ∈ d.running ∧ c.fetch.id = id then 1 else 0
  registrations_of_le : ∀ {n : Nat}, d.calls.length ≤ n → ∀ id, d.registrations id n = 0
  answersTo_eq : ∀ {n : Nat} {c : Inquiry}, d.calls[n]? = some c →
    d.answersTo n = if c.fetch ∈ d.running ∨ n ∈ d.dropped then 0 else 1
  answersTo_of_le : ∀ {n : Nat}, d.calls.length ≤ n → d.answersTo n = 0

theorem opened_accounted (namespaceName : String) (bound : Option UInt64) (directory : Directory E) :
    (opened namespaceName bound directory).Accounted where
  tracked := opened_tracked namespaceName bound directory
  ran h := by simp [opened] at h
  hit_ended h := by simp [opened] at h
  dropped_lt := by simp [opened]
  registrations_eq h := by simp [opened] at h
  registrations_of_le _ id := by simp [registrations, opened, Cache.waiters?]
  answersTo_eq h := by simp [opened] at h
  answersTo_of_le _ := by simp [answersTo, opened]

/-- A new call leaves the fetches of the earlier ones as they were. -/
theorem Accounted.running_old (h : d.Accounted) {d' : Desk E} {id : String} {c : Inquiry}
    (hc : Called d d' id c) {n : Nat} {c' : Inquiry} (hn : d.calls[n]? = some c') :
    c'.fetch ∈ d'.running ↔ c'.fetch ∈ d.running := by
  have hle := ((h.tracked.started_iff c'.fetch).2 (h.ran hn)).2
  exact ⟨fun hf => (hc.mem_or_new _ hf).resolve_right (Nat.not_lt.2 hle), hc.mem_of_mem _⟩

theorem Accounted.resolve (h : d.Accounted) (id : String) : (d.resolve id).Accounted := by
  obtain ⟨c, hc⟩ := resolve_called h.tracked id
  have hlen : (d.resolve id).calls.length = d.calls.length + 1 := by simp [hc.calls_eq]
  have hfresh : d.calls.length ∉ d.dropped := by
    intro hmem
    exact Nat.lt_irrefl _ (h.dropped_lt _ hmem)
  -- A call is an earlier one, or the new one.
  have hcases {n : Nat} {c' : Inquiry} (hn : (d.resolve id).calls[n]? = some c') :
      (d.calls[n]? = some c' ∧ n ≠ d.calls.length) ∨ n = d.calls.length ∧ c = c' := by
    rw [hc.calls_eq] at hn
    refine (getElem?_concat_eq_some_iff.1 hn).imp_left fun hold => ⟨hold, ?_⟩
    exact Nat.ne_of_lt (List.getElem?_eq_some_iff.1 hold).1
  exact {
    tracked := h.tracked.resolve id
    ran := fun {n c'} hn => by
      rcases hcases hn with ⟨hold, -⟩ | ⟨-, rfl⟩
      · rw [h.running_old hc hold, hc.published_eq]
        exact h.ran hold
      · by_cases hmet : c.met = .hit
        · exact .inr (hc.published_eq ▸ hc.published_of_hit hmet)
        · exact .inl (hc.running_iff.2 hmet)
    hit_ended := fun {n c'} hn hmet => by
      rw [hc.dropped_eq]
      rcases hcases hn with ⟨hold, -⟩ | ⟨rfl, rfl⟩
      · rw [h.running_old hc hold]
        exact h.hit_ended hold hmet
      · exact ⟨fun hmem => hc.running_iff.1 hmem hmet, hfresh⟩
    dropped_lt := by
      intro n hn
      rw [hc.dropped_eq] at hn
      exact hlen ▸ Nat.lt_succ_of_lt (h.dropped_lt n hn)
    registrations_eq := fun {n c'} hn id' => by
      rw [hc.registrations_eq]
      rcases hcases hn with ⟨hold, hne⟩ | ⟨rfl, rfl⟩
      · simp only [h.registrations_eq hold, h.running_old hc hold, hne, and_false,
          if_false, Nat.add_zero]
      · have hid : c.fetch.id = id := by rw [hc.fetch_eq]; rfl
        simp [h.registrations_of_le (Nat.le_refl _), hc.running_iff, hid, eq_comm]
    registrations_of_le := fun {n} hn id' => by
      have hle : d.calls.length ≤ n := by omega
      rw [hc.registrations_eq, h.registrations_of_le hle, if_neg (by omega)]
    answersTo_eq := fun {n c'} hn => by
      rw [hc.answersTo_eq]
      rcases hcases hn with ⟨hold, hne⟩ | ⟨rfl, rfl⟩
      · simp only [h.answersTo_eq hold, h.running_old hc hold, hc.dropped_eq, hne,
          and_false, if_false, Nat.add_zero]
      · simp only [h.answersTo_of_le (Nat.le_refl _), hc.running_iff, hc.dropped_eq, hfresh]
        by_cases hmet : c.met = .hit <;> simp [hmet]
    answersTo_of_le := fun {n} hn => by
      have hle : d.calls.length ≤ n := by omega
      rw [hc.answersTo_eq, h.answersTo_of_le hle, if_neg (by omega)] }

/-- A call for a fetch that runs is for `f` if it is for a fetch of the same id. -/
theorem Accounted.fetch_iff (h : d.Accounted) {f : Fetch} (hf : f ∈ d.running) (c : Inquiry) :
    c.fetch ∈ d.running ∧ c.fetch.id = f.id ↔ c.fetch = f := by
  constructor
  · intro hc
    exact h.tracked.eq_of_id hc.1 hf hc.2
  · rintro rfl
    exact ⟨hf, rfl⟩

theorem Accounted.finish (h : d.Accounted) (f : Fetch) : (d.finish outcome f).Accounted := by
  by_cases hf : f ∈ d.running
  · obtain ⟨ws, hw⟩ := h.tracked.waiters?_of_mem hf
    obtain ⟨hrunning, hpublished, hcalls, hdropped⟩ := d.finish_frame outcome hf hw
    have hmem (g : Fetch) : g ∈ (d.finish outcome f).running ↔ g ≠ f ∧ g ∈ d.running :=
      hrunning ▸ h.tracked.mem_erase_iff
    exact {
      tracked := h.tracked.finish f
      ran := fun {n c} hn => by
        rw [hmem, hpublished, List.mem_append, List.mem_singleton]
        rcases h.ran (hcalls ▸ hn) with hrun | hdone
        · by_cases hcf : c.fetch = f
          · exact .inr (.inr hcf)
          · exact .inl ⟨hcf, hrun⟩
        · exact .inr (.inl hdone)
      hit_ended := fun {n c} hn hmet => by
        obtain ⟨hended, hkept⟩ := h.hit_ended (hcalls ▸ hn) hmet
        rw [hmem, hdropped]
        exact ⟨fun hf => hended hf.2, hkept⟩
      dropped_lt := by
        intro n hn
        rw [hcalls]
        exact h.dropped_lt n (hdropped ▸ hn)
      registrations_eq := fun {n c} hn id => by
        rw [registrations_finish hf hw, h.registrations_eq (hcalls ▸ hn)]
        by_cases hid : id = f.id
        · -- Nobody waits for this id any more, and its other fetches have ended before.
          have hnone : ¬(c.fetch ∈ (d.finish outcome f).running ∧ c.fetch.id = id) := by
            rintro ⟨hrun, rfl⟩
            obtain ⟨hne, hold⟩ := (hmem _).1 hrun
            exact hne ((h.fetch_iff hf c).1 ⟨hold, hid⟩)
          rw [if_pos hid, if_neg hnone]
        · have hne : c.fetch.id = id → c.fetch ≠ f := by
            rintro rfl rfl
            exact hid rfl
          rw [if_neg hid]
          refine if_congr ?_ rfl rfl
          rw [hmem]
          exact ⟨fun hc => ⟨⟨hne hc.2, hc.1⟩, hc.2⟩, fun hc => ⟨hc.1.2, hc.2⟩⟩
      registrations_of_le := fun {n} hn id => by
        rw [registrations_finish hf hw, h.registrations_of_le (hcalls ▸ hn), ite_self]
      answersTo_eq := fun {n c} hn => by
        rw [answersTo_finish hf hw, h.answersTo_eq (hcalls ▸ hn), h.registrations_eq (hcalls ▸ hn)]
        simp only [h.fetch_iff hf, hmem, hdropped]
        by_cases hcf : c.fetch = f
        · by_cases hdrop : n ∈ d.dropped <;> simp [hcf, hf, hdrop]
        · simp [hcf]
      answersTo_of_le := fun {n} hn => by
        rw [answersTo_finish hf hw, h.answersTo_of_le (hcalls ▸ hn),
          h.registrations_of_le (hcalls ▸ hn), ite_self] }
  · simpa [Desk.finish, hf] using h

theorem Accounted.drop (h : d.Accounted) (n : Nat) : (d.drop n).Accounted := by
  unfold Desk.drop
  split
  · next hwaits =>
    obtain ⟨hlt, hkept, hnone⟩ := hwaits
    have hzero : d.answersTo n = 0 := List.count_eq_zero.2 hnone
    exact { h with
      tracked := { h.tracked with }
      hit_ended := fun {m c} hm hmet => by
        obtain ⟨hended, hm'⟩ := h.hit_ended hm hmet
        refine ⟨hended, fun hmem => ?_⟩
        rcases List.mem_cons.1 hmem with rfl | hold
        · -- A hit has its answer, so nobody waits for it.
          have hone := h.answersTo_eq hm
          rw [if_neg (by simp [hended, hm']), hzero] at hone
          cases hone
        · exact hm' hold
      dropped_lt := by
        intro m hm
        rcases List.mem_cons.1 hm with rfl | hold
        · exact hlt
        · exact h.dropped_lt m hold
      answersTo_eq := fun {m c} hm => by
        change d.answersTo m = _
        by_cases hmn : m = n
        · simp [hmn, hzero]
        · simp [h.answersTo_eq hm, hmn] }
  · exact h

/-- Forgetting entries leaves everybody who waits where they are. -/
theorem Accounted.of_waiters? (h : d.Accounted) {r : Resolver E}
    (hr : ({ d with resolver := r }).Tracked)
    (hw : ∀ id, r.cache.waiters? id = d.cache.waiters? id) :
    ({ d with resolver := r }).Accounted where
  tracked := hr
  ran := h.ran
  hit_ended := h.hit_ended
  dropped_lt := h.dropped_lt
  registrations_eq hn id := by
    simpa only [registrations, hw] using h.registrations_eq hn id
  registrations_of_le hn id := by
    simpa only [registrations, hw] using h.registrations_of_le hn id
  answersTo_eq := h.answersTo_eq
  answersTo_of_le := h.answersTo_of_le

theorem Accounted.step (h : d.Accounted) (e : Event) : (d.step outcome e).Accounted := by
  have htracked : (d.step outcome e).Tracked := h.tracked.step e
  cases e with
  | resolve id => exact h.resolve id
  | finish f => exact h.finish f
  | drop n => exact h.drop n
  | invalidate id => exact h.of_waiters? htracked fun id' => Cache.waiters?_invalidate _ id id'
  | clear => exact h.of_waiters? htracked fun id => Cache.waiters?_clear _ id

theorem Accounted.run (h : d.Accounted) (es : List Event) : (d.run outcome es).Accounted :=
  run_induction h (fun _ e hd => hd.step e) es

end Desk

end LedgerExplorer
