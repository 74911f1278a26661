import LedgerExplorer.Proofs.Cache.Capacity
import LedgerExplorer.Proofs.Cache.Losses
import LedgerExplorer.Proofs.Samples

/-!
# What a resolver counts

Lookups, fetches, failures and evictions are counted twice: in the statistics of the cache, and for
export by the resolver. Both are kept apart from the entries, and both agree with what happened
(`Desk.Booked`).
-/

namespace LedgerExplorer

/-- How many lookups were met in one way. -/
def CacheStats.met (s : CacheStats) : LookupResult → UInt64
  | .hit => s.hits
  | .coalesced => s.coalesced
  | .miss => s.misses

namespace Cache

variable {E : Type} {c : Cache E} {id : String}

theorem evict_frame (n : Nat) (c : Cache E) : (c.evict n).namespaceName = c.namespaceName ∧
    (c.evict n).stats.failures = c.stats.failures ∧ (c.evict n).stats.met = c.stats.met := by
  induction n generalizing c with
  | zero => exact ⟨rfl, rfl, rfl⟩
  | succ n ih =>
    rw [evict_succ]
    split
    · exact ⟨rfl, rfl, rfl⟩
    · next victim _ => exact ih (c.evicted victim)

theorem store_frame (c : Cache E) (id : String) (a : Option E) :
    (c.store id a).namespaceName = c.namespaceName ∧
    (c.store id a).stats.failures =
      c.stats.failures + UInt64.ofNat (if a.isNone then 1 else 0) ∧
    (c.store id a).stats.met = c.stats.met := by
  obtain ⟨hname, hfailures, hmet⟩ := evict_frame (c.filed id a).excess (c.filed id a)
  rw [← store_eq] at hname hfailures hmet
  refine ⟨hname, hfailures.trans ?_, hmet⟩
  cases a <;> simp [filed]

end Cache

namespace Desk

variable {E : Type} {outcome : Fetch → FetchOutcome E} {d : Desk E} {namespaceName : String}

/-- How many calls were met in one way. -/
def met (d : Desk E) (r : LookupResult) : Nat := d.calls.countP (·.met = r)

/-- How many of the published fetches ended in one way. -/
def ended (outcome : Fetch → FetchOutcome E) (d : Desk E) (k : FetchResult) : Nat :=
  d.published.countP fun f => FetchResult.ofOutcome (outcome f) = k

/-- How many of the published fetches brought no entity. -/
def failures (outcome : Fetch → FetchOutcome E) (d : Desk E) : Nat :=
  d.published.countP fun f => (answerOf (outcome f)).isNone

/-- The statistics and the exported counts are those of the calls and of the published fetches. -/
structure Booked (namespaceName : String) (outcome : Fetch → FetchOutcome E) (d : Desk E) :
    Prop where
  name_eq : d.cache.namespaceName = namespaceName
  met_eq : ∀ r, d.cache.stats.met r = UInt64.ofNat (d.met r)
  failures_eq : d.cache.stats.failures = UInt64.ofNat (d.failures outcome)
  started_eq : d.started.length = d.met .miss
  lookups_eq : ∀ r, d.resolver.log.count (.lookup namespaceName r) = d.met r
  fetches_eq : ∀ k, d.resolver.log.count (.resolution namespaceName k) = d.ended outcome k

theorem opened_booked (namespaceName : String) (bound : Option UInt64) (directory : Directory E) :
    (opened namespaceName bound directory).Booked namespaceName outcome where
  name_eq := rfl
  met_eq r := by cases r <;> rfl
  failures_eq := rfl
  started_eq := rfl
  lookups_eq _ := rfl
  fetches_eq _ := rfl

/-- A call is counted by how it is met, and starts a fetch if it is a miss. -/
structure Counted (d d' : Desk E) (c : Inquiry) : Prop where
  calls_eq : d'.calls = d.calls ++ [c]
  published_eq : d'.published = d.published
  started_eq : d'.started.length = d.started.length + if c.met = .miss then 1 else 0
  log_eq : d'.resolver.log = d.resolver.log ++ [.lookup d.cache.namespaceName c.met]
  name_eq : d'.cache.namespaceName = d.cache.namespaceName
  failures_eq : d'.cache.stats.failures = d.cache.stats.failures
  met_eq : ∀ r, d'.cache.stats.met r =
    d.cache.stats.met r + UInt64.ofNat (if c.met = r then 1 else 0)

theorem resolve_counted (d : Desk E) (id : String) : ∃ c, Counted d (d.resolve id) c := by
  unfold Desk.resolve Resolver.resolve Cache.lookup
  rcases d.cache.slots.get? id with _ | (_ | _ | _)
  all_goals
    refine ⟨_, rfl, rfl, by simp, rfl, rfl, rfl, ?_⟩
    intro r
    cases r <;> simp [CacheStats.met]

theorem Booked.resolve (h : d.Booked namespaceName outcome) (id : String) :
    (d.resolve id).Booked namespaceName outcome := by
  obtain ⟨c, hc⟩ := d.resolve_counted id
  have hmet (r : LookupResult) : (d.resolve id).met r = d.met r + if c.met = r then 1 else 0 := by
    simp [Desk.met, hc.calls_eq, List.countP_append, List.countP_cons]
  constructor
  · exact hc.name_eq.trans h.name_eq
  · intro r
    rw [hc.met_eq, h.met_eq, hmet, UInt64.ofNat_add]
  · rw [hc.failures_eq, h.failures_eq, failures, failures, hc.published_eq]
  · rw [hc.started_eq, h.started_eq, hmet]
  · intro r
    rw [hc.log_eq, List.count_append, h.lookups_eq, hmet, h.name_eq, count_singleton_eq]
    simp [eq_comm]
  · intro k
    rw [hc.log_eq, List.count_append, h.fetches_eq, ended, ended, hc.published_eq,
      count_singleton_eq]
    simp

theorem Booked.finish (h : d.Booked namespaceName outcome) (hd : d.Tracked) {f : Fetch}
    (hf : f ∈ d.running) : (d.finish outcome f).Booked namespaceName outcome := by
  obtain ⟨ws, hw⟩ := hd.waiters?_of_mem hf
  obtain ⟨hname, hfailures, hmet⟩ := d.cache.store_frame f.id (answerOf (outcome f))
  have hcache : (d.finish outcome f).cache = _ := hd.cache_finish hf
  rw [← hcache] at hname hfailures hmet
  have hlog : (d.finish outcome f).resolver.log = d.resolver.log ++
      [.resolution namespaceName (.ofOutcome (outcome f))] := by
    rw [← h.name_eq, ← hname, hcache, finish_of_mem hf hw, Resolver.conclude_of_waiters? hw]
  have hpublished : (d.finish outcome f).published = d.published ++ [f] := by
    rw [finish_of_mem hf hw]
  have hcalls := d.calls_finish outcome f
  have hstarted : (d.finish outcome f).started = d.started := by
    rw [finish_of_mem hf hw]
  constructor
  · exact hname.trans h.name_eq
  · intro r
    rw [hmet, h.met_eq, met, met, hcalls]
  · rw [hfailures, h.failures_eq, failures, failures, hpublished, ← UInt64.ofNat_add]
    simp [List.countP_append, List.countP_cons]
  · rw [hstarted, h.started_eq, met, met, hcalls]
  · intro r
    rw [hlog, List.count_append, h.lookups_eq, met, met, hcalls, count_singleton_eq]
    simp
  · intro k
    rw [hlog, List.count_append, h.fetches_eq, ended, ended, hpublished, count_singleton_eq]
    simp [List.countP_append, List.countP_cons, eq_comm]

/-- Forgetting entries counts nothing. -/
theorem Booked.of_resolver (h : d.Booked namespaceName outcome) {r : Resolver E}
    (hname : r.cache.namespaceName = d.cache.namespaceName)
    (hstats : r.cache.stats = d.cache.stats) (hlog : r.log = d.resolver.log) :
    ({ d with resolver := r }).Booked namespaceName outcome where
  name_eq := hname.trans h.name_eq
  met_eq k := (congrArg (CacheStats.met · k) hstats).trans (h.met_eq k)
  failures_eq := (congrArg CacheStats.failures hstats).trans h.failures_eq
  started_eq := h.started_eq
  lookups_eq k := (congrArg (List.count _) hlog).trans (h.lookups_eq k)
  fetches_eq k := (congrArg (List.count _) hlog).trans (h.fetches_eq k)

theorem Booked.step (h : d.Booked namespaceName outcome) (hd : d.Tracked) (e : Event) :
    (d.step outcome e).Booked namespaceName outcome := by
  cases e with
  | resolve id => exact h.resolve id
  | finish f =>
    by_cases hf : f ∈ d.running
    · exact h.finish hd hf
    · rw [Desk.step, show d.finish outcome f = d from if_neg hf]
      exact h
  | drop n =>
    simp only [Desk.step, Desk.drop]
    split
    · exact { h with }
    · exact h
  | invalidate id =>
    have hsame : (d.cache.invalidate id).namespaceName = d.cache.namespaceName ∧
        (d.cache.invalidate id).stats = d.cache.stats := by
      unfold Cache.invalidate
      split
      · exact ⟨rfl, rfl⟩
      · exact ⟨rfl, rfl⟩
    exact h.of_resolver hsame.1 hsame.2 rfl
  | clear => exact h.of_resolver rfl rfl rfl

theorem Booked.run (h : d.Booked namespaceName outcome) (hd : d.Tracked) (es : List Event) :
    (d.run outcome es).Booked namespaceName outcome :=
  (run_induction (P := fun d => d.Tracked ∧ d.Booked namespaceName outcome) ⟨hd, h⟩
    (fun _ e hd => ⟨hd.1.step e, hd.2.step hd.1 e⟩) es).2

/-! ## What the counts add up to -/

theorem met_add (d : Desk E) : d.met .hit + d.met .coalesced + d.met .miss = d.calls.length := by
  unfold met
  induction d.calls with
  | nil => rfl
  | cons c cs ih =>
    rw [List.length_cons, ← ih, List.countP_cons, List.countP_cons, List.countP_cons]
    cases c.met <;> simp <;> omega

theorem isNone_answerOf (o : FetchOutcome E) :
    (answerOf o).isNone = !decide (FetchResult.ofOutcome o = .resolved) := by
  unfold answerOf FetchResult.ofOutcome
  rcases o with _ | (e | (_ | v))
  · rfl
  · cases h : e.isNotFound <;> simp [h]
  · rfl
  · rfl

theorem ended_add (outcome : Fetch → FetchOutcome E) (d : Desk E) :
    d.ended outcome .notFound + d.ended outcome .error + d.ended outcome .aborted =
      d.failures outcome ∧
    d.ended outcome .resolved + d.failures outcome = d.published.length := by
  simp only [ended, failures, isNone_answerOf]
  induction d.published with
  | nil => exact ⟨rfl, rfl⟩
  | cons f fs ih =>
    rw [List.length_cons]
    simp only [List.countP_cons] at ih ⊢
    cases FetchResult.ofOutcome (outcome f) <;> simp <;> omega

theorem Tracked.length_started (h : d.Tracked) :
    d.started.length = d.resolver.inFlight.length + d.published.length := by
  have hperm : d.started.Perm (d.resolver.inFlight ++ d.published.map Fetch.id) := by
    apply List.perm_iff_count.2
    intro id
    rw [List.count_append, h.inFlight_eq, h.balance, Nat.add_comm]
  rw [hperm.length_eq, List.length_append, List.length_map]

theorem Balanced.length_published {bound : Option UInt64} {evicted forgotten : List String}
    (h : d.Balanced bound evicted forgotten) :
    d.published.length = d.cache.terminals + evicted.length + forgotten.length := by
  have hlength := h.published_perm.length_eq
  rw [List.length_map, List.length_append, List.length_append] at hlength
  rw [hlength, Cache.answered, ← List.countP_eq_length_filter]
  rfl

/-- Every fetch of an id that was started has its entry in the cache, or that entry was lost. -/
theorem Balanced.count_started {bound : Option UInt64} {evicted forgotten : List String}
    (h : d.Balanced bound evicted forgotten) (id : String) : d.started.count id =
      (if (d.cache.state? id).isSome then 1 else 0) + evicted.count id + forgotten.count id := by
  have hpublished := List.perm_iff_count.1 h.published_perm id
  have hrunning := h.tracked.singleFlight.count_inFlight id
  have hstate : (d.cache.state? id).isSome ↔
      (d.cache.waiters? id).isSome ∨ (d.cache.answer? id).isSome := by
    rw [← Cache.contains_iff, Cache.state?, Option.isSome_map]
    rfl
  rw [h.tracked.inFlight_eq] at hrunning
  rw [List.count_append, List.count_append, d.cache.nodup_answered.count] at hpublished
  rw [h.tracked.balance, hpublished, hrunning]
  simp only [hstate, Cache.mem_answered]
  by_cases hw : (d.cache.waiters? id).isSome
  · simp [hw, Cache.answer?_eq_none_of_waiters? hw]
    omega
  · simp [hw]

theorem lostBy_eq_nil {kind : Event → Bool} {es : List Event} (h : ∀ e ∈ es, kind e = false) :
    d.lostBy outcome kind es = [] := by
  induction es generalizing d with
  | nil => rfl
  | cons e es ih =>
    obtain ⟨he, hes⟩ := List.forall_mem_cons.1 h
    rw [lostBy, ih hes, he]
    rfl

/-- As long as no counter runs over, every call is counted as a hit, as coalesced or as a miss, every
miss starts a fetch, and every fetch is under way or has been published, with an entity or as a failure.
Every published outcome is in the cache, or it was evicted, which is counted, or forgotten; and so for
every single id, which is fetched once for the entry that it has and once for each that it lost. The
exported counts say the same as the statistics. -/
theorem counters_balance (namespaceName : String) (bound : Option UInt64)
    (directory : Directory E) (outcome : Fetch → FetchOutcome E) (es : List Event)
    (hlimits : ∀ r, ((opened namespaceName bound directory).run outcome es).met r < UInt64.size) :
    let d := (opened namespaceName bound directory).run outcome es
    let stats := d.cache.stats
    let evicted := (opened namespaceName bound directory).lostBy outcome Event.publishes es
    let forgotten := (opened namespaceName bound directory).lostBy outcome Event.forgets es
    let grown := Counter.grown d.resolver.log
    (stats.hits.toNat + stats.coalesced.toNat + stats.misses.toNat =
      (es.filterMap Event.asked?).length) ∧
    (stats.misses.toNat = d.started.length ∧
      d.started.length = d.resolver.inFlight.length + d.published.length) ∧
    stats.failures.toNat = d.failures outcome ∧
    (stats.evictions.toNat = evicted.length ∧
      d.published.length = d.cache.terminals + stats.evictions.toNat + forgotten.length) ∧
    (∀ id, d.started.count id =
      (if (d.cache.state? id).isSome then 1 else 0) + evicted.count id + forgotten.count id) ∧
    (bound = none → (∀ e ∈ es, e.forgets = false) → ∀ id, d.started.count id ≤ 1) ∧
    (grown (.lookup namespaceName .hit) = stats.hits.toNat ∧
      grown (.lookup namespaceName .coalesced) = stats.coalesced.toNat ∧
      grown (.lookup namespaceName .miss) = stats.misses.toNat) ∧
    grown (.resolution namespaceName .resolved) + grown (.resolution namespaceName .notFound) +
      grown (.resolution namespaceName .error) + grown (.resolution namespaceName .aborted) =
        d.published.length ∧
    grown (.resolution namespaceName .notFound) + grown (.resolution namespaceName .error) +
      grown (.resolution namespaceName .aborted) = stats.failures.toNat := by
  intro d stats evicted forgotten grown
  have hbalanced : d.Balanced bound evicted forgotten :=
    (opened_balanced namespaceName bound directory).run es
  have hbooked : d.Booked namespaceName outcome :=
    (opened_booked namespaceName bound directory).run (opened_tracked _ _ _) es
  have hmet (r : LookupResult) : (stats.met r).toNat = d.met r := by
    rw [hbooked.met_eq, UInt64.toNat_ofNat_of_lt' (hlimits r)]
  have hlength := hbalanced.tracked.length_started
  have hpublished := hbalanced.length_published
  obtain ⟨hfailures, hended⟩ := d.ended_add outcome
  -- No more is published than was missed, so the other counters do not run over either.
  have hlimit : d.published.length < UInt64.size := by
    have hmisses : d.met .miss < UInt64.size := hlimits .miss
    rw [← hbooked.started_eq] at hmisses
    omega
  have hfailed : stats.failures.toNat = d.failures outcome := by
    rw [hbooked.failures_eq]
    apply UInt64.toNat_ofNat_of_lt'
    omega
  have hevicted : stats.evictions.toNat = evicted.length := by
    rw [hbalanced.evictions_eq]
    apply UInt64.toNat_ofNat_of_lt'
    omega
  have hlookups (r : LookupResult) : grown (.lookup namespaceName r) = (stats.met r).toNat := by
    rw [hmet, ← hbooked.lookups_eq, ← Counter.grown_eq_count]
  have hfetches (k : FetchResult) : grown (.resolution namespaceName k) = d.ended outcome k := by
    rw [← hbooked.fetches_eq, ← Counter.grown_eq_count]
  refine ⟨?_, ⟨?_, hlength⟩, hfailed, ⟨hevicted, ?_⟩, hbalanced.count_started, ?_,
    ⟨hlookups .hit, hlookups .coalesced, hlookups .miss⟩, ?_, ?_⟩
  · have hcalls : (d.calls.map (·.fetch.id)).length = (es.filterMap Event.asked?).length :=
      congrArg List.length (calls_run (opened namespaceName bound directory) es)
    rw [List.length_map] at hcalls
    have hsum := d.met_add
    rw [← hmet, ← hmet, ← hmet] at hsum
    exact hsum.trans hcalls
  · rw [hbooked.started_eq, ← hmet]
    rfl
  · rw [hevicted, hpublished]
  · intro hbound hforgets id
    have hcount := hbalanced.count_started id
    rw [hbalanced.evicted_eq_nil hbound, show forgotten = [] from lostBy_eq_nil hforgets] at hcount
    rw [hcount]
    split <;> simp
  · rw [hfetches, hfetches, hfetches, hfetches]
    omega
  · rw [hfetches, hfetches, hfetches, hfailures, hfailed]

/-- In these fetches the entity of one id is not found, and the fetch of another one dies. -/
def mishaps : Fetch → FetchOutcome String := fun f =>
  if f.id = "b" then none else if f.id = "c" then some (.ok none) else some (.ok (some f.id))

/-- The entry of `a` is evicted for `c`, fetched again, and cleared. -/
def refetchingRun : List Event :=
  [.resolve "a", .finish ⟨"a", 1⟩, .resolve "a", .resolve "b", .resolve "b", .finish ⟨"b", 1⟩,
    .resolve "c", .finish ⟨"c", 1⟩, .invalidate "b", .resolve "a", .finish ⟨"a", 2⟩, .clear]

theorem refetched_after_eviction :
    let d := (opened "default" (some 2) namesakes).run mishaps refetchingRun
    (∀ r, d.met r < UInt64.size) ∧
    d.cache.stats = { hits := 1, coalesced := 1, misses := 4, failures := 2, evictions := 1 } ∧
    1 + 1 + 4 = (refetchingRun.filterMap Event.asked?).length ∧
    d.published.length = 0 + 1 + 3 ∧
    d.started.count "a" = 0 + 1 + 1 ∧
    Counter.grown d.resolver.log (.lookup "default" .miss) = 4 ∧
    Counter.grown d.resolver.log (.resolution "default" .notFound) +
      Counter.grown d.resolver.log (.resolution "default" .error) +
      Counter.grown d.resolver.log (.resolution "default" .aborted) = 2 := by
  intro d
  have hlimits : ∀ r, d.met r < UInt64.size := by
    intro r
    cases r <;> decide
  have hstats : d.cache.stats =
      { hits := 1, coalesced := 1, misses := 4, failures := 2, evictions := 1 } := by decide
  obtain ⟨hcalls, -, -, ⟨-, hpublished⟩, hstarted, -, ⟨-, -, hmisses⟩, -, hfailed⟩ :=
    counters_balance "default" (some 2) namesakes mishaps refetchingRun hlimits
  refine ⟨hlimits, hstats, ?_, hpublished.trans (by decide), (hstarted "a").trans (by decide),
    hmisses.trans (by decide), hfailed.trans (by decide)⟩
  exact hcalls

end Desk

end LedgerExplorer
