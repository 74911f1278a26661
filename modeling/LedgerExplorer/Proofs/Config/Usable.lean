import LedgerExplorer.Proofs.CommandLine.Results
import LedgerExplorer.Proofs.Page.Paging
import LedgerExplorer.Proofs.Session.Isolation

/-!
# Settings that can be used

Settings that pass the check fit together: the page size for those who ask for none lies within the
bound that the session puts on pages, and no bound is zero. So the sessions that are set up from them
take every query of the command line whose limit is in bounds.
-/

namespace LedgerExplorer

/-- The settings are there and within their bounds. -/
structure Config.Usable (c : Config) : Prop where
  baseUrl : Text.trim c.api.baseUrl ≠ ""
  namespaceName : Text.trim c.session.namespaceName ≠ ""
  maxPageSize : c.session.maxPageSize ≠ 0
  defaultPageSize : c.session.defaultPageSize ≠ 0 ∧
    c.session.defaultPageSize ≤ c.session.maxPageSize
  histogramBuckets : c.session.histogramBuckets ≠ 0 ∧ c.session.histogramBuckets ≤ 1000
  maxEntries : c.cache.maxEntries ≠ some 0

theorem one_le_toNat_iff {n : UInt64} : 1 ≤ n.toNat ↔ n ≠ 0 := by
  rw [Nat.one_le_iff_ne_zero, Ne, Ne, ← UInt64.toNat_inj, UInt64.toNat_zero]

theorem guard_eq_ok_iff {ε : Type} {p : Prop} [Decidable p] {e : ε} {next : Except ε Unit} :
    (if p then .error e else next) = .ok () ↔ ¬ p ∧ next = .ok () := by
  by_cases hp : p
  · simp [hp]
  · simp [hp]

theorem Config.validate_eq_ok_iff (c : Config) : c.validate = .ok () ↔ c.Usable := by
  have hchecks : c.validate = .ok () ↔
      Text.trim c.api.baseUrl ≠ "" ∧ Text.trim c.session.namespaceName ≠ "" ∧
      c.session.maxPageSize ≠ 0 ∧
      (c.session.defaultPageSize ≠ 0 ∧ c.session.defaultPageSize ≤ c.session.maxPageSize) ∧
      (c.session.histogramBuckets ≠ 0 ∧ c.session.histogramBuckets ≤ 1000) ∧
      c.cache.maxEntries ≠ some 0 := by
    unfold validate
    simp only [bind, Except.bind, pure, Except.pure, throw, throwThe, MonadExceptOf.throw,
      guard_eq_ok_iff, not_or, UInt64.not_lt, and_true]
  rw [hchecks]
  constructor
  · rintro ⟨hurl, hname, hmax, hdefault, hbuckets, hentries⟩
    exact ⟨hurl, hname, hmax, hdefault, hbuckets, hentries⟩
  · rintro ⟨hurl, hname, hmax, hdefault, hbuckets, hentries⟩
    exact ⟨hurl, hname, hmax, hdefault, hbuckets, hentries⟩

/-! ## Queries -/

/-- The query for a page of a collection that is narrowed by filters and by a range. -/
def Collection.query (c : Collection) (limit page : UInt64) (drafts : List FilterDraft)
    (range : Option DateRange) : PageQuery :=
  let q := drafts.foldl PageQuery.addFilter ((PageQuery.first c.path limit).page page)
  match range with
  | none => q
  | some r => q.within r

theorem PageQuery.foldl_addFilter (q : PageQuery) (drafts : List FilterDraft) :
    drafts.foldl addFilter q = { q with filters := q.filters ++ drafts } := by
  induction drafts generalizing q with
  | nil => simp
  | cons d drafts ih => simp [ih, addFilter]

theorem Collection.entityPath_query (c : Collection) (limit page : UInt64)
    (drafts : List FilterDraft) (range : Option DateRange) :
    (c.query limit page drafts range).entityPath = c.path ∧
      (c.query limit page drafts range).limit = limit := by
  unfold query
  rw [PageQuery.foldl_addFilter]
  cases range <;> exact ⟨rfl, rfl⟩

theorem Collection.trimSlashes_path_ne (c : Collection) : Text.trimSlashes c.path ≠ "" := by
  cases c <;> decide

/-- No window starts before the first second of the clock once the clock has run for thirty days. -/
theorem DateRange.isSome_start? {now : Instant}
    (h : Instant.minSeconds + last30Days.seconds ≤ now.seconds) (r : DateRange) :
    (r.start? now).isSome := by
  have hlength : r.seconds ≤ last30Days.seconds := by cases r <;> decide
  have hcounted : now.seconds ≤ now.counted := by
    unfold Instant.counted
    split <;> omega
  have hstart : Instant.minSeconds ≤ now.counted - r.seconds := by omega
  simp [start?, hstart]

theorem PageRequest.build_of_limit_outside {q : PageQuery} {maxLimit : UInt64}
    (namespaceName : String) (now : Instant) (hentity : Text.trimSlashes q.entityPath ≠ "")
    (hlimit : ¬ (1 ≤ q.limit.toNat ∧ q.limit ≤ maxLimit)) :
    build namespaceName q now maxLimit =
      .error (.limitOutside q.limit.toNat maxLimit.toNat) := by
  have houtside : q.limit = 0 ∨ maxLimit < q.limit := by
    rwa [not_and_or, UInt64.not_le, one_le_toNat_iff, not_not] at hlimit
  unfold build
  rw [if_neg hentity, if_pos houtside]
  rfl

namespace CommandLine

variable {files : String → Except FileError String} {replies : String → HttpReply}

/-- What the command line makes a query of: the limit that was typed, or else the page size of the
settings, and everything else as it was typed. -/
theorem queryOf_eq_query {coll : Collection} {paging : Paging} {c : Config} {q : PageQuery}
    (h : result files replies (queryOf coll paging c) = .ok q) :
    ∃ drafts range, q =
      coll.query (paging.limit.getD c.session.defaultPageSize) paging.page drafts range := by
  unfold queryOf at h
  obtain ⟨drafts, -, h⟩ := result_bind_eq_ok_iff.1 h
  refine ⟨drafts, ?_⟩
  cases hrange : paging.range with
  | none =>
    rw [hrange] at h
    cases h
    exact ⟨none, rfl⟩
  | some name =>
    rw [hrange] at h
    obtain ⟨range, -, h⟩ := result_bind_eq_ok_iff.1 h
    cases h
    exact ⟨some range, rfl⟩

theorem validate_of_loadConfig {env : Environment} {common : Common} {c : Config}
    (h : result files replies (loadConfig env common) = .ok c) : c.validate = .ok () := by
  unfold loadConfig at h
  obtain ⟨read, -, h⟩ := result_bind_eq_ok_iff.1 h
  obtain ⟨_, hchecked, h⟩ := result_bind_eq_ok_iff.1 h
  cases h
  rw [result_orFail] at hchecked
  revert hchecked
  cases Config.validate _ with
  | error e => nofun
  | ok _ => exact fun _ => rfl

end CommandLine

/-! ## Sessions -/

namespace Config

variable {c : Config} {now : Instant}

theorem Usable.maxPageSize_pager (h : c.Usable) : c.pager.maxPageSize = c.session.maxPageSize := by
  have hpos : 1 ≤ c.session.maxPageSize := one_le_toNat_iff.2 h.maxPageSize
  change (if c.session.maxPageSize ≤ 1 then 1 else c.session.maxPageSize) = _
  split
  · next hle => exact UInt64.le_antisymm hpos hle
  · rfl

/-- A session of these settings takes exactly the queries whose limit is in bounds. -/
theorem Usable.describe_query (h : c.Usable)
    (hnow : Instant.minSeconds + DateRange.last30Days.seconds ≤ now.seconds) {coll : Collection}
    {q : PageQuery} (hpath : q.entityPath = coll.path) :
    if 1 ≤ q.limit.toNat ∧ q.limit ≤ c.session.maxPageSize then
      ∃ request, c.pager.describe q now = .ok request
    else c.pager.describe q now =
      .error (.limitOutside q.limit.toNat c.session.maxPageSize.toNat) := by
  have hentity : Text.trimSlashes q.entityPath ≠ "" := hpath ▸ coll.trimSlashes_path_ne
  unfold Pager.describe
  rw [h.maxPageSize_pager]
  split
  · next hin =>
    obtain ⟨request, hrequest, -⟩ := PageRequest.exists_build c.pager.namespaceName hentity
      (fun r _ => r.isSome_start? hnow) hin.1 hin.2
    exact ⟨request, hrequest⟩
  · next hout => exact PageRequest.build_of_limit_outside _ now hentity hout

/-- Settings that the command line goes by have passed the check. Whoever sets sessions up from
settings that pass it gets one whose cache is unbounded or has room, and these sessions take every query
for a page of the size that the settings give, and a query with a limit of its own exactly if that is at
least one and at most the greatest size of a page. -/
theorem checked_settings_usable :
    (∀ files replies env common c,
      CommandLine.result files replies (CommandLine.loadConfig env common) = .ok c →
        c.validate = .ok ()) ∧
    ∀ (c : Config) (now : Instant), c.validate = .ok () →
      Instant.minSeconds + DateRange.last30Days.seconds ≤ now.seconds →
      ∃ s : Session Record TokenPool, c.poolSession now = .ok s ∧
        (∃ r, s.resolver = some r ∧ r.cache.bound = c.cache.maxEntries ∧
          ∀ n ∈ r.cache.bound, 1 ≤ n.toNat) ∧
        (∀ files replies coll paging q,
          CommandLine.result files replies (CommandLine.queryOf coll paging c) = .ok q →
            ∃ drafts range, q =
              coll.query (paging.limit.getD c.session.defaultPageSize) paging.page drafts range) ∧
        ∀ t ∈ [s, c.plainSession now], ∀ (coll : Collection) (page : UInt64)
            (drafts : List FilterDraft) (range : Option DateRange),
          let describe (limit : UInt64) := t.pager.describe (coll.query limit page drafts range) t.now
          (∃ request, describe c.session.defaultPageSize = .ok request) ∧
          ∀ limit, if 1 ≤ limit.toNat ∧ limit ≤ c.session.maxPageSize then
              ∃ request, describe limit = .ok request
            else describe limit = .error (.limitOutside limit.toNat c.session.maxPageSize.toNat) := by
  refine ⟨fun _ _ _ _ _ => CommandLine.validate_of_loadConfig, fun c now hvalid hnow => ?_⟩
  have husable : c.Usable := c.validate_eq_ok_iff.1 hvalid
  refine ⟨_, Session.poolSession_eq c now, ⟨_, rfl, rfl, fun n hn => ?_⟩,
    fun _ _ _ _ _ => CommandLine.queryOf_eq_query, ?_⟩
  · exact one_le_toNat_iff.2 fun hzero => husable.maxEntries (hzero ▸ hn)
  · intro t ht coll page drafts range describe
    have hlimit (limit : UInt64) : if 1 ≤ limit.toNat ∧ limit ≤ c.session.maxPageSize then
        ∃ request, describe limit = .ok request
      else describe limit = .error (.limitOutside limit.toNat c.session.maxPageSize.toNat) := by
      obtain ⟨hpath, hsame⟩ := coll.entityPath_query limit page drafts range
      have hquery := husable.describe_query hnow hpath
      rw [hsame] at hquery
      have hpager : t.pager = c.pager ∧ t.now = now := by
        rcases List.mem_cons.1 ht with rfl | ht
        · exact ⟨rfl, rfl⟩
        · cases List.mem_singleton.1 ht
          exact ⟨rfl, rfl⟩
      simpa only [describe, hpager.1, hpager.2] using hquery
    refine ⟨?_, hlimit⟩
    have hdefault := hlimit c.session.defaultPageSize
    rwa [if_pos ⟨one_le_toNat_iff.2 husable.defaultPageSize.1, husable.defaultPageSize.2⟩] at hdefault

/-- The environment sets the page size to the greatest one. -/
theorem overridden_settings_usable :
    let env : Environment := { pageSize := some "+100" }
    let c : Config := { session := { defaultPageSize := 100 } }
    CommandLine.result (fun _ => .error .missing) (fun _ => .unreachable)
      (CommandLine.loadConfig env {}) = .ok c ∧
    ∃ s : Session Record TokenPool, c.poolSession ⟨1700000000, 0⟩ = .ok s ∧
      ∃ request, s.pager.describe (Collection.events.query 100 3 [] (some .last7Days)) s.now =
        .ok request := by
  intro env c
  obtain ⟨hchecked, husable⟩ := checked_settings_usable
  have hload : CommandLine.result (fun _ => .error .missing) (fun _ => .unreachable)
      (CommandLine.loadConfig env {}) = .ok c := by decide +kernel
  obtain ⟨s, hs, -, -, haccepts⟩ :=
    husable c ⟨1700000000, 0⟩ (hchecked _ _ _ _ _ hload) (by decide)
  exact ⟨hload, s, hs, (haccepts s List.mem_cons_self .events 3 [] (some .last7Days)).1⟩

end Config

end LedgerExplorer
