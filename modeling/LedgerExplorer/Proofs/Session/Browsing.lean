import LedgerExplorer.Proofs.Page.Paging
import LedgerExplorer.Proofs.Session.Requests
import LedgerExplorer.Proofs.Session.Stages

/-!
# Going through a collection

Somebody asks for the first page of a query and goes on with the next one as long as a page says
that there are more records. The session serves others meanwhile, and looks references up. The pages
before one show the records in front of it, which is what carries the induction over the pages.
-/

namespace LedgerExplorer

variable {R E : Type}

namespace Session

variable {s s₀ t : Session R E} {source : String → String → Reply} {rows : RowKind R}
  {q : PageQuery} {r : Result R E}

/-- A caller asks for a page, a source replies to its request, and the caller ends with a result.
Anything may happen before and after the reply but that the caller is aborted. -/
def Fetches (source : String → String → Reply) (rows : RowKind R) (q : PageQuery) (s : Session R E)
    (r : Result R E) (t : Session R E) : Prop :=
  ∃ (es₁ es₂ : List (Event R)) (path query : String),
    let n := s.nextCaller
    let asked := (s.step (.start (.page q rows none))).run es₁
    .abort n ∉ es₁ ++ es₂ ∧ (∀ reply, .receive n reply ∉ es₁) ∧
    asked.requests n = [(path, query)] ∧
    t = (asked.step (.receive n (source path query))).run es₂ ∧ r ∈ t.results n

/-- Pages of a query that were fetched one after the other, from the first on, each because there
were more records behind the last one, and the session after that. -/
inductive Browsed (source : String → String → Reply) (rows : RowKind R) (q : PageQuery)
    (s₀ : Session R E) : List (Page R E) → Session R E → Prop
  | start : Browsed source rows q s₀ [] s₀
  | next {pages : List (Page R E)} {s t : Session R E} {p : Page R E} :
      Browsed source rows q s₀ pages s → (∀ last ∈ pages.getLast?, last.hasMore) →
      Fetches source rows (q.page (UInt64.ofNat pages.length)) s (.page p) t →
      Browsed source rows q s₀ (pages ++ [p]) t

/-- A session that was opened for a pager and has run since. -/
structure Ready (pager : Pager) (now : Instant) (s : Session R E) : Prop where
  numbered : s.Numbered
  singleFlight : s.SingleFlight
  requests : s.requests s.nextCaller = []
  setting : s.pager = pager ∧ s.now = now

theorem ready_run (pager : Pager) (now : Instant) (cache : Option (Option UInt64 × Directory E))
    (es : List (Event R)) : Ready pager now ((opened pager now cache : Session R E).run es) := by
  have hopened := opened_numbered (R := R) pager now cache
  obtain ⟨hpager, hnow, -⟩ := hopened.setting_run es
  have hrequests := requests_run_eq_nil (R := R) (s := opened pager now cache) (fun _ _ => rfl)
    (Nat.le_refl (((opened pager now cache).run es).nextCaller))
  exact ⟨hopened.run es, (opened_singleFlight pager now cache).run es, hrequests, hpager, hnow⟩

theorem Fetches.run (h : Fetches source rows q s r t) : ∃ es, t = s.run es := by
  obtain ⟨es₁, es₂, path, query, -, -, -, rfl, -⟩ := h
  let reply : Event R := .receive s.nextCaller (source path query)
  refine ⟨.start (.page q rows none) :: (es₁ ++ reply :: es₂), ?_⟩
  unfold run
  rw [List.foldl_cons, List.foldl_append]
  rfl

theorem Browsed.run {pages : List (Page R E)} (h : Browsed source rows q s₀ pages s) :
    ∃ es, s = s₀.run es := by
  induction h with
  | start => exact ⟨[], rfl⟩
  | next _ _ hfetches ih =>
    obtain ⟨es, rfl⟩ := ih
    obtain ⟨es', rfl⟩ := hfetches.run
    exact ⟨es ++ es', (List.foldl_append ..).symm⟩

section Fetching

variable {pager : Pager} {now : Instant} {request : PageRequest} {records : List R}

theorem requests_start_page (hrequests : s.requests s.nextCaller = []) (fetch : PageFetch R)
    (hfetch : PageFetch.start s.pager q s.now rows (s.isCancelled (.ofToken none)) = .ok fetch) :
    (s.start (.page q rows none)).requests s.nextCaller =
      [(fetch.request.path, fetch.request.query)] := by
  rw [start_page, hfetch, requests_call, Call.request?, if_pos rfl]
  exact congrArg (· ++ _) hrequests

/-- What a fetch of a page ends with: a page that shows what the request asks for. -/
def Answers (request : PageRequest) (records : List R) (r : Result R E) : Prop :=
  ∃ p, r = .page p ∧ p.Shows records request.offset.toNat request.limit.toNat

theorem answers_enriched (hlength : records.length < UInt64.size) {n : Nat} {token : Option String}
    {known : String → Option (Option E)} : Answers request records (.page (Visit.enriched
      ⟨n, token, ⟨request, rows⟩, .window records request.offset request.limit⟩ known)) :=
  ⟨_, rfl, Page.shows_enriched hlength _ _ _ known⟩

/-- A request that was sent is replied to with what it asks for. Its caller ends with that at once if
there is no cache, and otherwise as soon as the references have their answers. -/
theorem Ready.replied (h : Ready pager now s) (hrequest : pager.describe q now = .ok request)
    (hsupplies : Supplies source request.path rows.decode records)
    (hlength : records.length < UInt64.size) (es : List (Event R))
    (habort : .abort s.nextCaller ∉ es) (hreceive : ∀ reply, .receive s.nextCaller reply ∉ es) :
    let asked := (s.step (.start (.page q rows none))).run es
    let replied := asked.step (.receive s.nextCaller (source request.path request.query))
    let v : Visit R := ⟨s.nextCaller, none, ⟨request, rows⟩,
      .window records request.offset request.limit⟩
    asked.requests s.nextCaller = [(request.path, request.query)] ∧
    replied.Numbered ∧ replied.SingleFlight ∧
    ((∃ r, Answers request records r ∧ replied.Ended s.nextCaller r) ∨
      ∃ directory, replied.directory? = some directory ∧
        replied.Performs (v.errand (· = false)) directory v.references fun _ => none) := by
  intro asked replied v
  obtain ⟨hpager, hnow⟩ := h.setting
  have hfetch : PageFetch.start s.pager q s.now rows (s.isCancelled (.ofToken none)) =
      .ok ⟨request, rows⟩ := fetch_of_describe (by rw [hpager, hnow, hrequest]) rows nofun
  have hstarted := h.numbered.sent hfetch
  have hrequests : (s.step (.start (.page q rows none))).requests s.nextCaller =
      [(request.path, request.query)] := requests_start_page h.requests ⟨request, rows⟩ hfetch
  have hsent : asked.Sent s.nextCaller (.ofToken none) ⟨request, rows⟩ := hstarted.run habort hreceive
  have hnumbered : asked.Numbered := (h.numbered.step _).run es
  obtain ⟨body, hbody, hpage⟩ := hsupplies _ _ _ request.paging?_query
  have hreply : PageFetch.receive ⟨request, rows⟩ (asked.isCancelled (.ofToken none))
      (source request.path request.query) = .ok (.window records request.offset request.limit) :=
    PageFetch.receive_of_ok (Reply.decode_eq_ok_iff.2 ⟨body, hbody, hpage⟩) _
  refine ⟨(requests_run hstarted.idle.next es).trans hrequests, hnumbered.step _,
    ((h.singleFlight.step _).run es).step _, ?_⟩
  cases hr : asked.resolver with
  | none => exact .inl ⟨_, answers_enriched hlength, hsent.ended_uncached hreply hr⟩
  | some r =>
    have hdirectory : asked.directory? = some r.directory :=
      congrArg (Option.map Resolver.directory) hr
    refine .inr ⟨r.directory, ?_, hsent.performs hreply rfl hdirectory⟩
    exact (hnumbered.setting_step _).2.2.trans hdirectory

/-- A fetch of a page ends with what was asked for. -/
theorem Ready.fetched (h : Ready pager now s) (hrequest : pager.describe q now = .ok request)
    (hsupplies : Supplies source request.path rows.decode records)
    (hlength : records.length < UInt64.size) (hfetches : Fetches source rows q s r t) :
    Answers request records r := by
  obtain ⟨es₁, es₂, path, query, habort, hreceive, hsent, rfl, hr⟩ := hfetches
  rw [List.mem_append, not_or] at habort
  obtain ⟨hrequests, -, hsingle, hreplied⟩ :=
    h.replied hrequest hsupplies hlength es₁ habort.1 hreceive
  rw [hrequests] at hsent
  cases hsent
  rcases hreplied with ⟨r', hanswers, hended⟩ | ⟨directory, -, hperforms⟩
  · rw [(hended.run es₂).results, List.mem_singleton] at hr
    rwa [hr]
  · have hrun := hperforms.run hsingle habort.2 fun _ _ _ => rfl
    rcases hrun.ended_or_waits with ⟨_, ⟨_, rfl, rfl⟩, (hended : Ended _ s.nextCaller _)⟩ |
      ⟨-, (hwaiting : Session.results _ s.nextCaller = [])⟩
    · rw [hended.results, List.mem_singleton] at hr
      rw [hr]
      exact answers_enriched hlength
    · rw [hwaiting] at hr
      cases hr

/-- A page can be fetched: once the reply has come, its lookups can all be made and replied to. -/
theorem Ready.exists_fetches (h : Ready pager now s) (hrequest : pager.describe q now = .ok request)
    (hsupplies : Supplies source request.path rows.decode records)
    (hlength : records.length < UInt64.size) : ∃ p t, Fetches source rows q s (.page p) t := by
  obtain ⟨hrequests, hnumbered, hsingle, hreplied⟩ :=
    h.replied hrequest hsupplies hlength [] List.not_mem_nil fun _ => List.not_mem_nil
  rcases hreplied with ⟨r, ⟨p, rfl, -⟩, hended⟩ | ⟨directory, hdirectory, hperforms⟩
  · exact ⟨p, _, [], [], request.path, request.query, List.not_mem_nil, fun _ => List.not_mem_nil,
      hrequests, rfl, hended.mem_results⟩
  · let ids := PageFetch.references ⟨request, rows⟩ (.window records request.offset request.limit)
    let replies : List (Event R) := List.replicate ids.length (.lookUp s.nextCaller) ++
      ids.map fun id => .learn id .crash
    have habort : .abort s.nextCaller ∉ replies := by simp [replies]
    have hrun := hperforms.run hsingle habort fun _ _ _ => rfl
    obtain ⟨_, ⟨_, rfl, rfl⟩, (hended : Ended _ s.nextCaller _)⟩ := hrun.ended fun id hid => by
      refine (congrArg Option.isSome (knownAfter_of_mem hid replies)).trans ?_
      have hlearn : .learn id .crash ∈ ids.map fun id => (.learn id .crash : Event R) :=
        List.mem_map_of_mem hid
      refine isSome_answerToLookup? (List.idxOf_lt_length_of_mem hid) hlearn fun es' => ?_
      obtain ⟨r, hr, -⟩ := exists_resolver ((hnumbered.setting_run es').2.2.trans hdirectory)
      exact hr ▸ rfl
    exact ⟨_, _, [], replies, request.path, request.query, habort, fun _ => List.not_mem_nil,
      hrequests, rfl, hended.mem_results⟩

end Fetching

/-- A query can be asked for page by page, and a source supplies its records. -/
structure Offers (source : String → String → Reply) (pager : Pager) (now : Instant)
    (rows : RowKind R) (q : PageQuery) (records : List R) : Prop where
  entity : Text.trimSlashes q.entityPath ≠ ""
  range : ∀ range ∈ q.dateRange, (range.start? now).isSome
  pos : 1 ≤ q.limit.toNat
  bound : q.limit ≤ pager.maxPageSize
  length : records.length < UInt64.size
  supplies : Supplies source
    ("/namespaces/" ++ pager.namespaceName ++ "/" ++ Text.trimSlashes q.entityPath) rows.decode
    records

section Offering

variable {pager : Pager} {now : Instant} {records : List R}

theorem Offers.describe (h : Offers source pager now rows q records) (k : UInt64) :
    ∃ request, pager.describe (q.page k) now = .ok request ∧
      Supplies source request.path rows.decode records ∧
      request.offset = (q.page k).offset ∧ request.limit = q.limit := by
  obtain ⟨request, hrequest, hpath, hoffset, hlimit⟩ :=
    PageRequest.exists_build pager.namespaceName (q := q.page k) h.entity h.range h.pos h.bound
  exact ⟨request, hrequest, hpath ▸ h.supplies, hoffset, hlimit⟩

/-- A page ends up as a window on the records. -/
theorem Offers.shows (h : Offers source pager now rows q records) (hs : Ready pager now s) {k : Nat}
    (hk : k < pageCount records.length q.limit.toNat)
    (hfetches : Fetches source rows (q.page (UInt64.ofNat k)) s r t) :
    ∃ p, r = .page p ∧ p.Shows records (k * q.limit.toNat) q.limit.toNat := by
  obtain ⟨request, hrequest, hsupplies, hoffset, hlimit⟩ := h.describe (UInt64.ofNat k)
  have hbound : k * q.limit.toNat < UInt64.size :=
    Nat.lt_of_le_of_lt (mul_le_of_lt_pageCount h.pos hk) h.length
  obtain ⟨p, hp, hshows⟩ := hs.fetched hrequest hsupplies h.length hfetches
  rw [hoffset, hlimit, PageQuery.toNat_offset_page h.pos hbound] at hshows
  exact ⟨p, hp, hshows⟩

theorem Offers.browsed (h : Offers source pager now rows q records)
    (hs₀ : ∀ es, Ready pager now (s₀.run es)) {pages : List (Page R E)}
    (hbrowsed : Browsed source rows q s₀ pages s) :
    pages.length ≤ pageCount records.length q.limit.toNat ∧
    pages.flatMap Page.records = records.take (pages.length * q.limit.toNat) ∧
    ((∀ last ∈ pages.getLast?, last.hasMore) ↔
      pages.length < pageCount records.length q.limit.toNat) := by
  induction hbrowsed with
  | start => exact ⟨Nat.zero_le _, by simp, iff_of_true nofun (pageCount_pos _ _)⟩
  | @next pages s t p hbefore hmore hfetches ih =>
    obtain ⟨-, hrecords, hlast⟩ := ih
    have hk := hlast.1 hmore
    obtain ⟨es, rfl⟩ := hbefore.run
    obtain ⟨p', hp, hshows⟩ := h.shows (hs₀ es) hk hfetches
    cases hp
    rw [List.length_append, List.length_singleton]
    refine ⟨hk, ?_, ?_⟩
    · rw [List.flatMap_append, List.flatMap_singleton, hrecords, hshows.shown, Nat.succ_mul,
        List.take_add]
    · rw [List.getLast?_concat, succ_lt_pageCount_iff h.pos, Nat.succ_mul,
        ← hshows.hasMore_iff (mul_le_of_lt_pageCount h.pos hk)]
      constructor
      · exact fun hall => hall p rfl
      · rintro hp last ⟨⟩
        exact hp

end Offering

/-- Going through the pages of a query shows every record once, in order. -/
theorem paging_covers_once (pager : Pager) (now : Instant)
    (cache : Option (Option UInt64 × Directory E)) (es₀ : List (Event R)) (q : PageQuery)
    (rows : RowKind R) (records : List R) (source : String → String → Reply)
    (h : Offers source pager now rows q records) :
    let count := max 1 ((records.length + q.limit.toNat - 1) / q.limit.toNat)
    (∀ p : Page R E, p.hasMore ↔ p.offset.toNat + p.rows.length < p.total.toNat) ∧
    ∀ (pages : List (Page R E)) (s : Session R E),
      Browsed source rows q ((opened pager now cache).run es₀) pages s →
      pages.flatMap Page.records = records.take (pages.length * q.limit.toNat) ∧
      pages.length ≤ count ∧
      ((∀ last ∈ pages.getLast?, last.hasMore) ↔ pages.length < count) ∧
      (pages.length = count → pages.flatMap Page.records = records) ∧
      (pages.length < count →
        let next := q.page (UInt64.ofNat pages.length)
        (∃ p t, Fetches source rows next s (.page p) t) ∧
        ∀ r t, Fetches source rows next s r t → ∃ p, r = .page p) := by
  intro count
  have hready (es : List (Event R)) :
      Ready pager now (((opened pager now cache : Session R E).run es₀).run es) := by
    have hrun := ready_run (R := R) pager now cache (es₀ ++ es)
    rwa [Session.run, List.foldl_append] at hrun
  refine ⟨Page.hasMore_iff, fun pages s hbrowsed => ?_⟩
  obtain ⟨hlength, hrecords, hmore⟩ := h.browsed hready hbrowsed
  refine ⟨hrecords, hlength, hmore, fun hall => ?_, fun hlt => ?_⟩
  · rw [hrecords, hall]
    exact List.take_of_length_le (length_le_pageCount_mul h.pos)
  · obtain ⟨es, rfl⟩ := hbrowsed.run
    obtain ⟨request, hrequest, hsupplies, -, -⟩ := h.describe (UInt64.ofNat pages.length)
    refine ⟨(hready es).exists_fetches hrequest hsupplies h.length, fun r t hfetches => ?_⟩
    obtain ⟨p, hp, -⟩ := h.shows (hready es) hlt hfetches
    exact ⟨p, hp⟩

/-- Records that are the ids they refer to. -/
def shelved : RowKind String where
  decode := Decoder.string
  reference? record := some record

def shelf : List String := ["a", "b", "a", "c", "d"]

def shelfQuery : PageQuery where
  entityPath := "/tokens/transfers"
  limit := 2

/-- A source that replies with what the query string asks for. -/
def shelfSource (_path query : String) : Reply :=
  match paging? query with
  | some (limit, offset) =>
    let items := (shelf.drop offset.toNat).take limit.toNat
    .body (.object [("items", .array (items.map .string)), ("total", .natural shelf.length)])
  | none => .crash

theorem items_string (m : Medium) (xs : List String) :
    Decoder.items Decoder.string m (Json.readings (xs.map .string)) = .ok xs := by
  induction xs with
  | nil => rfl
  | cons x xs ih =>
    rw [List.map_cons, Json.readings, Decoder.items, ih]
    rfl

theorem offers_shelf : Offers shelfSource { namespaceName := "default" } ⟨1700000000, 0⟩ shelved
    shelfQuery shelf where
  entity := by decide
  range := nofun
  pos := by decide
  bound := by decide
  length := by decide
  supplies := by
    intro query limit offset hpaging
    unfold shelfSource
    rw [hpaging]
    refine ⟨_, rfl, RawPage.decoder_eq_ok ?_ rfl⟩
    rw [Json.reading, Decoder.list]
    change (Decoder.items Decoder.string .value _).bind _ = _
    rw [items_string]
    rfl

theorem shelf_browsed :
    let s₀ : Session String String := opened { namespaceName := "default" } ⟨1700000000, 0⟩
      (some (none, ⟨id, Decoder.string⟩))
    ∃ pages s, Browsed shelfSource shelved shelfQuery s₀ pages s ∧ pages.length = 3 ∧
      pages.flatMap Page.records = ["a", "b", "a", "c", "d"] := by
  intro s₀
  obtain ⟨-, hbrowse⟩ := paging_covers_once (R := String) (E := String)
    { namespaceName := "default" } ⟨1700000000, 0⟩ (some (none, ⟨id, Decoder.string⟩)) [] shelfQuery
    shelved shelf shelfSource offers_shelf
  have hnext {pages : List (Page String String)} {s : Session String String}
      (h : Browsed shelfSource shelved shelfQuery s₀ pages s) (hlt : pages.length < 3) :
      ∃ p t, Browsed shelfSource shelved shelfQuery s₀ (pages ++ [p]) t := by
    obtain ⟨-, -, hmore, -, hgo⟩ := hbrowse pages s h
    obtain ⟨⟨p, t, hfetches⟩, -⟩ := hgo hlt
    exact ⟨p, t, h.next (hmore.2 hlt) hfetches⟩
  obtain ⟨p, s₁, hfirst⟩ := hnext .start (by decide)
  obtain ⟨p', s₂, hsecond⟩ := hnext hfirst (by simp)
  obtain ⟨p'', s₃, hthird⟩ := hnext hsecond (by simp)
  obtain ⟨-, -, -, hall, -⟩ := hbrowse _ _ hthird
  have hcount : max 1 ((shelf.length + shelfQuery.limit.toNat - 1) / shelfQuery.limit.toNat) = 3 :=
    by decide
  exact ⟨_, _, hthird, rfl, hall hcount.symm⟩

end Session

end LedgerExplorer
