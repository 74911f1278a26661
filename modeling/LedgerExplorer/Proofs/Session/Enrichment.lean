import LedgerExplorer.Proofs.Page.QueryString
import LedgerExplorer.Proofs.Session.Stages

/-!
# Pages with their references

A page that is asked for goes through two waits: for its body, and for the answers to the ids that its
records refer to. Each answer is the one that the cache has when the body comes, or the reply that ends
the lookup under way, so that the page is settled by what became of its own ids.
-/

namespace LedgerExplorer

variable {R E : Type}

namespace Session

variable {s : Session R E} {n : Nat} {token : Option String}

theorem Numbered.unfired_run (h : s.Numbered) (hunfired : ∀ name ∈ token, name ∉ s.fired)
    {es : List (Event R)} (hes : ∀ name ∈ token, .fire name ∉ es) :
    ∀ name ∈ token, name ∉ (s.run es).fired :=
  fun name hname => h.not_fired_run (hunfired name hname) (hes name hname)

/-- A page of a query is asked for, its token has not fired, and it waits for its body. -/
theorem Numbered.requested (h : s.Numbered) (rows : RowKind R) {q : PageQuery}
    {request : PageRequest} (hrequest : s.pager.describe q s.now = .ok request)
    (hunfired : ∀ name ∈ token, name ∉ s.fired) :
    let started := s.step (.start (.page q rows token))
    started.Sent s.nextCaller (.ofToken token) ⟨request, rows⟩ ∧ started.resolver = s.resolver ∧
      ∀ name ∈ token, name ∉ started.fired := by
  intro started
  have hstart : started = _ := start_page_of_describe hrequest rows token hunfired
  refine ⟨h.sent (fetch_of_describe hrequest rows hunfired), ?_, ?_⟩
  · rw [hstart]
    rfl
  · rw [hstart]
    exact hunfired

section Received

variable {fetch : PageFetch R} {reply : Reply} {page : RawPage R} {es : List (Event R)}

/-- With a cache the references of a page are collected as soon as its body comes. -/
theorem Sent.collects_unfired (h : s.Sent n (.ofToken token) fetch) (hnumbered : s.Numbered)
    (hreply : fetch.receive (s.isCancelled (.ofToken token)) reply = .ok page)
    (hunfired : ∀ name ∈ token, name ∉ s.fired) (hes : ∀ name ∈ token, .fire name ∉ es)
    {r : Resolver E} (hr : s.resolver = some r) :
    let received := s.step (.receive n reply)
    let e : Errand R E := Visit.errand ⟨n, token, fetch, page⟩ (· = false)
    received.Performs e r.directory (fetch.references page) (fun _ => none) ∧
      ∀ es₁ es₂, es = es₁ ++ es₂ → e.Live (received.run es₁).fired := by
  refine ⟨h.performs hreply rfl (congrArg (Option.map Resolver.directory) hr), ?_⟩
  rintro es₁ es₂ rfl
  refine (isCancelled_ofToken _ token).symm.trans (isCancelled_of_unfired ?_)
  refine (hnumbered.step _).unfired_run (fun name hname => ?_) fun name hname hfire =>
    hes name hname (List.mem_append_left _ hfire)
  exact hnumbered.not_fired_step (hunfired name hname) nofun

/-- A page whose body has come makes one lookup after the other. -/
theorem Sent.looks_up (h : s.Sent n (.ofToken token) fetch) (hnumbered : s.Numbered)
    (hs : s.SingleFlight)
    (hreply : fetch.receive (s.isCancelled (.ofToken token)) reply = .ok page)
    (hunfired : ∀ name ∈ token, name ∉ s.fired) (hes : ∀ name ∈ token, .fire name ∉ es)
    (habort : .abort n ∉ es) :
    let t := (s.step (.receive n reply)).run es
    let next := (fetch.references page)[es.countP (·.looksUp n)]?
    (next = none → t.step (.lookUp n) = t) ∧ ∀ id, next = some id →
      (t.step (.lookUp n)).resolver = t.resolver.map fun r => (r.resolve n id).2 := by
  intro t next
  cases hr : s.resolver with
  | none =>
    have hended : t.Ended n _ := (h.ended_uncached hreply hr).run es
    have hstill : t.step (.lookUp n) = t := proceed_of_caller?_eq_none hended.caller
    have hresolver : t.resolver = none :=
      (hnumbered.step (.receive n reply)).uncached_run ((resolver_receive s n reply).trans hr) es
    refine ⟨fun _ => hstill, fun id _ => ?_⟩
    rw [hstill, hresolver]
    rfl
  | some r =>
    obtain ⟨hperforms, hlive⟩ := h.collects_unfired hnumbered hreply hunfired hes hr
    obtain ⟨hnone, hnext⟩ := hperforms.run_lookUp (hs.step _) habort hlive
    refine ⟨hnone, fun id hid => ?_⟩
    obtain ⟨r', c, hr', -, hstep⟩ := hnext id hid
    rw [show t.step (.lookUp n) = _ from hstep, resolver_settle, show t.resolver = _ from hr']
    rfl

/-- A page whose body has come ends with the last answer, at once if there is no cache, and does not
end before. -/
theorem Sent.enriches (h : s.Sent n (.ofToken token) fetch) (hnumbered : s.Numbered)
    (hs : s.SingleFlight)
    (hreply : fetch.receive (s.isCancelled (.ofToken token)) reply = .ok page)
    (hunfired : ∀ name ∈ token, name ∉ s.fired) (hes : ∀ name ∈ token, .fire name ∉ es)
    (habort : .abort n ∉ es) :
    let received := s.step (.receive n reply)
    let ids := fetch.references page
    let known id := received.answerToLookup? n id (ids.idxOf id) es
    (s.resolver = none ∨ (∀ id ∈ ids, (known id).isSome) →
      (received.run es).results n = [.page (Visit.enriched ⟨n, token, fetch, page⟩ known)]) ∧
    (s.resolver ≠ none → (∃ id ∈ ids, known id = none) → (received.run es).results n = []) := by
  intro received ids known
  cases hr : s.resolver with
  | none =>
    have hresolver : ∀ es', (received.run es').resolver = none :=
      (hnumbered.step (.receive n reply)).uncached_run ((resolver_receive s n reply).trans hr)
    have hknown : known = fun _ => none :=
      funext fun id => answerToLookup?_uncached hresolver _ es
    refine ⟨fun _ => ?_, fun hsome => absurd rfl hsome⟩
    rw [hknown]
    exact ((h.ended_uncached hreply hr).run es).results
  | some r =>
    obtain ⟨hperforms, hlive⟩ := h.collects_unfired hnumbered hreply hunfired hes hr
    have hcollected := hperforms.run (hs.step _) habort hlive
    have hsame (id : String) (hid : id ∈ ids) :
        known id = received.knownAfter n r.directory ids (fun _ => none) es id :=
      (knownAfter_of_mem hid es).symm
    have hrun := hcollected.congr hsame
    refine ⟨fun hall => ?_, fun _ hsome => ?_⟩
    · obtain ⟨_, ⟨_, rfl, rfl⟩, hended⟩ := hrun.ended (hall.resolve_left nofun)
      exact hended.results
    · obtain ⟨id, hid, hnone⟩ := hsome
      refine (hrun.collecting fun hall => ?_).1.results
      exact Option.isSome_iff_ne_none.1 (hall id hid) hnone

end Received

/-- A page whose body can be decoded makes one lookup for every different id that its records refer to,
one after the other, and whatever else happens may come between them. Once all of them are answered its
caller ends with the page and with nothing else: every record in its place, with the entity of its id
if that is what the lookup of the id came to, and with the id otherwise. Without a cache it ends so at
once, and until the last answer is there it does not end. -/
theorem page_enrichment_exact (pager : Pager) (now : Instant)
    (cache : Option (Option UInt64 × Directory E)) (es₀ es₁ es₂ : List (Event R)) (q : PageQuery)
    (rows : RowKind R) (token : Option String) {request : PageRequest} {body : Json}
    {page : RawPage R} (hrequest : pager.describe q now = .ok request)
    (hpage : body.decodeAs (RawPage.decoder rows.decode) = .ok page)
    (htoken : ∀ name ∈ token, .fire name ∉ es₀ ++ es₁ ++ es₂) :
    let before : Session R E := (opened pager now cache).run es₀
    let n := before.nextCaller
    let started := before.step (.start (.page q rows token))
    let asked := started.run es₁
    let received := asked.step (.receive n (.body body))
    let ids := distinct (page.items.filterMap rows.reference?)
    let known id := received.answerToLookup? n id (ids.idxOf id) es₂
    .abort n ∉ es₁ ++ es₂ → (∀ reply, .receive n reply ∉ es₁) →
      ids.Nodup ∧ (∀ id, id ∈ ids ↔ ∃ record ∈ page.items, rows.reference? record = some id) ∧
      started.resolver = before.resolver ∧ received.resolver = asked.resolver ∧
      (∀ earlier later, es₂ = earlier ++ .lookUp n :: later →
        let t := received.run earlier
        let next := ids[earlier.countP (·.looksUp n)]?
        (next = none → t.step (.lookUp n) = t) ∧
        ∀ id, next = some id →
          (t.step (.lookUp n)).resolver = t.resolver.map (fun r => (r.resolve n id).2) ∧
          known id = t.resolver.bind (·.answerAfter? id later)) ∧
      (cache = none ∨ (∀ id ∈ ids, (known id).isSome) →
        (received.run es₂).results n =
          [.page (page.enriched rows.reference? q.offset q.limit known)]) ∧
      (cache ≠ none → (∃ id ∈ ids, known id = none) → (received.run es₂).results n = []) := by
  intro before n started asked received ids known habort hreceive
  rw [List.mem_append, not_or] at habort
  have hmem {es : List (Event R)} (hsub : es ⊆ es₀ ++ es₁ ++ es₂) :
      ∀ name ∈ token, .fire name ∉ es := fun name hname hfire => htoken name hname (hsub hfire)
  have hopened := opened_numbered (R := R) pager now cache
  have hbefore : before.Numbered := hopened.run es₀
  obtain ⟨hpager, hnow, -⟩ := hopened.setting_run es₀
  have hdescribe : before.pager.describe q before.now = .ok request := by
    rw [hpager, hnow]
    exact hrequest
  obtain ⟨hstarted, hstartedResolver, hstartedUnfired⟩ := hbefore.requested rows hdescribe
    (hopened.unfired_run (fun _ _ => List.not_mem_nil) (hmem fun e he => by simp [he]))
  have hunfired : ∀ name ∈ token, name ∉ asked.fired :=
    (hbefore.step _).unfired_run hstartedUnfired (hmem fun e he => by simp [he])
  have hasked : asked.Sent n (.ofToken token) ⟨request, rows⟩ := hstarted.run habort.1 hreceive
  have haskedNumbered : asked.Numbered := (hbefore.step _).run es₁
  have hreply : PageFetch.receive ⟨request, rows⟩ (asked.isCancelled (.ofToken token)) (.body body) =
      .ok page := by
    rw [isCancelled_of_unfired hunfired,
      PageFetch.receive_of_ok (Reply.decode_eq_ok_iff.2 ⟨body, rfl, hpage⟩)]
    rfl
  have hsingle : asked.SingleFlight := (((opened_singleFlight pager now cache).run es₀).step _).run es₁
  have hcache : asked.resolver = none ↔ cache = none := by
    have hdirectory : asked.directory? = cache.map Prod.snd := by
      rw [((hbefore.step _).setting_run es₁).2.2, (hbefore.setting_step _).2.2,
        (hopened.setting_run es₀).2.2]
      cases cache <;> rfl
    rw [← Option.map_eq_none_iff, show asked.resolver.map _ = _ from hdirectory,
      Option.map_eq_none_iff]
  obtain ⟨-, -, -, -, hoffset, hlimit⟩ := PageRequest.build_ok hrequest
  refine ⟨nodup_distinct _, fun id => by rw [mem_distinct, List.mem_filterMap], hstartedResolver,
    resolver_receive asked n _, fun earlier later hes => ?_, ?_⟩
  · have hsub {e : Event R} (he : e ∈ earlier) : e ∈ es₂ := hes ▸ List.mem_append_left _ he
    obtain ⟨hnone, hnext⟩ := hasked.looks_up haskedNumbered hsingle hreply hunfired
      (fun name hname hfire => hmem (fun e he => by simp [he]) name hname (hsub hfire))
      fun hfire => habort.2 (hsub hfire)
    refine ⟨hnone, fun id hid => ⟨hnext id hid, ?_⟩⟩
    obtain ⟨hlt, rfl⟩ := List.getElem?_eq_some_iff.1 hid
    dsimp only [known]
    rw [(nodup_distinct _).idxOf_getElem _ hlt, hes, answerToLookup?_append_lookUp]
  · obtain ⟨hended, hwaiting⟩ := hasked.enriches haskedNumbered hsingle hreply hunfired
      (hmem fun e he => by simp [he]) habort.2
    rw [Visit.enriched, hoffset, hlimit, hcache] at hended
    rw [ne_eq, hcache] at hwaiting
    exact ⟨hended, hwaiting⟩

/-- Records that are the ids they refer to, if they are not empty. -/
def tagged : RowKind String where
  decode := Decoder.string
  reference? record := if record = "" then none else some record

def taggedQuery : PageQuery where
  entityPath := "transfers"
  offset := 20
  limit := 10

def taggedBody : Json := .object
  [("items", .array [.string "a", .string "", .string "b", .string "a"]), ("total", .natural 24)]

/-- The cache is cleared between the two lookups. -/
def lookupsApart : List (Event String) :=
  [.lookUp 0, .learn "a" (.body (.string "A")), .clear, .lookUp 0, .learn "b" .crash]

theorem tagged_page_enriched :
    let s : Session String String := opened { namespaceName := "default" } ⟨1700000000, 0⟩
      (some (none, ⟨id, Decoder.string⟩))
    (((s.step (.start (.page taggedQuery tagged none))).step (.receive 0 (.body taggedBody))).run
        lookupsApart).results 0 =
      [.page {
        rows := [⟨"a", some (.resolved "A")⟩, ⟨"", none⟩, ⟨"b", some (.unresolved "b")⟩,
          ⟨"a", some (.resolved "A")⟩]
        total := 24
        offset := 20
        limit := 10 }] := by
  have hrequest : ∃ r, ({ namespaceName := "default" } : Pager).describe taggedQuery
      ⟨1700000000, 0⟩ = .ok r := ⟨_, rfl⟩
  obtain ⟨request, hrequest⟩ := hrequest
  have hpage : taggedBody.decodeAs (RawPage.decoder tagged.decode) =
      .ok ⟨["a", "", "b", "a"], 24⟩ := rfl
  obtain ⟨-, -, -, -, -, hended, -⟩ := page_enrichment_exact (E := String) { namespaceName := "default" }
    ⟨1700000000, 0⟩ (some (none, ⟨id, Decoder.string⟩)) [] [] lookupsApart taggedQuery tagged none
    hrequest hpage nofun (by simp [lookupsApart]) (fun _ => List.not_mem_nil)
  refine (hended (.inr (by decide))).trans (congrArg (fun p => [Result.page p]) ?_)
  decide

end Session

end LedgerExplorer
