import LedgerExplorer.Proofs.Cache.Accounts
import LedgerExplorer.Proofs.Http.Replies
import LedgerExplorer.Proofs.Json.Printed
import LedgerExplorer.Proofs.Session.Cancellation
import LedgerExplorer.Proofs.Session.Entities
import LedgerExplorer.Proofs.Session.Isolation

/-!
# Replies to lookups and to pages

The same reply over HTTP is the answer of a lookup and the failure of a page. A lookup ends with an entity
if the reply brings one and without an entity otherwise, and its id is resolved or has failed from then
on; a page ends with the failure that the reply is.
-/

namespace LedgerExplorer

variable {R E : Type}

theorem Resolver.unbounded_kept : Kept fun r : Resolver E => r.cache.bound = none where
  resolve {r} h n id := by
    rw [cache_resolve, Cache.bound_lookup]
    exact h
  conclude {r} h id outcome := by
    change (r.cache.publish id (answerOf outcome)).2.bound = none
    unfold Cache.publish Cache.store
    split
    · rw [Cache.bound_evict]
      exact h
    · exact h
    · rw [Cache.bound_evict]
      exact h
  invalidate {r} h id := (Cache.bound_invalidate r.cache id).trans h
  clear h := h

/-- What becomes of an unbounded cache when a lookup ends. -/
structure Resolver.Ends (r r' : Resolver E) (id : String) (o : FetchOutcome E) : Prop where
  slot : r'.cache.slots.get? id = some (.ofAnswer (answerOf o) r.cache.clock)
  failures : r'.cache.stats.failures =
    r.cache.stats.failures + if (answerOf o).isNone then 1 else 0
  log : r'.log = r.log ++ [.resolution r.cache.namespaceName (.ofOutcome o)]

theorem Resolver.conclude_ends {r : Resolver E} {id : String} (hbound : r.cache.bound = none)
    {ws : List Nat} (hw : r.cache.waiters? id = some ws) (o : FetchOutcome E) :
    r.Ends (r.conclude id o).2.2 id o := by
  rw [conclude_of_waiters? hw, Cache.store_of_unbounded hbound]
  refine ⟨Cache.get?_filed_self _ _ _, ?_, rfl⟩
  change (if _ then _ else _) = _
  cases answerOf o <;> simp

theorem Resolver.Ends.resolved {r r' : Resolver E} {id : String} {e : E}
    (h : r.Ends r' id (some (.ok (some e)))) :
    r'.cache.state? id = some .resolved ∧ r'.cache.get? id = some e ∧
      r'.cache.stats.failures = r.cache.stats.failures := by
  refine ⟨?_, ?_, h.failures.trans (UInt64.add_zero _)⟩
  · rw [Cache.state?, h.slot]
    rfl
  · rw [Cache.get?, h.slot]
    rfl

theorem Resolver.Ends.failed {r r' : Resolver E} {id : String} {o : FetchOutcome E}
    (h : r.Ends r' id o) (ho : answerOf o = none) :
    r'.cache.state? id = some .failed ∧
      r'.cache.stats.failures = r.cache.stats.failures + 1 := by
  refine ⟨?_, ?_⟩
  · rw [Cache.state?, h.slot, ho]
    rfl
  · rw [h.failures, ho]
    rfl

namespace Session

variable {s : Session R E} {n : Nat} {directory : Directory E} {id : String}

/-- The reply to the lookup that a caller waits for answers the caller and ends the lookup. -/
theorem Performs.replied {known : String → Option (Option E)}
    (h : s.Performs (.entity n id) directory [] known) (hknown : known id = none)
    (hs : s.SingleFlight) (hbound : ∀ r, s.resolver = some r → r.cache.bound = none) (reply : Reply) :
    ∃ r r', s.resolver = some r ∧ (s.learn id reply).resolver = some r' ∧
      r.cache.state? id = some .pending ∧ s.results n = [] ∧
      (s.learn id reply).results n = [.answer (answerOf (directory.read id reply))] ∧
      r.Ends r' id (directory.read id reply) := by
  have hcollecting : ¬ (Errand.entity n id : Errand R E).Complete known := fun hall =>
    Option.isSome_iff_ne_none.1 (hall id List.mem_cons_self) hknown
  obtain ⟨hattends, -⟩ := h.collecting hcollecting
  have hawaits : s.Awaits n id :=
    (hattends.awaits id).2 ⟨List.mem_cons_self, List.not_mem_nil, hknown⟩
  have hlearnt := h.learn hs hawaits hcollecting reply
  obtain ⟨_, rfl, hended⟩ := hlearnt.ended fun id' hid' => by
    obtain rfl := List.mem_singleton.1 hid'
    rw [Function.update_self]
    rfl
  obtain ⟨r, hr, hdirectory, ws, hw, hmem⟩ := hattends.resolver hawaits
  refine ⟨r, (r.finish id reply).2.2, hr, ?_, ?_, hattends.results, ?_, ?_⟩
  · rw [learn_of_awaits hs hr ⟨ws, hw, hmem⟩, resolver_foldl_tell]
  · exact Cache.state?_eq_pending_iff.2 (Option.isSome_of_mem hw)
  · refine hended.results.trans ?_
    change [Result.answer (Function.update known id _ id).join] = _
    rw [Function.update_self]
    rfl
  · rw [← hdirectory]
    exact Resolver.conclude_ends (hbound r hr) hw _

/-- A caller that asks for an id without an entry makes the session look it up. -/
theorem calls_entity {r : Resolver E} (hr : s.resolver = some r) (hfresh : r.cache.state? id = none) :
    (s.step (.start (.resolve id))).calls = s.calls ++ [.entity id (r.directory.path id)] := by
  have hcalls : (s.step (.start (.resolve id))).calls = _ :=
    (congrArg Session.calls (lookUp_cons (s := { s with nextCaller := s.nextCaller + 1 })
      (c := { number := s.nextCaller, job := .resolve id, unasked := [id] }) hr rfl)).trans
      ((calls_settle _ _).trans (calls_afterResolve ..))
  rwa [if_pos hfresh] at hcalls

/-- A page whose reply brings none ends with the failure that the reply is. -/
theorem Sent.fails_with {token : Option String} {fetch : PageFetch R}
    (h : s.Sent n (.ofToken token) fetch) {reply : HttpReply}
    (hreply : ∀ page, ¬ reply.Brings (RawPage.decoder fetch.rows.decode) page) :
    ∃ f, reply.Fails (RawPage.decoder fetch.rows.decode) fetch.request.path f ∧
      (s.receive n (HttpSource.read fetch.request.path reply)).results n = [.failed (.fault f)] := by
  obtain ⟨f, hfails, hdecode⟩ := HttpSource.decode_read_of_not_brings hreply fetch.request.path
  exact ⟨f, hfails, (h.failed hdecode).results⟩

/-- The reply to the lookup of an id without an entry makes the caller that asked end with the token
pool that the reply brings, and the id resolved; if it brings none, the caller ends without a pool and
the id has failed, which is counted as not found for the status 404 and as an error for everything else.
To a page the same reply is, unless it brings a page, a fault of the transport, or a malformed response
if it is JSON. -/
theorem http_replies_classified (pager : Pager) (now : Instant) (collection : String)
    (es₀ es₁ : List (Event R)) (id : String) (reply : HttpReply) :
    let directory : Directory TokenPool := .ofCollection pager.namespaceName collection decode
    let before : Session R TokenPool := (opened pager now (some (none, directory))).run es₀
    let n := before.nextCaller
    ((∀ r ∈ before.resolver, r.cache.state? id = none) → .abort n ∉ es₁ →
      (∀ other, .learn id other ∉ es₁) →
      let call : Call := .entity id (directory.path id)
      let asked := before.step (.start (.resolve id))
      let waiting := asked.run es₁
      let replied := waiting.step (.ofReply (HttpSource.read call.path reply) call)
      asked.calls = before.calls ++ [call] ∧
      ∃ r r', waiting.resolver = some r ∧ replied.resolver = some r' ∧
        r.cache.state? id = some .pending ∧ waiting.results n = [] ∧
        (∀ pool, reply.Brings directory.decode pool →
          replied.results n = [.answer (some pool)] ∧
          r'.cache.state? id = some .resolved ∧ r'.cache.get? id = some pool ∧
          r'.cache.stats.failures = r.cache.stats.failures ∧
          r'.log = r.log ++ [.resolution pager.namespaceName .resolved]) ∧
        ((∀ pool, ¬ reply.Brings directory.decode pool) →
          replied.results n = [.answer none] ∧
          r'.cache.state? id = some .failed ∧
          r'.cache.stats.failures = r.cache.stats.failures + 1 ∧
          r'.log = r.log ++ [.resolution pager.namespaceName
            (if reply.code? = some 404 then .notFound else .error)])) ∧
    ∀ (q : PageQuery) (rows : RowKind R) (token : Option String) (request : PageRequest),
      pager.describe q now = .ok request → (∀ name ∈ token, .fire name ∉ es₀) → .abort n ∉ es₁ →
      (∀ other, .receive n other ∉ es₁) →
      let call : Call := .own n request.path request.query
      let asked := before.step (.start (.page q rows token))
      let replied := (asked.run es₁).step (.ofReply (HttpSource.read call.path reply) call)
      asked.calls = before.calls ++ [call] ∧
      ((∀ page, ¬ reply.Brings (RawPage.decoder rows.decode) page) →
        ∃ f, reply.Fails (RawPage.decoder rows.decode) request.path f ∧
          replied.results n = [.failed (.fault f)]) := by
  intro directory before n
  have hopened : (opened pager now (some (none, directory)) : Session R TokenPool).Numbered :=
    opened_numbered pager now _
  have hbefore : before.Numbered := hopened.run es₀
  constructor
  · intro hfresh habort hlearn call asked waiting replied
    have hkept {P : Resolver TokenPool → Prop} (hP : Resolver.Kept P)
        (h : P { cache := { namespaceName := pager.namespaceName }, directory }) :
        ∀ r, waiting.resolver = some r → P r := by
      refine kept_run hP (kept_step hP (kept_run hP ?_ es₀) _) es₁
      intro r hr
      exact Option.some.inj hr ▸ h
    have hsingle : before.SingleFlight := (opened_singleFlight pager now _).run es₀
    obtain ⟨r₀, hr₀, hdirectory⟩ := Option.map_eq_some_iff.1 (hopened.setting_run es₀).2.2
    replace hfresh := hfresh r₀ hr₀
    have hperforms := (hbefore.entity_performs hr₀ id).run (hsingle.step _) habort
      fun _ _ _ => trivial
    rw [List.drop_nil] at hperforms
    have hunknown : asked.knownAfter n r₀.directory [] r₀.cache.answer? es₁ id = none := by
      rw [knownAfter_of_not_mem List.not_mem_nil, (Cache.state?_eq_none_iff.1 hfresh).1,
        Option.none_or, ← Option.not_isSome_iff_eq_none, isSome_findSome?_answerTo?_iff]
      exact not_exists.2 hlearn
    obtain ⟨r, r', hr, hr', hpending, hwaiting, hresults, hends⟩ :=
      hperforms.replied hunknown ((hsingle.step _).run es₁)
        (hkept Resolver.unbounded_kept rfl) (HttpSource.read call.path reply)
    rw [hdirectory] at hresults hends
    have hname := hkept (Resolver.namespaceName_kept pager.namespaceName) rfl r hr
    have hlog := hends.log
    rw [hname] at hlog
    refine ⟨?_, r, r', hr, hr', hpending, hwaiting, fun pool hpool => ?_, fun hnone => ?_⟩
    · refine (calls_entity hr₀ hfresh).trans ?_
      rw [hdirectory]
    · have hread := directory.read_of_brings hpool id call.path
      rw [hread] at hresults hends hlog
      obtain ⟨hstate, hget, hfailures⟩ := hends.resolved
      exact ⟨hresults, hstate, hget, hfailures, hlog⟩
    · obtain ⟨hanswer, hcount⟩ := directory.read_of_not_brings hnone id call.path
      obtain ⟨hstate, hfailures⟩ := hends.failed hanswer
      rw [hanswer] at hresults
      rw [hcount] at hlog
      exact ⟨hresults, hstate, hfailures, hlog⟩
  · intro q rows token request hrequest hunfired habort hreceive call asked replied
    obtain ⟨hpager, hnow, -⟩ := hopened.setting_run es₀
    have hdescribe : before.pager.describe q before.now = .ok request := by
      rw [hpager, hnow]
      exact hrequest
    have hfired : ∀ name ∈ token, name ∉ before.fired := fun name hname =>
      hopened.not_fired_run List.not_mem_nil (hunfired name hname)
    have hasked : asked.Sent n (.ofToken token) ⟨request, rows⟩ :=
      (hbefore.requested rows hdescribe hfired).1
    refine ⟨?_, (hasked.run habort hreceive).fails_with⟩
    exact congrArg Session.calls (start_page_of_describe hdescribe rows token hfired)

def goldBody : Json := .object [("id", .string "p1"), ("name", .string "Gold")]

theorem ofText?_goldBody : Json.ofText? goldBody.render = some goldBody :=
  Json.ofText?_render (by simp [goldBody, Json.Legible, Json.LegibleMembers, Reading.maxDepth])

/-- A reply that brings a pool is a malformed response to a page. -/
theorem gold_reply_classified :
    let directory : Directory TokenPool := .ofCollection "default" "tokens/pools" decode
    let s : Session String TokenPool := opened { namespaceName := "default" } ⟨1700000000, 0⟩
      (some (none, directory))
    let reply : HttpReply := .answered 200 goldBody.render
    (((s.step (.start (.resolve "p1"))).run []).step (.learn "p1"
        (HttpSource.read (directory.path "p1") reply))).results 0 =
      [.answer (some { id := "p1", name := "Gold" })] ∧
    ∃ request, ({ namespaceName := "default" } : Pager).describe taggedQuery ⟨1700000000, 0⟩ =
        .ok request ∧
      ∃ f, reply.Fails (RawPage.decoder tagged.decode) request.path f ∧
        (((s.step (.start (.page taggedQuery tagged none))).run []).step (.receive 0
          (HttpSource.read request.path reply))).results 0 = [.failed (.fault f)] := by
  intro directory s reply
  have hrequest : ∃ r, ({ namespaceName := "default" } : Pager).describe taggedQuery
      ⟨1700000000, 0⟩ = .ok r := ⟨_, rfl⟩
  obtain ⟨request, hrequest⟩ := hrequest
  obtain ⟨hlookup, hpage⟩ := http_replies_classified (R := String) { namespaceName := "default" }
    ⟨1700000000, 0⟩ "tokens/pools" [] [] "p1" reply
  have hbrings : reply.Brings directory.decode { id := "p1", name := "Gold" } :=
    ⟨200, _, goldBody, rfl, by decide, by decide, ofText?_goldBody, rfl⟩
  have hnone : ∀ page, ¬ reply.Brings (RawPage.decoder tagged.decode) page := by
    rintro page ⟨status, body, v, heq, -, -, hv, hpage⟩
    obtain ⟨-, hbody⟩ := HttpReply.answered.inj heq
    rw [← hbody, ofText?_goldBody] at hv
    obtain rfl := Option.some.inj hv
    cases hpage
  obtain ⟨-, r, r', -, -, -, -, hresolved, -⟩ := hlookup
    (fun r hr => by obtain rfl := Option.some.inj hr; rfl) List.not_mem_nil fun _ => List.not_mem_nil
  refine ⟨(hresolved _ hbrings).1, request, hrequest, ?_⟩
  exact (hpage taggedQuery tagged none request hrequest nofun List.not_mem_nil
    fun _ => List.not_mem_nil).2 hnone

end Session

end LedgerExplorer
