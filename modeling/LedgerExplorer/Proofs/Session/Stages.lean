import LedgerExplorer.Proofs.Session.Collecting

/-!
# The stages of a call for a page

A call that was not refused at once has sent its request (`Session.Sent`). The reply ends it, or else
brings the body of its page, and then it collects the answers to the references of the page
(`Visit.errand`) until the last of them makes it end.
-/

namespace LedgerExplorer

variable {R E : Type}

theorem Reply.decode_eq_ok_iff {α : Type} {d : Decoder α} {path : String} {reply : Reply} {a : α} :
    reply.decode d path = .ok a ↔ ∃ body, reply = .body body ∧ body.decodeAs d = .ok a := by
  cases reply with
  | body v =>
    change (v.decodeAs d).mapError _ = .ok a ↔ _
    simp only [Reply.body.injEq, exists_eq_left']
    cases v.decodeAs d <;> simp [Except.mapError]
  | error e => exact iff_of_false nofun nofun
  | crash => exact iff_of_false nofun nofun

namespace PageFetch

variable {fetch : PageFetch R} {reply : Reply}

theorem receive_of_error {f : Failure} (h : reply.decode (RawPage.decoder fetch.rows.decode)
    fetch.request.path = .error f) (cancelled : Bool) : fetch.receive cancelled reply = .error f := by
  unfold receive
  rw [h]

theorem receive_of_ok {page : RawPage R} (h : reply.decode (RawPage.decoder fetch.rows.decode)
    fetch.request.path = .ok page) (cancelled : Bool) :
    fetch.receive cancelled reply = if cancelled then .error (.fault .cancelled) else .ok page := by
  unfold receive
  rw [h]

/-- Only a body that can be decoded is taken up, and only before the token has fired. -/
theorem receive_eq_ok {cancelled : Bool} {page : RawPage R}
    (h : fetch.receive cancelled reply = .ok page) :
    cancelled = false ∧
      ∃ body, reply = .body body ∧ body.decodeAs (RawPage.decoder fetch.rows.decode) = .ok page := by
  unfold receive at h
  split at h
  · cases h
  · next page' hdecode =>
    cases cancelled with
    | true => cases h
    | false =>
      cases h
      exact ⟨rfl, Reply.decode_eq_ok_iff.1 hdecode⟩

end PageFetch

/-- What the caller of a page ends with. -/
def Result.ofFetch : Except Failure (Page R E) → Result R E
  | .ok p => .page p
  | .error f => .failed f

namespace Session

variable {s t : Session R E} {n : Nat} {o : Guard} {token : Option String} {fetch : PageFetch R}
  {page : RawPage R}

theorem isCancelled_ofToken_congr (h : t.fired = s.fired) (token : Option String) :
    t.isCancelled (.ofToken token) = s.isCancelled (.ofToken token) := by
  rw [isCancelled_ofToken, isCancelled_ofToken, h]

theorem finishPage_ofToken (s : Session R E) (n : Nat) (token : Option String)
    (r : Except Failure (Page R E)) : s.finishPage n (.ofToken token) r = s.finish n (.ofFetch r) := by
  cases token <;> rcases r with (_ | _) | _ <;> rfl

/-! ## The request -/

/-- The request of a page has been sent and its reply is still to come. -/
structure Sent (s : Session R E) (n : Nat) (o : Guard) (fetch : PageFetch R) : Prop where
  idle : s.Idle n
  caller : ∃ c, s.caller? n = some c ∧ c.job = .page fetch o ∧ c.unasked = []

theorem start_page (s : Session R E) (q : PageQuery) (rows : RowKind R) (token : Option String) :
    let s' : Session R E := { s with nextCaller := s.nextCaller + 1 }
    s.start (.page q rows token) =
      match PageFetch.start s.pager q s.now rows (s.isCancelled (.ofToken token)) with
      | .error f => s'.finish s.nextCaller (.failed f)
      | .ok fetch =>
        (s'.put { number := s.nextCaller, job := .page fetch (.ofToken token) }).call
          (.own s.nextCaller fetch.request.path fetch.request.query) := by
  intro s'
  have hguard : s.start (.page q rows token) = s'.startPage s.nextCaller (.ofToken token) rows q := by
    cases token <;> rfl
  rw [hguard, startPage, isCancelled_ofToken_congr (s := s) (t := s') rfl]
  simp only [finishPage_ofToken]
  rfl

theorem fetch_of_describe {q : PageQuery} {request : PageRequest}
    (hrequest : s.pager.describe q s.now = .ok request) (rows : RowKind R)
    (hunfired : ∀ name ∈ token, name ∉ s.fired) :
    PageFetch.start s.pager q s.now rows (s.isCancelled (.ofToken token)) = .ok ⟨request, rows⟩ := by
  rw [PageFetch.start, hrequest, isCancelled_of_unfired hunfired]
  rfl

/-- A query that makes a request sends it. -/
theorem start_page_of_describe {q : PageQuery} {request : PageRequest}
    (hrequest : s.pager.describe q s.now = .ok request) (rows : RowKind R) (token : Option String)
    (hunfired : ∀ name ∈ token, name ∉ s.fired) :
    s.start (.page q rows token) =
      (({ s with nextCaller := s.nextCaller + 1 }).put {
          number := s.nextCaller, job := .page ⟨request, rows⟩ (.ofToken token) }).call
        (.own s.nextCaller request.path request.query) := by
  rw [start_page, fetch_of_describe hrequest rows hunfired]

theorem Numbered.sent (h : s.Numbered) {q : PageQuery} {rows : RowKind R}
    (hfetch : PageFetch.start s.pager q s.now rows (s.isCancelled (.ofToken token)) = .ok fetch) :
    (s.start (.page q rows token)).Sent s.nextCaller (.ofToken token) fetch := by
  obtain ⟨hnext, hresults, hawaits⟩ := h.idle
  rw [start_page, hfetch]
  exact ⟨⟨hnext, hresults, hawaits⟩, _, (caller?_put _ _ _).trans (if_pos rfl), rfl, rfl⟩

theorem Numbered.refused (h : s.Numbered) {q : PageQuery} {rows : RowKind R} {f : Failure}
    (hfetch : PageFetch.start s.pager q s.now rows (s.isCancelled (.ofToken token)) = .error f) :
    (s.start (.page q rows token)).Ended s.nextCaller (.failed f) := by
  rw [start_page, hfetch]
  exact h.idle.finish _

theorem Sent.of_untouched (h : s.Sent n o fetch) (hsame : Untouched n s t) : t.Sent n o fetch :=
  ⟨h.idle.of_untouched hsame, hsame.caller ▸ h.caller⟩

/-- Before the reply there is nothing to look up. -/
theorem Sent.step_lookUp (h : s.Sent n o fetch) : s.step (.lookUp n) = s := by
  obtain ⟨c, hc, -, hunasked⟩ := h.caller
  refine (proceed_of_caller? hc).trans (if_pos ?_)
  rw [hunasked]
  rfl

/-- Before the reply only a token can matter to a call, unless it is aborted. -/
theorem Sent.untouched (h : s.Sent n o fetch) {e : Event R} (habort : e ≠ .abort n)
    (hreceive : ∀ reply, e ≠ .receive n reply) :
    (∃ name, e = .fire name) ∨ Untouched n s (s.step e) := by
  by_cases hconcerns : e.Concerns s n
  · rcases hconcerns.cases h.idle.next with
      ⟨reply, rfl, -⟩ | ⟨rfl, -⟩ | ⟨rfl, -⟩ | ⟨id, reply, rfl, hawaits⟩ | ⟨name, rfl⟩
    · exact absurd rfl (hreceive reply)
    · rw [h.step_lookUp]
      exact .inr (.refl n s)
    · exact absurd rfl habort
    · exact absurd hawaits (h.idle.awaits id)
    · exact .inl ⟨name, rfl⟩
  · exact .inr (s.step_untouched hconcerns)

/-- Only the reply and being aborted take a call out of the stage in which its request is sent. -/
theorem Sent.step (h : s.Sent n o fetch) {e : Event R} (habort : e ≠ .abort n)
    (hreceive : ∀ reply, e ≠ .receive n reply) : (s.step e).Sent n o fetch := by
  rcases h.untouched habort hreceive with ⟨name, rfl⟩ | hsame
  · exact ⟨⟨h.idle.next, h.idle.results, h.idle.awaits⟩, h.caller⟩
  · exact h.of_untouched hsame

theorem Sent.run (h : s.Sent n o fetch) {es : List (Event R)} (habort : .abort n ∉ es)
    (hreceive : ∀ reply, .receive n reply ∉ es) : (s.run es).Sent n o fetch := by
  induction es generalizing s with
  | nil => exact h
  | cons e es ih =>
    rw [List.mem_cons, not_or] at habort
    have hstep := h.step (Ne.symm habort.1) fun reply heq => hreceive reply (heq ▸ List.mem_cons_self)
    exact ih hstep habort.2 fun reply hmem => hreceive reply (List.mem_cons_of_mem _ hmem)

/-! ## The reply -/

theorem receive_of_refused {c : Caller R E} (hc : s.caller? n = some c)
    (hjob : c.job = .page fetch o) {reply : Reply} {f : Failure}
    (hreply : fetch.receive (s.isCancelled o) reply = .error f) :
    s.receive n reply =
      (s.count (fetch.counters (.error f : Except Failure (Page R E)))).finishPage n o (.error f) := by
  unfold receive
  rw [show s.callers.find? (·.number == n) = some c from hc]
  dsimp only
  rw [hjob]
  dsimp only
  rw [hreply]

/-- The body of a page makes its caller look the references of the page up. -/
theorem receive_of_page {c : Caller R E} (hc : s.caller? n = some c) (hjob : c.job = .page fetch o)
    {reply : Reply} (hreply : fetch.receive (s.isCancelled o) reply = .ok page) :
    s.receive n reply = s.ask n (.rows fetch o page) (fetch.references page) := by
  unfold receive
  rw [show s.callers.find? (·.number == n) = some c from hc]
  dsimp only
  rw [hjob]
  dsimp only
  rw [hreply]

theorem Sent.receive_eq (h : s.Sent n o fetch) {reply : Reply}
    (hreply : fetch.receive (s.isCancelled o) reply = .ok page) :
    s.receive n reply = s.ask n (.rows fetch o page) (fetch.references page) := by
  obtain ⟨c, hc, hjob, -⟩ := h.caller
  exact receive_of_page hc hjob hreply

theorem Sent.fails (h : s.Sent n (.ofToken token) fetch) {reply : Reply} {f : Failure}
    (hreply : fetch.receive (s.isCancelled (.ofToken token)) reply = .error f) :
    (s.receive n reply).Ended n (.failed f) := by
  obtain ⟨c, hc, hjob, -⟩ := h.caller
  rw [receive_of_refused hc hjob hreply, finishPage_ofToken]
  exact (h.idle.count _).finish _

/-! ## The answers to the references -/

theorem settle_rows (s : Session R E) {c : Caller R E} (hjob : c.job = .rows fetch o page)
    (hunasked : c.unasked = []) (hmissing : c.missing = []) :
    let r := fetch.assemble page (s.isCancelled o) c.answers
    s.settle c = (s.count (fetch.counters r)).finishPage c.number o r := by
  unfold settle
  rw [hunasked, hmissing, hjob]
  rfl

end Session

/-- The caller of a page collects the answers to the references of the page, and ends with the page
unless its token has fired by then. -/
def Visit.errand (v : Visit R) (Live : Bool → Prop) : Errand R E where
  caller := v.caller
  job := .rows v.fetch (.ofToken v.token) v.page
  ids := v.references
  Live fired := Live (v.token.any fired.contains)
  Admits _ := True
  Ending known r := ∃ cancelled, Live cancelled ∧ r = .ofFetch (v.outcome cancelled known)
  asking := trivial
  admits_insert _ _ _ := trivial
  ending_congr := by
    rintro known known' _ hsame ⟨cancelled, hlive, rfl⟩
    exact ⟨cancelled, hlive, congrArg _ (Visit.outcome_congr hsame cancelled).symm⟩
  settle_ended {s answers known} hidle hlive _ hanswers := by
    refine ⟨_, ⟨_, hlive, rfl⟩, ?_⟩
    rw [Session.settle_rows s rfl rfl rfl, v.assemble_eq hanswers, Session.finishPage_ofToken,
      Session.isCancelled_ofToken]
    exact (hidle.count _).finish _

namespace Session

variable {s t : Session R E} {n : Nat} {token : Option String} {fetch : PageFetch R}
  {page : RawPage R} {reply : Reply} {Live Live' : Bool → Prop} {directory : Directory E}
  {unasked : List String} {known : String → Option (Option E)}

theorem Sent.performs (h : s.Sent n (.ofToken token) fetch)
    (hreply : fetch.receive (s.isCancelled (.ofToken token)) reply = .ok page)
    (hlive : Live false) (hdirectory : s.directory? = some directory) :
    (s.receive n reply).Performs (Visit.errand ⟨n, token, fetch, page⟩ Live) directory
      (fetch.references page) fun _ => none := by
  rw [h.receive_eq hreply]
  refine Idle.ask_performs (e := Visit.errand ⟨n, token, fetch, page⟩ Live) h.idle ?_ hdirectory
    (nodup_distinct _) trivial
  change Live (token.any s.fired.contains)
  rwa [← isCancelled_ofToken, (PageFetch.receive_eq_ok hreply).1]

/-- Without a cache a page ends as soon as its body comes. -/
theorem Sent.ended_uncached (h : s.Sent n (.ofToken token) fetch)
    (hreply : fetch.receive (s.isCancelled (.ofToken token)) reply = .ok page)
    (hresolver : s.resolver = none) : (s.receive n reply).Ended n
      (.page (Visit.enriched ⟨n, token, fetch, page⟩ fun _ => none)) := by
  rw [h.receive_eq hreply]
  obtain ⟨_, ⟨cancelled, rfl, rfl⟩, hended⟩ := Idle.ask_ended
    (e := Visit.errand ⟨n, token, fetch, page⟩ (· = false)) h.idle
    ((s.isCancelled_ofToken token).symm.trans (PageFetch.receive_eq_ok hreply).1) hresolver trivial
  exact hended

/-- What a caller collects does not depend on how it may end. -/
theorem Performs.relive {v : Visit R} (h : s.Performs (v.errand Live) directory unasked known)
    (hsome : ¬ (v.errand Live).Complete known) (hlive : Live' (v.token.any s.fired.contains)) :
    s.Performs (v.errand Live') directory unasked known := by
  obtain ⟨hattends, c, hc, hcarries⟩ := h.collecting hsome
  refine ⟨⟨h.defers.nodup, h.defers.unknown⟩, fun hall => absurd hall hsome, fun _ => ⟨?_, c, hc, ?_⟩⟩
  · exact ⟨hattends.next, hlive, hattends.directory, hattends.results, hattends.awaits⟩
  · exact ⟨hcarries.number, hcarries.job, trivial, hcarries.answers, hcarries.missing,
      hcarries.unasked⟩

end Session

end LedgerExplorer
