import LedgerExplorer.Proofs.Session.Stages
import LedgerExplorer.Token.Pool

/-!
# Tokens that fire

A token that has fired stays so. The call that it guards is refused if that happened before, and it
ends as cancelled when the last of its references is answered if it happened in the meantime. Between
the request and the reply the reply is read first: an error of the source or of the body ends the call
whether its token has fired or not.
-/

namespace LedgerExplorer

variable {R E : Type}

namespace Session

variable {s : Session R E} {name : String}

theorem Numbered.fired_step (h : s.Numbered) (hname : name ∈ s.fired) (e : Event R) :
    name ∈ (s.step e).fired := by
  rcases h.untouched e with ⟨other, rfl⟩ | hsame
  · exact List.mem_cons_of_mem _ hname
  · rwa [(hsame _ (Nat.le_refl _)).fired]

theorem Numbered.fired_run (h : s.Numbered) (hname : name ∈ s.fired) (es : List (Event R)) :
    name ∈ (s.run es).fired := by
  induction es generalizing s with
  | nil => exact hname
  | cons e es ih => exact ih (h.step e) (h.fired_step hname e)

theorem isCancelled_of_fired (h : name ∈ s.fired) :
    s.isCancelled (.ofToken (some name)) = true := List.contains_iff_mem.2 h

theorem isCancelled_of_not_fired (h : name ∉ s.fired) :
    s.isCancelled (.ofToken (some name)) = false :=
  isCancelled_of_unfired fun _ hname => Option.mem_some_iff.1 hname ▸ h

variable {n : Nat} {fetch : PageFetch R} {page : RawPage R} {reply : Reply}

theorem Sent.failed {token : Option String} (h : s.Sent n (.ofToken token) fetch) {f : Failure}
    (hdecode : reply.decode (RawPage.decoder fetch.rows.decode) fetch.request.path = .error f) :
    (s.receive n reply).Ended n (.failed f) := by
  apply h.fails
  exact PageFetch.receive_of_error hdecode _

theorem Sent.cancelled (h : s.Sent n (.ofToken (some name)) fetch)
    (hdecode : reply.decode (RawPage.decoder fetch.rows.decode) fetch.request.path = .ok page)
    (hname : name ∈ s.fired) : (s.receive n reply).Ended n (.failed (.fault .cancelled)) := by
  apply h.fails
  rw [isCancelled_of_fired hname, PageFetch.receive_of_ok hdecode]
  rfl

/-- A call that has not ended after its body came collects answers. -/
theorem Sent.collects (h : s.Sent n (.ofToken (some name)) fetch) (hs : s.SingleFlight)
    (hdecode : reply.decode (RawPage.decoder fetch.rows.decode) fetch.request.path = .ok page)
    {es : List (Event R)} (habort : .abort n ∉ es)
    (hwaiting : ((s.step (.receive n reply)).run es).results n = []) :
    let e := Visit.errand ⟨n, some name, fetch, page⟩ fun _ => True
    ∃ directory unasked known, ¬ e.Complete known ∧
      ((s.step (.receive n reply)).run es).Performs e directory unasked known := by
  intro e
  have hnot {r : Result R E} : ¬ ((s.step (.receive n reply)).run es).Ended n r := fun hended =>
    List.cons_ne_nil _ _ (hended.results.symm.trans hwaiting)
  have hunfired : name ∉ s.fired := fun hname => hnot ((h.cancelled hdecode hname).run es)
  have hreply : fetch.receive (s.isCancelled (.ofToken (some name))) reply = .ok page := by
    rw [isCancelled_of_not_fired hunfired, PageFetch.receive_of_ok hdecode]
    rfl
  cases hr : s.resolver with
  | none => exact absurd ((h.ended_uncached hreply hr).run es) hnot
  | some r =>
    have hperforms : (s.receive n reply).Performs e r.directory _ _ :=
      h.performs hreply trivial (congrArg (Option.map Resolver.directory) hr)
    have hrun := hperforms.run (hs.step (.receive n reply)) habort fun _ _ _ => trivial
    rcases hrun.ended_or_waits with ⟨_, -, hended⟩ | ⟨hsome, -⟩
    · exact absurd hended hnot
    · exact ⟨_, _, _, hsome, hrun⟩

/-- A call that collects answers when its token has fired ends as cancelled with the last of them. -/
theorem Performs.lapses {directory : Directory E} {unasked : List String}
    {known : String → Option (Option E)} (h : s.Performs
      (Visit.errand ⟨n, some name, fetch, page⟩ fun _ => True) directory unasked known)
    (hsome : ¬ (Visit.errand ⟨n, some name, fetch, page⟩ fun _ => True).Complete known)
    (hs : s.SingleFlight) (hnumbered : s.Numbered) (hname : name ∈ s.fired) {es : List (Event R)}
    (habort : .abort n ∉ es) :
    let answered := (∀ id, s.Awaits n id → ∃ reply, .learn id reply ∈ es) ∧
      ∀ i id, (s.unasked n)[i]? = some id → (s.answerToLookup? n id i es).isSome
    (answered → (s.run es).results n = [.failed (.fault .cancelled)]) ∧
    (¬ answered → (s.run es).results n = []) := by
  intro answered
  have hlapsed : s.Performs (Visit.errand ⟨n, some name, fetch, page⟩ (· = true)) directory unasked
      known := h.relive hsome (List.contains_iff_mem.2 hname)
  have hrun := hlapsed.run hs habort fun es₁ _ _ =>
    List.contains_iff_mem.2 (hnumbered.fired_run hname es₁)
  have hiff := hlapsed.complete_knownAfter_iff hsome es
  constructor
  · intro hall
    obtain ⟨_, ⟨_, rfl, rfl⟩, hended⟩ := hrun.ended (hiff.2 hall)
    exact hended.results
  · intro hnot
    exact (hrun.collecting (hiff.not.2 hnot)).1.results

/-- Once the token of a call for a page has fired, the call ends as cancelled and with nothing else,
with one exception: an error of the source or a body that cannot be decoded ends the call as what it
is, even if the token had fired before the reply came. -/
theorem fired_token_cancels_unless_reply_fails (pager : Pager) (now : Instant)
    (cache : Option (Option UInt64 × Directory E)) (es₀ : List (Event R)) (q : PageQuery)
    (rows : RowKind R) (name : String) {request : PageRequest}
    (hrequest : pager.describe q now = .ok request) :
    let before : Session R E := (opened pager now cache).run es₀
    let n := before.nextCaller
    let started := before.step (.start (.page q rows (some name)))
    let cancelled : List (Result R E) := [.failed (.fault .cancelled)]
    (name ∈ before.fired → ∀ es, (started.run es).results n = cancelled) ∧
    (name ∉ before.fired → ∀ es₁ reply, .abort n ∉ es₁ → (∀ r, .receive n r ∉ es₁) →
      let asked := started.run es₁
      let received := asked.step (.receive n reply)
      asked.results n = [] ∧
      match reply.decode (RawPage.decoder rows.decode) request.path with
      | .error f => ∀ es₂, (received.run es₂).results n = [.failed f]
      | .ok _ =>
        (name ∈ asked.fired → ∀ es₂, (received.run es₂).results n = cancelled) ∧
        ∀ es₂ es₃, .abort n ∉ es₂ ++ es₃ →
          let waiting := received.run es₂
          waiting.results n = [] → name ∈ waiting.fired →
            let answered := (∀ id, waiting.Awaits n id → ∃ r, .learn id r ∈ es₃) ∧
              ∀ i id, (waiting.unasked n)[i]? = some id →
                (waiting.answerToLookup? n id i es₃).isSome
            (answered → (waiting.run es₃).results n = cancelled) ∧
            (¬ answered → (waiting.run es₃).results n = [])) := by
  intro before n started cancelled
  have hopened := opened_numbered (R := R) pager now cache
  have hbefore : before.Numbered := hopened.run es₀
  obtain ⟨hpager, hnow, -⟩ := hopened.setting_run es₀
  have hdescribe : before.pager.describe q before.now = .ok request := by
    rw [hpager, hnow]
    exact hrequest
  constructor
  · intro hfired es
    have hfetch : PageFetch.start before.pager q before.now rows
        (before.isCancelled (.ofToken (some name))) = .error (.fault .cancelled) := by
      rw [isCancelled_of_fired hfired, PageFetch.start, hdescribe]
      rfl
    exact ((hbefore.refused hfetch).run es).results
  intro hunfired es₁ reply habort hreceive asked received
  have hfetch : PageFetch.start before.pager q before.now rows
      (before.isCancelled (.ofToken (some name))) = .ok ⟨request, rows⟩ := by
    rw [isCancelled_of_not_fired hunfired, PageFetch.start, hdescribe]
    rfl
  have hasked : asked.Sent n (.ofToken (some name)) ⟨request, rows⟩ :=
    (hbefore.sent hfetch).run habort hreceive
  refine ⟨hasked.idle.results, ?_⟩
  split
  · next f hdecode =>
    intro es₂
    have hended : received.Ended n (.failed f) := hasked.failed hdecode
    exact (hended.run es₂).results
  · next page hdecode =>
    refine ⟨fun hname es₂ => ((hasked.cancelled hdecode hname).run es₂).results, ?_⟩
    intro es₂ es₃ habort' waiting hwaiting hname
    rw [List.mem_append, not_or] at habort'
    have hsingle : asked.SingleFlight :=
      ((((opened_singleFlight pager now cache).run es₀).step _).run es₁)
    have hnumbered : waiting.Numbered := (((hbefore.step _).run es₁).step _).run es₂
    obtain ⟨directory, unasked, known, hsome, hperforms⟩ :=
      hasked.collects hsingle hdecode habort'.1 hwaiting
    exact hperforms.lapses hsome ((hsingle.step _).run es₂) hnumbered hname habort'.2

theorem late_token_yields_to_transport_error :
    let asked : Session Record TokenPool :=
      ((opened { namespaceName := "default" } ⟨1700000000, 0⟩ none).step
        (.start (.page (.first "transfers" 25) .untyped (some "teardown")))).run [.fire "teardown"]
    let refusal : TransportError := .status 503 "/namespaces/default/transfers"
    "teardown" ∈ asked.fired ∧ (asked.step (.receive 0 (.error refusal))).results 0 =
      [.failed (.fault (.transport refusal))] := by
  intro asked refusal
  have hrequest : ∃ request, ({ namespaceName := "default" } : Pager).describe
      (.first "transfers" 25) ⟨1700000000, 0⟩ = .ok request := ⟨_, rfl⟩
  obtain ⟨request, hrequest⟩ := hrequest
  obtain ⟨-, hlate⟩ := fired_token_cancels_unless_reply_fails (R := Record) (E := TokenPool)
    { namespaceName := "default" } ⟨1700000000, 0⟩ none [] (.first "transfers" 25) .untyped
    "teardown" hrequest
  obtain ⟨-, hfailed⟩ := hlate List.not_mem_nil [.fire "teardown"] (.error refusal) (by simp) (by simp)
  exact ⟨List.mem_cons_self, hfailed []⟩

end Session

end LedgerExplorer
