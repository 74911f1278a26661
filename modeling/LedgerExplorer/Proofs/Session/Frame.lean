import LedgerExplorer.Proofs.Page.QueryString
import LedgerExplorer.Proofs.Session.Moves
import LedgerExplorer.Proofs.Session.Separation
import LedgerExplorer.Proofs.Session.Views

/-!
# What a call for a page leaves behind

Unless it looks something up, the session goes on exactly as it would without the call: the two stay
apart by the call itself, its result and its counters (`Session.Gains`). And a call looks nothing up
before the body of its page has come (`Session.Bodiless`).
-/

namespace LedgerExplorer

namespace Session

variable {R E : Type} {s s' t t' : Session R E} {call : PageCall R} {own : List Counter}

/-- The results that a call gained since it was at `s`, with their counters, are all that keeps one
session from the other. -/
def Gains (call : PageCall R) (own : List Counter) (s s' t' : Session R E) : Prop :=
  ∃ gained, s'.results call.number = s.results call.number ++ gained ∧
    Apart call.number (own ++ gained.flatMap (Result.counters call.entity)) s' t'

theorem Apart.finish_eq {n : Nat} (h : Apart n own s t) (hs : s.Released) (r : Result R E) :
    s.finish n r = { s with
      callers := s.callers.filter (·.number != n)
      finished := s.finished ++ [(n, r)] } := by
  apply Released.releaseViews_eq
  intro v view hview hdropped
  refine (hs v view hview hdropped).imp_right fun hheld => ?_
  have hboth := h.isHeld v
  unfold Session.isHeld at hheld hboth ⊢
  rwa [← h.callers, hboth]

theorem Apart.gains (h : Apart call.number own s' t')
    (hresults : s'.results call.number = s.results call.number) : Gains call own s s' t' := by
  refine ⟨[], hresults.trans (List.append_nil _).symm, ?_⟩
  rwa [List.flatMap_nil, List.append_nil]

/-- The other session stands still while the call moves. -/
theorem Move.gains (h : Move call s s') (hs : s.Released) (hapart : Apart call.number own s t) :
    Gains call own s s' t := by
  cases h with
  | stay => exact hapart.gains rfl
  | @wait c _ hc hserves =>
    refine Apart.gains (s := s) { hapart with viewless := ?_, callers := ?_ } rfl
    · intro c' hc' hnumber
      rcases mem_callers_put.1 hc' with ⟨hmem, -⟩ | rfl
      · exact hapart.viewless c' hmem hnumber
      · exact hserves.view?_eq_none
    · change t.callers = (s.callers.filter (·.number != c.number) ++ [c]).filter _
      simp [hapart.callers, List.filter_filter, hc]
  | finish _ r =>
    have hcounted : Apart call.number (own ++ r.counters call.entity)
        (s.count (r.counters call.entity)) t :=
      { hapart with log := List.append_assoc .. ▸ hapart.log.append_right _ }
    refine ⟨[r], ?_, ?_⟩
    · rw [results_finish, if_pos rfl]
      rfl
    rw [hcounted.finish_eq hs, List.flatMap_singleton]
    exact { hcounted with
      viewless := fun c hc hnumber => hcounted.viewless c (List.mem_of_mem_filter hc) hnumber
      callers := by simp only [hcounted.callers, List.filter_filter, Bool.and_self]
      finished := by
        rw [hcounted.finished, List.filter_append, List.filter_singleton, bne_self_eq_false]
        exact (List.append_nil _).symm }

theorem Gains.trans {gained : List (Result R E)} {s₂ t₂ : Session R E}
    (hresults : s'.results call.number = s.results call.number ++ gained)
    (h : Gains call (own ++ gained.flatMap (Result.counters call.entity)) s' s₂ t₂) :
    Gains call own s s₂ t₂ := by
  obtain ⟨gained', hresults', hapart⟩ := h
  refine ⟨gained ++ gained', ?_, ?_⟩
  · rw [hresults', hresults, List.append_assoc]
  · rwa [List.flatMap_append, ← List.append_assoc]

theorem Apart.gains_tell (h : Apart call.number own s t) (hp : s.Pursues call) (hs : s.Tidy)
    (id : String) (a : Option E) (m : Nat) :
    Gains call own s (Session.tell id a s m) (Session.tell id a t m) := by
  by_cases hm : m = call.number
  · subst hm
    rw [tell_of_caller?_eq_none h.caller?_self]
    exact (hp.tell_move id a).gains hs.released h
  · exact (h.tell hm id a).gains (tell_untouched s id a (Ne.symm hm)).results

theorem Apart.gains_foldl_tell (h : Apart call.number own s t) (hp : s.Pursues call) (hs : s.Tidy)
    (id : String) (a : Option E) (ns : List Nat) :
    Gains call own s (ns.foldl (Session.tell id a) s) (ns.foldl (Session.tell id a) t) := by
  induction ns generalizing own s t with
  | nil => exact h.gains rfl
  | cons m ns ih =>
    obtain ⟨gained, hresults, hapart⟩ := h.gains_tell hp hs id a m
    exact .trans hresults (ih hapart (hp.tell id a m) (hs.tell id a m))

theorem Apart.gains_step (h : Apart call.number own s t) (hp : s.Pursues call) (hs : s.Tidy)
    {e : Event R} (he : e = .lookUp call.number → s.step e = s) :
    Gains call own s (s.step e) (t.step e) := by
  cases e with
  | start task =>
    have hnew : s.nextCaller ≠ call.number := Nat.ne_of_gt hp.next
    exact (h.start hnew task).gains (start_untouched s task (Ne.symm hnew)).results
  | receive m reply =>
    by_cases hm : m = call.number
    · subst hm
      have hstill : t.step (.receive call.number reply) = t := by
        simp only [Session.step, Session.receive]
        rw [show t.callers.find? (·.number == call.number) = none from h.caller?_self]
      rw [hstill]
      exact (hp.receive_move reply).gains hs.released h
    · exact (h.receive hm reply).gains (receive_untouched s reply (Ne.symm hm)).results
  | lookUp m =>
    by_cases hm : m = call.number
    · subst hm
      rw [he rfl, Session.step, proceed_of_caller?_eq_none h.caller?_self]
      exact h.gains rfl
    · exact (h.proceed hm).gains (proceed_untouched s (Ne.symm hm)).results
  | learn id reply =>
    simp only [Session.step, Session.learn]
    rw [h.resolver]
    split
    · exact h.gains rfl
    · next r _ =>
      split
      · have hconcluded : Apart call.number own { s with resolver := some (r.finish id reply).2.2 }
            { t with resolver := some (r.finish id reply).2.2 } := { h with resolver := rfl }
        exact hconcluded.gains_foldl_tell (hp.of_eq rfl rfl rfl) (hs.of_eq rfl rfl) id _ _
      · exact h.gains rfl
  | abort m =>
    by_cases hm : m = call.number
    · subst hm
      have hstill : t.step (.abort call.number) = t := by
        simp only [Session.step, isRunning_eq, h.caller?_self]
        rfl
      rw [hstill]
      exact hp.abort_move.gains hs.released h
    · simp only [Session.step, isRunning_eq, h.caller?_ne hm]
      split
      · exact (h.finish hm _).gains (finish_untouched s _ (Ne.symm hm)).results
      · exact h.gains rfl
  | fire name => exact Apart.gains (s := s) { h with fired := congrArg (name :: ·) h.fired } rfl
  | openView rows => exact Apart.gains (s := s) (h.setViews (by rw [h.views])) rfl
  | cancelView v => exact Apart.gains (s := s) (h.setViews (by rw [h.views])) rfl
  | dropView v => exact Apart.gains (s := s) (h.setViews (by rw [h.views])).releaseViews rfl
  | invalidate id =>
    exact Apart.gains (s := s) { h with resolver := congrArg (Option.map _) h.resolver } rfl
  | clear => exact Apart.gains (s := s) { h with resolver := congrArg (Option.map _) h.resolver } rfl

/-- Whatever happens, the counters of the call are all that its presence adds to the log. -/
theorem Apart.log_step (h : Apart call.number own s t) (hp : s.Pursues call) (hs : s.Tidy)
    (e : Event R) : ∃ gained, (s.step e).results call.number = s.results call.number ++ gained ∧
      (s.step e).log.Perm
        ((t.step e).log ++ (own ++ gained.flatMap (Result.counters call.entity))) := by
  by_cases he : e = .lookUp call.number
  · subst he
    obtain ⟨s₁, -, hfinished, -, hlog, hmove⟩ := hp.lookUp_move
    obtain ⟨gained, hresults, hcounted⟩ := hmove.log
    refine ⟨gained, ?_, ?_⟩
    · rw [hresults, Session.results, hfinished, Session.results]
    · rw [hcounted, hlog, Session.step, proceed_of_caller?_eq_none h.caller?_self, ← List.append_assoc]
      exact h.log.append_right _
  · obtain ⟨gained, hresults, hapart⟩ := h.gains_step hp hs fun heq => absurd heq he
    exact ⟨gained, hresults, hapart.log⟩

/-- A call for a page waits for the body of its page, or it has ended. -/
def Bodiless (s : Session R E) (call : PageCall R) : Prop :=
  (∃ fetch : PageFetch R, fetch.rows = call.rows ∧ s.Sent call.number (.ofToken call.token) fetch) ∨
    ∃ r, s.Ended call.number r

/-- No body is taken up for a call: what comes in either fails to decode or comes too late. -/
def Declines (s : Session R E) (call : PageCall R) (e : Event R) : Prop :=
  ∀ body page, e = .receive call.number (.body body) → s.results call.number = [] →
    body.decodeAs (RawPage.decoder call.rows.decode) = .ok page →
      s.isCancelled (.ofToken call.token) = true

theorem Bodiless.step_lookUp (h : s.Bodiless call) : s.step (.lookUp call.number) = s := by
  rcases h with ⟨fetch, -, hsent⟩ | ⟨r, hended⟩
  · exact hsent.step_lookUp
  · exact proceed_of_caller?_eq_none hended.caller

theorem Bodiless.step (h : s.Bodiless call) {e : Event R} (he : s.Declines call e) :
    (s.step e).Bodiless call := by
  rcases h with ⟨fetch, hrows, hsent⟩ | ⟨r, hended⟩
  · by_cases habort : e = .abort call.number
    · subst habort
      obtain ⟨c, hc, -⟩ := hsent.caller
      have hrunning : s.isRunning call.number = true := by rw [isRunning_eq, hc]; rfl
      rw [Session.step, if_pos hrunning]
      exact .inr ⟨_, hsent.idle.finish _⟩
    · by_cases hreceive : ∃ reply, e = .receive call.number reply
      · obtain ⟨reply, rfl⟩ := hreceive
        cases hreply : fetch.receive (s.isCancelled (.ofToken call.token)) reply with
        | error f => exact .inr ⟨_, hsent.fails hreply⟩
        | ok page =>
          obtain ⟨hlive, body, rfl, hpage⟩ := PageFetch.receive_eq_ok hreply
          cases hlive.symm.trans (he body page rfl hsent.idle.results (hrows ▸ hpage))
      · exact .inl ⟨fetch, hrows, hsent.step habort (not_exists.1 hreceive)⟩
  · exact .inr ⟨r, hended.step e⟩

theorem Apart.run (h : Apart call.number ((s.results call.number).flatMap
      (Result.counters call.entity)) s t) (hp : s.Pursues call) (hb : s.Bodiless call) (hs : s.Tidy)
    (hn : s.Numbered)
    {es : List (Event R)} (hes : ∀ es₁ e es₂, es = es₁ ++ e :: es₂ → (s.run es₁).Declines call e) :
    Apart call.number (((s.run es).results call.number).flatMap (Result.counters call.entity))
      (s.run es) (t.run es) := by
  induction es generalizing s t with
  | nil => exact h
  | cons e es ih =>
    obtain ⟨gained, hresults, hapart⟩ := h.gains_step hp hs fun he => he ▸ hb.step_lookUp
    rw [← List.flatMap_append, ← hresults] at hapart
    exact ih hapart (hp.step e) (hb.step (hes [] e es rfl)) (hs.step hn e) (hn.step e)
      fun es₁ e' es₂ heq => hes (e :: es₁) e' es₂ (heq ▸ rfl)

/-! ## The start of a call -/

theorem Sent.pursues {n : Nat} {token : Option String} {fetch : PageFetch R}
    (h : s.Sent n (.ofToken token) fetch) :
    s.Pursues ⟨n, token, fetch.rows, fetch.request.entityPath⟩ := by
  obtain ⟨⟨hnext, hresults, -⟩, c, hc, hjob, -⟩ := h
  refine ⟨hnext, fun c' hc' => ?_, fun hnone => ?_⟩
  · cases hc.symm.trans hc'
    exact ⟨hresults, fetch, rfl, rfl, .inl hjob⟩
  · cases hc.symm.trans hnone

theorem Ended.pursues {r : Result R E} (h : s.Ended call.number r) : s.Pursues call := by
  refine ⟨h.next, fun c hc => ?_, fun _ => ⟨r, h.results⟩⟩
  cases h.caller.symm.trans hc

theorem Numbered.apart_next (h : s.Numbered) (hrequests : s.requests s.nextCaller = []) :
    Apart s.nextCaller [] { s with nextCaller := s.nextCaller + 1 }
      { s with nextCaller := s.nextCaller + 1 } := by
  obtain ⟨hcaller, hresults, -⟩ := h s.nextCaller (Nat.le_refl _)
  have hnumber : ∀ c ∈ s.callers, c.number ≠ s.nextCaller := fun c hc heq =>
    List.find?_eq_none.1 hcaller c hc (beq_iff_eq.2 heq)
  have hfinished : ∀ e ∈ s.finished, e.1 ≠ s.nextCaller := fun e he heq => by
    simpa [heq] using List.filterMap_eq_nil_iff.1 hresults e he
  exact {
    viewless := fun c hc heq => absurd heq (hnumber c hc)
    callers := (List.filter_eq_self.2 fun c hc => bne_iff_ne.2 (hnumber c hc)).symm
    calls := (List.filter_eq_self.2 fun c hc =>
      Option.isNone_iff_eq_none.2 (List.filterMap_eq_nil_iff.1 hrequests c hc)).symm
    finished := (List.filter_eq_self.2 fun e he => bne_iff_ne.2 (hfinished e he)).symm
    resolver := rfl
    views := rfl
    fired := rfl
    setting := ⟨rfl, rfl⟩
    nextCaller := rfl
    log := by rw [List.append_nil] }

/-- The state after the start of a call, as it is seen from beside the session without the call. -/
structure Launched (s s₀ : Session R E) (call : PageCall R) (requests : List (String × String)) :
    Prop where
  pursues : s.Pursues call
  bodiless : s.Bodiless call
  apart : Apart call.number ((s.results call.number).flatMap (Result.counters call.entity)) s s₀
  requests : s.requests call.number = requests

variable {q : PageQuery} {rows : RowKind R} {token : Option String}

theorem Gains.apart (h : Gains call [] s s' t') (hresults : s.results call.number = []) :
    Apart call.number ((s'.results call.number).flatMap (Result.counters call.entity)) s' t' := by
  obtain ⟨gained, hgained, hapart⟩ := h
  rwa [hgained, hresults]

theorem Numbered.launched_refused (h : s.Numbered) (hs : s.Tidy)
    (hrequests : s.requests s.nextCaller = []) {f : Failure}
    (hfetch : PageFetch.start s.pager q s.now rows (s.isCancelled (.ofToken token)) = .error f)
    {entity : String} (hf : (.failed f : Result R E).counters entity = []) :
    (s.start (.page q rows token)).Launched { s with nextCaller := s.nextCaller + 1 }
      ⟨s.nextCaller, token, rows, entity⟩ [] := by
  have hresults := (h s.nextCaller (Nat.le_refl _)).2.1
  have hmove : Move ⟨s.nextCaller, token, rows, entity⟩ { s with nextCaller := s.nextCaller + 1 }
      (s.start (.page q rows token)) := by
    rw [start_page, hfetch]
    exact .finish_uncounted hresults hf
  refine ⟨(h.refused hfetch).pursues, .inr ⟨_, h.refused hfetch⟩, ?_, ?_⟩
  · exact (hmove.gains (hs.of_eq rfl rfl).released (h.apart_next hrequests)).apart hresults
  · rw [start_page, hfetch]
    exact hrequests

theorem Numbered.launched_sent (h : s.Numbered) (hs : s.Tidy)
    (hrequests : s.requests s.nextCaller = []) {fetch : PageFetch R}
    (hfetch : PageFetch.start s.pager q s.now rows (s.isCancelled (.ofToken token)) = .ok fetch) :
    (s.start (.page q rows token)).Launched { s with nextCaller := s.nextCaller + 1 }
      ⟨s.nextCaller, token, fetch.rows, fetch.request.entityPath⟩
      [(fetch.request.path, fetch.request.query)] := by
  have hresults := (h s.nextCaller (Nat.le_refl _)).2.1
  let waiting : Session R E := { s with nextCaller := s.nextCaller + 1 }.put
    { number := s.nextCaller, job := .page fetch (.ofToken token) }
  have hmove : Move ⟨s.nextCaller, token, fetch.rows, fetch.request.entityPath⟩
      { s with nextCaller := s.nextCaller + 1 } waiting :=
    .wait hresults rfl ⟨fetch, rfl, rfl, .inl rfl⟩
  have hwaiting := (hmove.gains (hs.of_eq rfl rfl).released (h.apart_next hrequests)).apart hresults
  have hstart : s.start (.page q rows token) = waiting.call
      (.own s.nextCaller fetch.request.path fetch.request.query) := by rw [start_page, hfetch]
  refine ⟨(h.sent hfetch).pursues, .inl ⟨fetch, rfl, h.sent hfetch⟩, ?_, ?_⟩
  · rw [hstart]
    exact { hwaiting with
      calls := by
        refine hwaiting.calls.trans ?_
        change _ = (waiting.calls ++ [_]).filter _
        rw [List.filter_append, List.filter_singleton, Call.request?, if_pos rfl]
        exact (List.append_nil _).symm }
  · rw [hstart, requests_call, Call.request?, if_pos rfl]
    exact congrArg (· ++ _) hrequests

/-- A call sends its request unless its query makes none or its token has fired. -/
theorem Numbered.launched (h : s.Numbered) (hs : s.Tidy) (hrequests : s.requests s.nextCaller = [])
    (q : PageQuery) (rows : RowKind R) (token : Option String) :
    (s.start (.page q rows token)).Launched { s with nextCaller := s.nextCaller + 1 }
      ⟨s.nextCaller, token, rows, Text.trimSlashes q.entityPath⟩
      (match s.pager.describe q s.now with
        | .ok request =>
          if s.isCancelled (.ofToken token) then [] else [(request.path, request.query)]
        | .error _ => []) := by
  cases hdescribe : s.pager.describe q s.now with
  | error e =>
    have hfetch : PageFetch.start s.pager q s.now rows (s.isCancelled (.ofToken token)) =
        .error e.failure := by
      rw [PageFetch.start, hdescribe]
    apply h.launched_refused hs hrequests hfetch
    cases e <;> rfl
  | ok request =>
    cases hcancelled : s.isCancelled (.ofToken token) with
    | true =>
      have hfetch : PageFetch.start s.pager q s.now rows (s.isCancelled (.ofToken token)) =
          .error (.fault .cancelled) := by
        rw [PageFetch.start, hdescribe, hcancelled]
        rfl
      exact h.launched_refused hs hrequests hfetch rfl
    | false =>
      have hfetch : PageFetch.start s.pager q s.now rows (s.isCancelled (.ofToken token)) =
          .ok ⟨request, rows⟩ := by
        rw [PageFetch.start, hdescribe, hcancelled]
        rfl
      rw [← PageRequest.entityPath_of_build hdescribe]
      exact h.launched_sent hs hrequests hfetch

theorem Pursues.apart_without (h : s.Pursues call) (hs : s.Tidy) :
    Apart call.number [] s (s.without call.number) where
  viewless := by
    intro c hc hnumber
    have hcaller := hs.listed c hc
    rw [hnumber] at hcaller
    exact (h.running c hcaller).2.view?_eq_none
  callers := rfl
  calls := rfl
  finished := rfl
  resolver := rfl
  views := rfl
  fired := rfl
  setting := ⟨rfl, rfl⟩
  nextCaller := rfl
  log := by
    rw [List.append_nil]
    rfl

/-- A call for a page leaves nothing in a session but its request, its result and the counters of its
result, unless the body of its page is taken up: a body that can be decoded, before the token has fired.
Without the call, the cache and everything else is the same. The request is sent once, or not at all
if the query makes none or the token has fired before. And in every step of the session the counters of
the result are all that the call adds to the log: a page as a success, a fault of the source or of the
body as an error, and anything else not at all. -/
theorem failed_page_fetch_leaves_no_trace (pager : Pager) (now : Instant)
    (cache : Option (Option UInt64 × Directory E)) (es₀ : List (Event R)) (q : PageQuery)
    (rows : RowKind R) (token : Option String) :
    let before : Session R E := (opened pager now cache).run es₀
    let n := before.nextCaller
    let started := before.step (.start (.page q rows token))
    let counters (rs : List (Result R E)) :=
      rs.flatMap (Result.counters (Text.trimSlashes q.entityPath))
    ∀ es,
      let s := started.run es
      s.requests n = (match pager.describe q now with
        | .ok request =>
          if before.isCancelled (.ofToken token) then [] else [(request.path, request.query)]
        | .error _ => []) ∧
      (s.results n).length ≤ 1 ∧
      (∀ e, ∃ gained, (s.step e).results n = s.results n ++ gained ∧
        (s.step e).log.Perm (((s.without n).step e).log ++ counters gained)) ∧
      ((∀ es₁ es₂ body page, es = es₁ ++ .receive n (.body body) :: es₂ →
          (started.run es₁).results n = [] →
          body.decodeAs (RawPage.decoder rows.decode) = .ok page →
            (started.run es₁).isCancelled (.ofToken token) = true) →
        let absent := ({ before with nextCaller := n + 1 } : Session R E).run es
        absent.resolver = s.resolver ∧ absent = { s.without n with log := absent.log } ∧
          s.log.Perm (absent.log ++ counters (s.results n))) := by
  intro before n started counters es s
  have hopened := opened_numbered (R := R) pager now cache
  have hnumbered : before.Numbered := hopened.run es₀
  have htidy : before.Tidy := opened_tidy pager now cache es₀
  obtain ⟨hpager, hnow, -⟩ := hopened.setting_run es₀
  have hrequests : before.requests n = [] :=
    requests_run_eq_nil (s := opened pager now cache) (fun _ _ => rfl) (Nat.le_refl _)
  have hdescribe : before.pager.describe q before.now = pager.describe q now := by
    rw [show before.pager = pager from hpager, show before.now = now from hnow]
  obtain ⟨hpursues, hbodiless, hapart, hsent⟩ := hnumbered.launched htidy hrequests q rows token
  rw [hdescribe] at hsent
  have hstarted : started.Numbered := hnumbered.step _
  have htidyStarted : started.Tidy := htidy.step hnumbered _
  have htidyAfter : s.Tidy := htidyStarted.run hstarted es
  refine ⟨?_, (hpursues.run es).length_results, fun e => ?_, fun hdeclined => ?_⟩
  · exact (requests_run hpursues.next es).trans hsent
  · exact ((hpursues.run es).apart_without htidyAfter).log_step (hpursues.run es) htidyAfter e
  · have hrun := hapart.run hpursues hbodiless htidyStarted hstarted
      fun es₁ e es₂ heq body page he => hdeclined es₁ es₂ body page (he ▸ heq)
    exact ⟨hrun.resolver, hrun.state, hrun.log⟩

theorem late_body_leaves_no_trace :
    let before : Session Record String :=
      (opened { namespaceName := "default" } ⟨1700000000, 0⟩ (some (none, ⟨id, Decoder.string⟩))).run
        [.start (.resolve "a"), .learn "a" (.body (.string "A"))]
    let es : List (Event Record) := [.fire "teardown", .receive 1 (.body (.object
      [("items", .array [.object [("pool", .string "a")]]), ("total", .natural 1)]))]
    ((before.step (.start (.page (.first "transfers" 25) (.referring "pool")
      (some "teardown")))).run es).resolver =
        (({ before with nextCaller := 2 } : Session Record String).run es).resolver := by
  intro before es
  obtain ⟨-, -, -, hdeclined⟩ := failed_page_fetch_leaves_no_trace { namespaceName := "default" }
    ⟨1700000000, 0⟩ (some (none, ⟨id, Decoder.string⟩))
    [.start (.resolve "a"), .learn "a" (.body (.string "A"))] (.first "transfers" 25)
    (.referring "pool") (some "teardown") es
  refine (hdeclined ?_).1.symm
  rintro (_ | ⟨e, _ | ⟨e', es₁⟩⟩) es₂ body page heq - -
  · cases (List.cons.inj heq).1
  · obtain rfl := (List.cons.inj heq).1
    rfl
  · exact absurd (congrArg List.length heq) (by simp [es])

end Session

end LedgerExplorer
