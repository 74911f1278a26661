import LedgerExplorer.Proofs.Session.LoadCalls
import LedgerExplorer.Proofs.Session.Moves

/-!
# From the start of a load to its end

With every event a load goes on, is aborted or ends with what its fetch returns (`Session.Ends`). What
the fetch returns is settled by what the session is told: a query that makes no request and a reply that
brings no page end the load at once, and the body of a page ends it with the answer to the last of its
references (`Session.Concludes`).
-/

namespace LedgerExplorer

variable {R E : Type}

theorem Result.ofFetch_inj {r r' : Except Failure (Page R E)}
    (h : Result.ofFetch r = Result.ofFetch r') : r = r' := by
  cases r <;> cases r' <;> simp_all [Result.ofFetch]

namespace Session

variable {s : Session R E} {n v : Nat} {g : UInt64} {view : View R E} {loads : Nat → Nat}
  {e : Event R} {es : List (Event R)}

/-- The page that a view shows and its generation, if there is such a view. -/
def shown? (s : Session R E) (v : Nat) : Option (Option (Page R E) × UInt64) :=
  (s.views[v]?).map View.shown

/-- What the fetch of a load returns with an event: what a call for the same page ends with, under a
token that has fired if the view is cancelled. -/
def Returns (s : Session R E) (e : Event R) (n : Nat) (view : View R E)
    (r : Except Failure (Page R E)) : Prop :=
  ((s.asCall n view.cancelled).step (e.asCall view)).results n = [.ofFetch r]

/-- A load is under way after an event, and its fetch has not returned. -/
structure GoesOn (s : Session R E) (e : Event R) (n v : Nat) (g : UInt64) (view : View R E) :
    Prop where
  guard : (s.step e).guard? n = some (.view v g)
  results : (s.step e).results n = []
  pending : ∀ r, ¬ s.Returns e n view r

/-- The fetch of a load returns with an event and ends it. The page is shown if its view takes it. -/
structure Ends (s : Session R E) (e : Event R) (n v : Nat) (g : UInt64) (view : View R E)
    (r : Except Failure (Page R E)) : Prop where
  returns : s.Returns e n view r
  results : (s.step e).results n = [.ofLoad view.cancelled (g < view.latest) r]
  shown : ∀ page, r = .ok page → view.cancelled = false → ¬ g < view.latest →
    (s.step e).shown? v = some (some page, g)

/-- The reply to the request of a load ends it if it brings no page or the view is cancelled. A page
ends the load with the answer to the last of its references, unless the view is cancelled by then, and
the load is under way for as long as an answer is to come. Without a cache nothing is looked up. -/
def Concludes (s : Session R E) (n v : Nat) (g : UInt64) (fetch : PageFetch R) (reply : Reply)
    (later : List (Event R)) : Prop :=
  ∃ view, s.views[v]? = some view ∧
  match fetch.receive view.cancelled reply with
  | .error f => s.Ends (.receive n reply) n v g view (.error f)
  | .ok page =>
    let received := s.step (.receive n reply)
    let known := fun id => received.answerToLookup? n id ((fetch.references page).idxOf id) later
    let answered := s.resolver = none ∨ ∀ id ∈ fetch.references page, (known id).isSome
    let events := .receive n reply :: later
    (answered → ∃ es₁ e es₂ view, events = es₁ ++ e :: es₂ ∧ (s.run es₁).views[v]? = some view ∧
      (s.run es₁).Ends e n v g view (if view.cancelled then .error (.fault .cancelled) else
        .ok (page.enriched fetch.rows.reference? fetch.request.offset fetch.request.limit known))) ∧
    (¬ answered → (s.run events).guard? n = some (.view v g))

theorem not_returns (h : ((s.asCall n view.cancelled).step (e.asCall view)).results n = [])
    (r : Except Failure (Page R E)) : ¬ s.Returns e n view r := by
  intro hreturns
  cases h.symm.trans hreturns

theorem Twins.goesOn {view' : View R E}
    (h : Twins n v g view' (s.step e) ((s.asCall n view.cancelled).step (e.asCall view))) :
    s.GoesOn e n v g view := by
  obtain ⟨c, hc, -, hguard⟩ := h.caller
  exact ⟨(guard?_of_caller? hc).trans hguard, h.abreast.results, not_returns h.abreast.results'⟩

theorem results_abort (honce : s.Once) (hrunning : (s.caller? n).isSome) :
    (s.step (.abort n)).results n = [.aborted] := by
  have hend : s.step (.abort n) = s.finish n .aborted := if_pos ((s.isRunning_eq n).trans hrunning)
  rw [hend, results_finish, if_pos rfl, (honce n).2 hrunning, List.nil_append]

/-! ## One event -/

/-- What is known of a session in which loads overlap. -/
structure Sound (s : Session R E) (loads : Nat → Nat) : Prop where
  ranked : s.Ranked loads
  numbered : s.Numbered
  once : s.Once
  singleFlight : s.SingleFlight

theorem Sound.step (h : s.Sound loads) (hroom : HasRoom loads [e]) :
    (s.step e).Sound fun v => loads v + [e].countP (Event.begins v) where
  ranked := h.ranked.step hroom
  numbered := h.numbered.step e
  once := h.once.step h.numbered e
  singleFlight := h.singleFlight.step e

theorem Sound.run (h : s.Sound loads) (hroom : HasRoom loads es) :
    (s.run es).Sound fun v => loads v + es.countP (Event.begins v) where
  ranked := h.ranked.run hroom
  numbered := h.numbered.run es
  once := h.once.run h.numbered es
  singleFlight := h.singleFlight.run es

theorem Sound.results_of_loading (h : s.Sound loads) (hloading : s.Loading e n v g) :
    s.results n = [] := by
  rcases hloading with hg | ⟨q, view, -, rfl, -, -⟩
  · exact (h.once n).2 (isSome_caller?_of_guard? hg)
  · exact (h.numbered _ (Nat.le_refl _)).2.1

/-- A load goes on, is aborted, or ends with what its fetch returns. -/
theorem Sound.loading_cases (h : s.Sound loads) (hroom : HasRoom loads [e])
    (hloading : s.Loading e n v g) (hview : s.views[v]? = some view) :
    s.GoesOn e n v g view ∨ (e = .abort n ∧ (s.step e).results n = [.aborted]) ∨
      ∃ r, s.Ends e n v g view r := by
  rcases hloading with hg | ⟨q, view', rfl, rfl, hview', rfl⟩
  · rcases h.ranked.running_keeps h.numbered h.once hg hview e with
      ⟨hguard, hresults, hresults'⟩ | rfl | htwins | ⟨r, hparted⟩
    · exact .inl ⟨hguard, hresults, not_returns hresults'⟩
    · exact .inr (.inl ⟨rfl, results_abort h.once (isSome_caller?_of_guard? hg)⟩)
    · exact .inl htwins.goesOn
    · obtain ⟨view', hview', -, hshown⟩ := hparted.view
      refine .inr (.inr ⟨r, hparted.results', hparted.results, fun page hr hlive hlast => ?_⟩)
      have hlatest := UInt64.le_antisymm (h.ranked.le_latest hg hview) (UInt64.not_lt.1 hlast)
      rw [shown?, hview', Option.map_some, hshown page hr hlive hlatest]
  · cases hview.symm.trans hview'
    rcases h.ranked.start_keeps h.numbered hview hroom with htwins | ⟨r, hparted⟩
    · exact .inl htwins.goesOn
    · obtain ⟨view', hview', -, hshown⟩ := hparted.view
      refine .inr (.inr ⟨r, hparted.results', hparted.results.trans ?_, fun page hr hlive _ => ?_⟩)
      · have hfirst : ¬ view.latest + 1 < view.latest := by
          rw [UInt64.lt_iff_toNat_lt, (h.ranked.lt_next hroom hview).1]
          exact Nat.not_lt_of_le (Nat.le_succ _)
        have hbegun : ¬ view.latest + 1 < view.begin.2.latest := UInt64.lt_irrefl _
        rw [decide_eq_false hfirst, decide_eq_false hbegun]
        rfl
      · rw [shown?, hview', Option.map_some, hshown page hr hlive rfl]

/-- A load ends with whatever its fetch returns. -/
theorem Sound.ends (h : s.Sound loads) (hroom : HasRoom loads [e]) (hloading : s.Loading e n v g)
    (hview : s.views[v]? = some view) (habort : e ≠ .abort n) {r : Except Failure (Page R E)}
    (hreturns : s.Returns e n view r) : s.Ends e n v g view r := by
  rcases h.loading_cases hroom hloading hview with hgoes | ⟨rfl, -⟩ | ⟨r', hends⟩
  · exact absurd hreturns (hgoes.pending r)
  · exact absurd rfl habort
  · have hsame : ([.ofFetch r] : List (Result R E)) = [.ofFetch r'] :=
      hreturns.symm.trans hends.returns
    rwa [Result.ofFetch_inj (List.singleton_inj.1 hsame)]

/-! ## The request -/

theorem asCall_numbered (h : s.Numbered) (m : Nat) (cancelled : Bool) :
    (s.asCall m cancelled).Numbered := by
  intro n hn
  obtain ⟨hcaller, hresults, hawaits⟩ := h n hn
  refine ⟨?_, hresults, hawaits⟩
  rw [caller?_asCall, hcaller, Option.map_none]

/-- A query that makes no request ends its load at once. -/
theorem Sound.refused (h : s.Sound loads) {q : PageQuery}
    (hroom : HasRoom loads [(.start (.load v q) : Event R)]) (hview : s.views[v]? = some view)
    {f : Failure}
    (hfetch : PageFetch.start s.pager q s.now view.rows view.cancelled = .error f) :
    s.Ends (.start (.load v q)) s.nextCaller v (view.latest + 1) view (.error f) := by
  refine h.ends hroom (.inr ⟨q, view, rfl, rfl, hview, rfl⟩) hview nofun ?_
  have hcall : ((s.asCall s.nextCaller view.cancelled).start (.page q view.rows (some ""))).Ended
      s.nextCaller (.failed f) := by
    refine (asCall_numbered h.numbered s.nextCaller view.cancelled).refused ?_
    rw [show (Guard.ofToken (some "")) = callGuard from rfl, isCancelled_asCall]
    exact hfetch
  exact hcall.results

/-- A query that makes a request sends it. -/
theorem Numbered.load_sent (h : s.Numbered) (hview : s.views[v]? = some view) {q : PageQuery}
    {fetch : PageFetch R}
    (hfetch : PageFetch.start s.pager q s.now view.rows view.cancelled = .ok fetch) :
    (s.step (.start (.load v q))).Sent s.nextCaller (.view v (view.latest + 1)) fetch := by
  let begun : Session R E := { s.begin v view with nextCaller := s.nextCaller + 1 }
  have hbegun : begun.views[v]? = some view.begin.2 :=
    List.getElem?_set_self (List.getElem?_eq_some_iff.1 hview).1
  have hcancelled : begun.isCancelled (.view v (view.latest + 1)) = view.cancelled :=
    isCancelled_view hbegun _
  have hstart : s.step (.start (.load v q)) =
      begun.startPage s.nextCaller (.view v (view.latest + 1)) view.rows q := by
    simp only [Session.step, Session.start, hview]
    rfl
  have hfetch' : PageFetch.start begun.pager q begun.now view.rows
      (begun.isCancelled (.view v (view.latest + 1))) = .ok fetch := hcancelled ▸ hfetch
  obtain ⟨hnext, hresults, hawaits⟩ := h.idle
  rw [hstart, startPage, hfetch']
  exact ⟨⟨hnext, hresults, hawaits⟩, _, (caller?_put _ _ _).trans (if_pos rfl), rfl, rfl⟩

/-! ## The reply -/

theorem Sent.guard? {o : Guard} {fetch : PageFetch R} (h : s.Sent n o fetch) :
    s.guard? n = some o := by
  obtain ⟨c, hc, hjob, -⟩ := h.caller
  rw [guard?_of_caller? hc, hjob]
  rfl

theorem Sent.asCall {fetch : PageFetch R} {o : Guard} (h : s.Sent n o fetch) (cancelled : Bool) :
    (s.asCall n cancelled).Sent n callGuard fetch := by
  obtain ⟨⟨hnext, hresults, hawaits⟩, c, hc, hjob, hunasked⟩ := h
  refine ⟨⟨hnext, hresults, hawaits⟩, c.under callGuard, ?_, congrArg (Job.under _) hjob, hunasked⟩
  rw [caller?_asCall, hc, Option.map_some, if_pos (number_of_caller? hc)]

end Session

/-! ## The answers to the references -/

theorem Session.Idle.finishPage {s : Session R E} {n : Nat} (h : s.Idle n) (o : Guard)
    (r : Except Failure (Page R E)) : ∃ result, (s.finishPage n o r).Ended n result := by
  unfold Session.finishPage
  split
  · exact ⟨_, h.finish _⟩
  · split
    · exact ⟨_, h.finish _⟩
    · next view _ =>
      refine ⟨_, Session.Idle.finish (s := Session.count { s with views := _ } _) ?_ _⟩
      exact ⟨h.next, h.results, h.awaits⟩
  · exact ⟨_, h.finish _⟩
  · exact ⟨_, h.finish _⟩

/-- The caller of a page under any guard collects the answers to the references of the page. -/
def PageFetch.errand (fetch : PageFetch R) (n : Nat) (o : Guard) (page : RawPage R) :
    Errand R E where
  caller := n
  job := .rows fetch o page
  ids := fetch.references page
  Live _ := True
  Admits _ := True
  Ending _ _ := True
  asking := trivial
  admits_insert _ _ _ := trivial
  ending_congr _ _ := trivial
  settle_ended {s answers known} hidle _ _ _ := by
    let assembled := fetch.assemble page (s.isCancelled o) answers
    obtain ⟨r, hended⟩ := (hidle.count (fetch.counters assembled)).finishPage o assembled
    refine ⟨r, trivial, ?_⟩
    rwa [Session.settle_rows s rfl rfl rfl]

namespace Session

variable {s : Session R E} {n v : Nat} {g : UInt64} {view : View R E} {loads : Nat → Nat}
  {e : Event R} {es : List (Event R)} {fetch : PageFetch R} {page : RawPage R} {o : Guard}
  {directory : Directory E} {unasked : List String} {known : String → Option (Option E)}

theorem Performs.guard? (h : s.Performs (fetch.errand n o page) directory unasked known)
    (hsome : ¬ (fetch.errand n o page : Errand R E).Complete known) : s.guard? n = some o := by
  obtain ⟨-, c, hc, hcarries⟩ := h.collecting hsome
  refine (guard?_of_caller? hc).trans ?_
  rw [hcarries.job]
  rfl

/-- The call that stands for a load collects the same answers. -/
theorem Performs.asCall (h : s.Performs (fetch.errand n o page) directory unasked known)
    (hsome : ¬ (fetch.errand n o page : Errand R E).Complete known) (cancelled : Bool) :
    (s.asCall n cancelled).Performs (Visit.errand ⟨n, some "", fetch, page⟩ (· = cancelled))
      directory unasked known := by
  obtain ⟨hattends, c, hc, hcarries⟩ := h.collecting hsome
  refine ⟨⟨h.defers.nodup, h.defers.unknown⟩, fun hall => absurd hall hsome, fun _ =>
    ⟨⟨hattends.next, ?_, hattends.directory, hattends.results, hattends.awaits⟩,
      c.under callGuard, ?_, hcarries.number, ?_, trivial, hcarries.answers, hcarries.missing,
      hcarries.unasked⟩⟩
  · cases cancelled <;> rfl
  · have hnumber : c.number = n := hcarries.number
    refine (s.caller?_asCall n cancelled n).trans ((congrArg _ hc).trans ?_)
    rw [Option.map_some, if_pos hnumber]
  · exact congrArg (Job.under _) hcarries.job

/-- The event that stands for another one lets the same callers go on and brings the same answers. -/
theorem knownAfter_asCall (s : Session R E) (n : Nat) (view : View R E) (e : Event R) (id : String) :
    (s.asCall n view.cancelled).knownAfter n directory unasked known [e.asCall view] id =
      s.knownAfter n directory unasked known [e] id := by
  by_cases hmem : id ∈ unasked
  · rw [knownAfter_of_mem hmem, knownAfter_of_mem hmem]
    by_cases hlookUp : e = .lookUp n
    · subst hlookUp
      change (s.asCall n view.cancelled).answerToLookup? n id _ [.lookUp n] = _
      cases unasked.idxOf id with
      | zero => rw [answerToLookup?_lookUp_zero, answerToLookup?_lookUp_zero, asCall]
      | succ i => rw [answerToLookup?_lookUp_succ, answerToLookup?_lookUp_succ]; rfl
    · have hnot : e.looksUp n = false := looksUp_of_ne hlookUp
      have hnot' : (e.asCall view).looksUp n = false := by
        cases e with
        | start task => cases task <;> rfl
        | _ => exact hnot
      rw [answerToLookup?_of_not_looksUp hnot, answerToLookup?_of_not_looksUp hnot']
      rfl
  · rw [knownAfter_of_not_mem hmem, knownAfter_of_not_mem hmem]
    cases e with
    | start task => cases task <;> rfl
    | _ => rfl

/-- A load ends with the answer to the last of its references. -/
theorem Sound.ends_of_answered (h : s.Sound loads) (hroom : HasRoom loads [e])
    (hperforms : s.Performs (fetch.errand n (.view v g) page) directory unasked known)
    (hsome : ¬ (fetch.errand n (.view v g) page : Errand R E).Complete known)
    (hview : s.views[v]? = some view) (habort : e ≠ .abort n)
    (hall : (fetch.errand n (.view v g) page : Errand R E).Complete
      (s.knownAfter n directory unasked known [e])) :
    s.Ends e n v g view (Visit.outcome ⟨n, some "", fetch, page⟩ view.cancelled
      (s.knownAfter n directory unasked known [e])) := by
  refine h.ends hroom (.inl (hperforms.guard? hsome)) hview habort ?_
  have hcall := hperforms.asCall hsome view.cancelled
  have hsame (id : String) : (s.asCall n view.cancelled).knownAfter n directory unasked known
      [e.asCall view] id = s.knownAfter n directory unasked known [e] id :=
    knownAfter_asCall s n view e id
  rcases (asCall_numbered h.numbered n view.cancelled).untouched (e.asCall view) with
    ⟨token, he⟩ | huntouched
  · -- a token that fires brings no answer
    refine absurd (fun id hid => ?_) hsome
    have hknown := hall id hid
    rw [← hsame, he] at hknown
    by_cases hmem : id ∈ unasked
    · rw [knownAfter_of_mem hmem] at hknown
      cases hknown
    · rw [knownAfter_of_not_mem hmem] at hknown
      exact Option.or_none (o := known id) ▸ hknown
  · have hfired := (huntouched _ (Nat.le_refl _)).fired
    have habort' : e.asCall view ≠ .abort n := by
      cases e with
      | start task => cases task <;> exact nofun
      | _ => exact habort
    have hstep := hcall.advance h.singleFlight habort' ?_
    · obtain ⟨_, ⟨_, rfl, rfl⟩, hended⟩ := hstep.ended fun id hid => (hsame id).symm ▸ hall id hid
      exact hended.results.trans (congrArg (fun r => [Result.ofFetch r])
        (Visit.outcome_congr (fun id _ => hsame id) view.cancelled))
    · change (some "").any ((s.asCall n view.cancelled).step (e.asCall view)).fired.contains = _
      rw [hfired]
      cases view.cancelled <;> rfl

theorem knownAfter_of_complete {errand : Errand R E} (hdefers : errand.Defers unasked known)
    (hall : errand.Complete known) {id : String} (hid : id ∈ errand.ids) (s : Session R E)
    (es : List (Event R)) : s.knownAfter n directory unasked known es id = known id := by
  have hknown := hall id hid
  have hmem : id ∉ unasked := fun hmem =>
    Option.isSome_iff_ne_none.1 hknown (hdefers.unknown id hmem).2
  obtain ⟨a, ha⟩ := Option.isSome_iff_exists.1 hknown
  rw [knownAfter_of_not_mem hmem, ha, Option.some_or]

/-- A load whose page has come ends as soon as the answers to all its references are there. -/
theorem Sound.ends_of_complete (h : s.Sound loads) (hroom : HasRoom loads es)
    (hperforms : s.Performs (fetch.errand n (.view v g) page) directory unasked known)
    (hsome : ¬ (fetch.errand n (.view v g) page : Errand R E).Complete known)
    (habort : .abort n ∉ es)
    (hall : (fetch.errand n (.view v g) page : Errand R E).Complete
      (s.knownAfter n directory unasked known es)) :
    ∃ es₁ e es₂ view, es = es₁ ++ e :: es₂ ∧ (s.run es₁).views[v]? = some view ∧
      (s.run es₁).Ends e n v g view (Visit.outcome ⟨n, some "", fetch, page⟩ view.cancelled
        (s.knownAfter n directory unasked known es)) := by
  induction es generalizing s loads unasked known with
  | nil =>
    obtain ⟨r, -, hended⟩ := (hperforms.run h.singleFlight habort fun _ _ _ => trivial).ended hall
    have hrunning := isSome_caller?_of_guard? (hperforms.guard? hsome)
    exact absurd hended.caller (Option.isSome_iff_ne_none.1 hrunning)
  | cons e es ih =>
    rw [List.mem_cons, not_or] at habort
    have hstep := hperforms.advance h.singleFlight (Ne.symm habort.1) trivial
    have hcons (id : String) : s.knownAfter n directory unasked known (e :: es) id =
        (s.step e).knownAfter n directory (unasked.drop ([e].countP (·.looksUp n)))
          (s.knownAfter n directory unasked known [e]) es id := hperforms.knownAfter_cons e es id
    by_cases hnow : (fetch.errand n (.view v g) page : Errand R E).Complete
        (s.knownAfter n directory unasked known [e])
    · obtain ⟨view, hview, -⟩ := h.ranked.le (hperforms.guard? hsome)
      have hends := h.ends_of_answered hroom.head hperforms hsome hview
        (Ne.symm habort.1) hnow
      refine ⟨[], e, es, view, rfl, hview, ?_⟩
      rwa [Visit.outcome_congr fun id hid => (hcons id).trans
        (knownAfter_of_complete hstep.defers hnow hid _ es)]
    · obtain ⟨es₁, e', es₂, view, rfl, hview, hends⟩ := ih (h.step hroom.head)
        hroom.tail hstep hnow habort.2 fun id hid => hcons id ▸ hall id hid
      refine ⟨e :: es₁, e', es₂, view, rfl, hview, ?_⟩
      rwa [Visit.outcome_congr fun id _ => hcons id]

/-! ## The end -/

section Reply

variable {reply : Reply}

/-- The body of a page makes its caller collect the answers to the references of the page. -/
theorem Sent.collects_rows (h : s.Sent n o fetch)
    (hreply : fetch.receive (s.isCancelled o) reply = .ok page)
    (hdirectory : s.directory? = some directory) :
    (s.step (.receive n reply)).Performs (fetch.errand n o page) directory (fetch.references page)
      fun _ => none := by
  change (s.receive n reply).Performs _ _ _ _
  rw [h.receive_eq hreply]
  exact Idle.ask_performs (e := fetch.errand n o page) h.idle trivial hdirectory (nodup_distinct _)
    trivial

/-- A reply ends a load with whatever it ends the call with that stands for the load. -/
theorem Sound.ends_on_reply (h : s.Sound loads) (hsent : s.Sent n (.view v g) fetch)
    (hroom : HasRoom loads [(.receive n reply : Event R)]) (hview : s.views[v]? = some view)
    {r : Except Failure (Page R E)}
    (hended : ((s.asCall n view.cancelled).receive n reply).Ended n (.ofFetch r)) :
    s.Ends (.receive n reply) n v g view r := by
  have habort : (.receive n reply : Event R) ≠ .abort n := by rintro ⟨⟩
  exact h.ends hroom (.inl hsent.guard?) hview habort hended.results

theorem Sound.ends_without_page (h : s.Sound loads) (hsent : s.Sent n (.view v g) fetch)
    (hroom : HasRoom loads [(.receive n reply : Event R)]) (hview : s.views[v]? = some view)
    {f : Failure} (hreply : fetch.receive view.cancelled reply = .error f) :
    s.Ends (.receive n reply) n v g view (.error f) := by
  refine h.ends_on_reply hsent hroom hview ((hsent.asCall view.cancelled).fails ?_)
  rwa [← callGuard, isCancelled_asCall]

/-- The body of a page for which nothing is looked up ends its load. -/
theorem Sound.ends_on_body (h : s.Sound loads) (hsent : s.Sent n (.view v g) fetch)
    (hroom : HasRoom loads [(.receive n reply : Event R)]) (hview : s.views[v]? = some view)
    (hreply : fetch.receive view.cancelled reply = .ok page)
    (hnothing : s.resolver = none ∨ ∀ id, id ∉ fetch.references page) :
    s.Ends (.receive n reply) n v g view
      (.ok (Visit.enriched ⟨n, some "", fetch, page⟩ fun _ => none)) := by
  have hcall : (s.asCall n view.cancelled).Sent n (.ofToken (some "")) fetch :=
    hsent.asCall view.cancelled
  have hreply' : fetch.receive ((s.asCall n view.cancelled).isCancelled (.ofToken (some ""))) reply =
      .ok page := by
    rwa [← callGuard, isCancelled_asCall]
  refine h.ends_on_reply hsent hroom hview ?_
  cases hr : s.resolver with
  | none => exact hcall.ended_uncached hreply' hr
  | some r =>
    have hperforms : ((s.asCall n view.cancelled).receive n reply).Performs
        (Visit.errand ⟨n, some "", fetch, page⟩ (· = false)) r.directory (fetch.references page)
        fun _ => none :=
      hcall.performs hreply' rfl (congrArg (Option.map _) hr)
    have hnone := hnothing.resolve_left (Option.ne_none_iff_exists'.2 ⟨r, hr⟩)
    obtain ⟨_, ⟨_, rfl, rfl⟩, hended⟩ := hperforms.ended fun id hid => absurd hid (hnone id)
    exact hended

/-- The body of a page with references ends its load, under any later events, with the answer to the
last of them, and not before. -/
theorem Sound.ends_after_body (h : s.Sound loads) (hsent : s.Sent n (.view v g) fetch)
    (hroom : HasRoom loads (.receive n reply :: es)) (habort : .abort n ∉ es)
    (hreply : fetch.receive (s.isCancelled (.view v g)) reply = .ok page)
    (hdirectory : s.directory? = some directory) {id : String} (hid : id ∈ fetch.references page) :
    let received := s.step (.receive n reply)
    let known := received.knownAfter n directory (fetch.references page) (fun _ => none) es
    ((∀ id ∈ fetch.references page, (known id).isSome) →
      ∃ es₁ e es₂ view, es = es₁ ++ e :: es₂ ∧ (received.run es₁).views[v]? = some view ∧
        (received.run es₁).Ends e n v g view
          (Visit.outcome ⟨n, some "", fetch, page⟩ view.cancelled known)) ∧
    (¬ (∀ id ∈ fetch.references page, (known id).isSome) →
      (received.run es).guard? n = some (.view v g)) := by
  intro received known
  have hperforms : received.Performs (fetch.errand n (.view v g) page) directory
      (fetch.references page) fun _ => none := hsent.collects_rows hreply hdirectory
  have hsome : ¬ (fetch.errand n (.view v g) page : Errand R E).Complete fun _ => none :=
    fun hall => Bool.false_ne_true (hall id hid)
  refine ⟨(h.step hroom.head).ends_of_complete hroom.tail hperforms hsome habort, ?_⟩
  exact (hperforms.run (h.singleFlight.step _) habort fun _ _ _ => trivial).guard?

/-- A load whose request was sent ends with what its reply and the answers to its references make of it,
and not before. -/
theorem Sound.concludes (h : s.Sound loads) (hsent : s.Sent n (.view v g) fetch)
    (hroom : HasRoom loads (.receive n reply :: es)) (habort : .abort n ∉ es) :
    s.Concludes n v g fetch reply es := by
  obtain ⟨view, hview, -⟩ := h.ranked.le hsent.guard?
  refine ⟨view, hview, ?_⟩
  split
  · next f hreply => exact h.ends_without_page hsent hroom.head hview hreply
  · next page hreply =>
    intro received known answered events
    let visit : Visit R := ⟨n, some "", fetch, page⟩
    by_cases hnothing : s.resolver = none ∨ ∀ id, id ∉ fetch.references page
    · have hunknown (id : String) (hid : id ∈ fetch.references page) : known id = none :=
        hnothing.elim (fun hr => answerToLookup?_uncached
          (fun es => h.numbered.uncached_run hr (.receive n reply :: es)) _ es) fun hnone =>
          absurd hid (hnone id)
      have hanswered : answered := hnothing.imp_right fun hnone id hid => absurd hid (hnone id)
      refine ⟨fun _ => ⟨[], _, es, view, rfl, hview, ?_⟩, fun hnot => absurd hanswered hnot⟩
      change Ends s _ n v g view (visit.outcome view.cancelled known)
      rw [visit.outcome_congr hunknown, (PageFetch.receive_eq_ok hreply).1]
      exact h.ends_on_body hsent hroom.head hview hreply hnothing
    · obtain ⟨hcached, hid⟩ := not_or.1 hnothing
      obtain ⟨r, hr⟩ := Option.ne_none_iff_exists'.1 hcached
      obtain ⟨id, hid⟩ := not_forall_not.1 hid
      have hdirectory : s.directory? = some r.directory := congrArg (Option.map _) hr
      have hknown {id : String} (hid : id ∈ fetch.references page) : received.knownAfter n r.directory
          (fetch.references page) (fun _ => none) es id = known id := knownAfter_of_mem hid es
      obtain ⟨hends, hgoes⟩ := h.ends_after_body hsent hroom habort
        ((isCancelled_view hview g).symm ▸ hreply) hdirectory hid
      refine ⟨fun hanswered => ?_, fun hnot => ?_⟩
      · have hall := hanswered.resolve_left hcached
        obtain ⟨es₁, e, es₂, view', rfl, hview', hends⟩ :=
          hends fun id hid => (hknown hid).symm ▸ hall id hid
        refine ⟨.receive n reply :: es₁, e, es₂, view', rfl, hview', ?_⟩
        rwa [visit.outcome_congr fun id hid => hknown hid] at hends
      · exact hgoes fun hall => hnot (.inr fun id hid => hknown hid ▸ hall id hid)

end Reply

end Session

end LedgerExplorer
