import LedgerExplorer.Proofs.Session.Loading
import LedgerExplorer.Proofs.Session.Stages

/-!
# A load and a call side by side

The load of a view does what a call for the same page does under a token that has fired if the view
is cancelled (`Session.asCall`). Both go on waiting (`Session.Twins`) until the call ends with what was
fetched and the load with what its view makes of that (`Session.Parted`).
-/

namespace LedgerExplorer

variable {R E : Type}

/-- What a load ends with when the fetch of its page returns. A crash ends it too; otherwise its view
asks first whether it is cancelled and then whether another load has started. -/
def Result.ofLoad (cancelled superseded : Bool) : Except Failure (Page R E) → Result R E
  | .error (.crash c) => .failed (.crash c)
  | .error (.fault f) =>
    if cancelled then .load .cancelled
    else if superseded then .load .superseded
    else .failed (.fault f)
  | .ok _ =>
    if cancelled then .load .cancelled
    else if superseded then .load .superseded
    else .load .applied

/-- The same job under another guard. -/
def Job.under (g : Guard) : Job R → Job R
  | .page fetch _ => .page fetch g
  | .rows fetch _ body => .rows fetch g body
  | job => job

def Caller.under (c : Caller R E) (g : Guard) : Caller R E := { c with job := c.job.under g }

theorem Caller.under_meet (c : Caller R E) (g : Guard) (id : String) (found : Lookup E) :
    (c.under g).meet id found = (c.meet id found).under g := by
  cases found <;> rfl

/-! ## Fetches are cancelled only by their guards -/

namespace PageFetch

variable {cancelled : Bool}

theorem cancelled_of_start {p : Pager} {q : PageQuery} {now : Instant} {rows : RowKind R}
    (h : start p q now rows cancelled = .error (.fault .cancelled)) : cancelled = true := by
  unfold start at h
  split at h
  · next e _ => cases e <;> cases h
  · cases cancelled
    · cases h
    · rfl

theorem cancelled_of_receive {fetch : PageFetch R} {reply : Reply}
    (h : fetch.receive cancelled reply = .error (.fault .cancelled)) : cancelled = true := by
  unfold receive at h
  split at h
  · next e hdecode =>
    cases h
    cases reply with
    | body v =>
      change (v.decodeAs _).mapError _ = _ at hdecode
      cases hv : v.decodeAs (RawPage.decoder fetch.rows.decode) with
      | error e =>
        rw [hv] at hdecode
        cases hdecode
      | ok page =>
        rw [hv] at hdecode
        cases hdecode
    | error e => cases hdecode
    | crash => cases hdecode
  · cases cancelled
    · cases h
    · rfl

theorem cancelled_of_assemble {fetch : PageFetch R} {page : RawPage R} {answers : Dict (Option E)}
    (h : fetch.assemble page cancelled answers = .error (.fault .cancelled)) : cancelled = true := by
  cases cancelled
  · cases h
  · rfl

end PageFetch

/-- A load whose fetch is cancelled only with its view ends with what the view makes of the fetch. -/
theorem View.ofCompletion_complete {view : View R E} {g : UInt64} {r : Except Fault (Page R E)}
    (hr : r = .error .cancelled → view.cancelled = true) (hg : g ≤ view.latest) :
    Result.ofCompletion (view.complete g r).1 =
      (.ofLoad view.cancelled (g < view.latest) (r.mapError .fault) : Result R E) := by
  have hlatest : view.latest = g ↔ ¬ g < view.latest := by
    rw [UInt64.not_lt]
    exact ⟨fun heq => heq ▸ UInt64.le_refl _, fun hle => UInt64.le_antisymm hle hg⟩
  cases hcancelled : view.cancelled with
  | true =>
    cases r <;> simp [complete, hcancelled, Result.ofLoad, Result.ofCompletion, Except.mapError]
  | false =>
    rw [hcancelled] at hr
    by_cases hsuperseded : g < view.latest
    · rcases r with (_ | _ | _ | _ | _) | _ <;>
        simp_all [complete, Result.ofLoad, Result.ofCompletion, Except.mapError]
    · rcases r with (_ | _ | _ | _ | _) | _ <;>
        simp_all [complete, Result.ofLoad, Result.ofCompletion, Except.mapError]

namespace Session

variable {s s' t t' : Session R E} {n v : Nat} {g : UInt64} {view : View R E} {loads : Nat → Nat}

/-- The guard of the call that stands for a load. -/
def callGuard : Guard := .ofToken (some "")

/-- The session in which the load of a caller is a call for its page, under a token that has fired if
the view is cancelled. -/
def asCall (s : Session R E) (n : Nat) (cancelled : Bool) : Session R E :=
  { s with
    callers := s.callers.map fun c => if c.number = n then c.under callGuard else c
    fired := if cancelled then [""] else [] }

/-- The event that starts a call for a page in place of the load of a view. -/
def Event.asCall (view : View R E) : Event R → Event R
  | .start (.load _ q) => .start (.page q view.rows (some ""))
  | e => e

/-! ## The end of a load -/

theorem caller?_finishPage (s : Session R E) (m : Nat) (o : Guard) (r : Except Failure (Page R E))
    (n : Nat) : (s.finishPage m o r).caller? n = if n = m then none else s.caller? n := by
  unfold finishPage
  split
  · exact caller?_finish _ m _ n
  · split
    · exact caller?_finish _ m _ n
    · exact caller?_finish _ m _ n
  · exact caller?_finish _ m _ n
  · exact caller?_finish _ m _ n

theorem results_finishPage_view (hview : s.views[v]? = some view) (hg : g ≤ view.latest)
    {r : Except Failure (Page R E)} (hr : r = .error (.fault .cancelled) → view.cancelled = true)
    (n : Nat) : (s.finishPage n (.view v g) r).results n =
      s.results n ++ [.ofLoad view.cancelled (g < view.latest) r] := by
  by_cases hcrash : ∃ c, r = .error (.crash c)
  · obtain ⟨c, rfl⟩ := hcrash
    exact (results_finish s n _ n).trans (if_pos rfl)
  · obtain ⟨r', rfl, hend⟩ := finishPage_view hview n (g := g) (not_exists.1 hcrash)
    rw [hend, ← View.ofCompletion_complete (fun heq => hr (congrArg _ heq)) hg]
    exact (results_finish _ n _ n).trans (if_pos rfl)

theorem shown_finishPage_view (hview : s.views[v]? = some view) (hcancelled : view.cancelled = false)
    (n : Nat) (page : Page R E) :
    ∃ view', (s.finishPage n (.view v view.latest) (.ok page)).views[v]? = some view' ∧
      view'.shown = (some page, view.latest) := by
  have hend : s.finishPage n (.view v view.latest) (.ok page) =
      s.complete n v view.latest view (.ok page) := by
    simp only [finishPage, hview]
    rfl
  obtain ⟨view', hview', -, hshown, -⟩ := views_complete hview hview n view.latest (.ok page)
  rw [if_pos rfl, View.complete_of_latest hcancelled] at hshown
  rw [hend]
  exact ⟨view', hview', hshown⟩

/-! ## A load and a call side by side -/

/-- A load of a view in one session and a call in another one, which are cancelled alike. -/
structure Abreast (n v : Nat) (g : UInt64) (view : View R E) (s s' : Session R E) : Prop where
  results : s.results n = []
  results' : s'.results n = []
  cancelled : s'.isCancelled callGuard = view.cancelled
  le_latest : g ≤ view.latest
  alone : ∀ m, s.guard? m = some (.view v g) → m = n
  view : ∃ view', s.views[v]? = some view' ∧ view'.latest = view.latest ∧
    view'.cancelled = view.cancelled

/-- Load and call are at the same stage. -/
structure Twins (n v : Nat) (g : UInt64) (view : View R E) (s s' : Session R E) : Prop where
  abreast : Abreast n v g view s s'
  caller : ∃ c, s.caller? n = some c ∧ s'.caller? n = some (c.under callGuard) ∧
    c.job.guard? = some (.view v g)

/-- Both have ended: the call with what was fetched, the load with what the view made of it. -/
structure Parted (n v : Nat) (g : UInt64) (view : View R E) (r : Except Failure (Page R E))
    (s s' : Session R E) : Prop where
  results : s.results n = [.ofLoad view.cancelled (g < view.latest) r]
  results' : s'.results n = [.ofFetch r]
  caller : s.caller? n = none
  caller' : s'.caller? n = none
  gone : ∀ m, s.guard? m ≠ some (.view v g)
  view : ∃ view', s.views[v]? = some view' ∧ view'.latest = view.latest ∧
    ∀ page, r = .ok page → view.cancelled = false → g = view.latest → view'.shown = (some page, g)

theorem Abreast.of_eq (h : Abreast n v g view s s') (hcallers : t.callers = s.callers)
    (hviews : t.views = s.views) (hfinished : t.finished = s.finished)
    (hfinished' : t'.finished = s'.finished) (hfired' : t'.fired = s'.fired) :
    Abreast n v g view t t' where
  results := by
    rw [Session.results, hfinished]
    exact h.results
  results' := by
    rw [Session.results, hfinished']
    exact h.results'
  cancelled := (isCancelled_ofToken_congr hfired' _).trans h.cancelled
  le_latest := h.le_latest
  alone m hm := h.alone m (guard?_congr hcallers m ▸ hm)
  view := hviews ▸ h.view

theorem Twins.of_eq (h : Twins n v g view s s') (hcallers : t.callers = s.callers)
    (hviews : t.views = s.views) (hfinished : t.finished = s.finished)
    (hcallers' : t'.callers = s'.callers) (hfinished' : t'.finished = s'.finished)
    (hfired' : t'.fired = s'.fired) : Twins n v g view t t' where
  abreast := h.abreast.of_eq hcallers hviews hfinished hfinished' hfired'
  caller := by
    rw [caller?, hcallers, caller?, hcallers']
    exact h.caller

theorem isCancelled_view (hview : s.views[v]? = some view) (g : UInt64) :
    s.isCancelled (.view v g) = view.cancelled := by
  rw [isCancelled, hview]
  rfl

theorem Abreast.isCancelled (h : Abreast n v g view s s') :
    s'.isCancelled callGuard = s.isCancelled (.view v g) := by
  obtain ⟨view', hview', -, hcancelled⟩ := h.view
  rw [h.cancelled, isCancelled_view hview', hcancelled]

theorem Abreast.finishPage (h : Abreast n v g view s s') {r : Except Failure (Page R E)}
    (hr : r = .error (.fault .cancelled) → view.cancelled = true) :
    Parted n v g view r (s.finishPage n (.view v g) r) (s'.finishPage n callGuard r) := by
  obtain ⟨view₁, hview₁, hlatest, hcancelled⟩ := h.view
  have hcaller := s.caller?_finishPage n (.view v g) r n
  rw [if_pos rfl] at hcaller
  have hcaller' := s'.caller?_finishPage n callGuard r n
  rw [if_pos rfl] at hcaller'
  refine ⟨?_, ?_, hcaller, hcaller', fun m hm => ?_, ?_⟩
  · rw [results_finishPage_view hview₁ (hlatest ▸ h.le_latest) (hcancelled ▸ hr) n, h.results,
      hlatest, hcancelled, List.nil_append]
  · rw [callGuard, finishPage_ofToken, results_finish, if_pos rfl, h.results', List.nil_append]
  · rw [guard?, caller?_finishPage] at hm
    split at hm
    · cases hm
    · next hne => exact hne (h.alone m hm)
  · obtain ⟨view', hview', hlatest', -⟩ := (finishPage_turn s n (.view v g) r).views hview₁
    refine ⟨view', hview', hlatest'.trans hlatest, ?_⟩
    rintro page rfl hlive hlast
    obtain rfl : g = view₁.latest := hlast.trans hlatest.symm
    obtain ⟨view₂, hview₂, hshown⟩ := shown_finishPage_view hview₁ (hcancelled.trans hlive) n page
    cases hview'.symm.trans hview₂
    exact hshown

/-- What a session does for the callers of both leaves them at the same stage or parts them. -/
def Keeps (n v : Nat) (g : UInt64) (view : View R E) (t t' : Session R E) : Prop :=
  Twins n v g view t t' ∨ ∃ r, Parted n v g view r t t'

theorem Abreast.put (h : Abreast n v g view s s') {c : Caller R E} (hc : c.number = n)
    (hguard : c.job.guard? = some (.view v g)) :
    Twins n v g view (s.put c) (s'.put (c.under callGuard)) := by
  subst hc
  refine ⟨⟨h.results, h.results', h.cancelled, h.le_latest, fun m hm => ?_, h.view⟩,
    c, ?_, ?_, hguard⟩
  · rw [guard?_put] at hm
    split at hm
    · assumption
    · exact h.alone m hm
  · exact (caller?_put s c _).trans (if_pos rfl)
  · exact (caller?_put s' (c.under callGuard) _).trans (if_pos rfl)

theorem settle_page (s : Session R E) {c : Caller R E} {fetch : PageFetch R} {o : Guard}
    (hjob : c.job = .page fetch o) : s.settle c = s.put c := by
  unfold Session.settle
  split
  · rw [hjob]
  · rfl

theorem Abreast.settle (h : Abreast n v g view s s') {c : Caller R E} (hc : c.number = n)
    (hguard : c.job.guard? = some (.view v g)) :
    Keeps n v g view (s.settle c) (s'.settle (c.under callGuard)) := by
  have hput : Keeps n v g view (s.put c) (s'.put (c.under callGuard)) := .inl (h.put hc hguard)
  by_cases hall : c.unasked = [] ∧ c.missing = []
  · obtain ⟨hunasked, hmissing⟩ := hall
    rcases Job.page_or_rows hguard with ⟨fetch, hjob⟩ | ⟨fetch, body, hjob⟩
    · have hjob' : (c.under callGuard).job = .page fetch callGuard := congrArg (Job.under _) hjob
      rwa [settle_page s hjob, settle_page s' hjob']
    · have hjob' : (c.under callGuard).job = .rows fetch callGuard body :=
        congrArg (Job.under _) hjob
      rw [settle_rows s hjob hunasked hmissing, settle_rows s' hjob' hunasked hmissing,
        h.isCancelled]
      subst hc
      refine .inr ⟨_, Abreast.finishPage ?_ fun hr => ?_⟩
      · exact h.of_eq rfl rfl rfl rfl rfl
      · rw [← h.cancelled, h.isCancelled]
        exact PageFetch.cancelled_of_assemble hr
  · rwa [settle_eq_put s hall, settle_eq_put s' (c := c.under callGuard) hall]

theorem Abreast.ask (h : Abreast n v g view s s') (hresolver : s'.resolver = s.resolver)
    (job : Job R) (hguard : job.guard? = some (.view v g)) (ids : List String) :
    Keeps n v g view (s.ask n job ids) (s'.ask n (job.under callGuard) ids) := by
  unfold Session.ask
  rw [hresolver]
  exact h.settle (c := { number := n, job, unasked := _ }) rfl hguard

theorem Abreast.startPage (h : Abreast n v g view s s') (hpager : s'.pager = s.pager)
    (hnow : s'.now = s.now) (rows : RowKind R) (q : PageQuery) :
    Keeps n v g view (s.startPage n (.view v g) rows q) (s'.startPage n callGuard rows q) := by
  unfold Session.startPage
  rw [hpager, hnow, h.isCancelled]
  split
  · next f hstart =>
    refine .inr ⟨_, h.finishPage fun hr => ?_⟩
    cases hr
    rw [← h.cancelled, h.isCancelled]
    exact PageFetch.cancelled_of_start hstart
  · next fetch _ =>
    have htwins := h.put (c := { number := n, job := .page fetch (.view v g) }) rfl rfl
    exact .inl (htwins.of_eq rfl rfl rfl rfl rfl rfl)

/-! ## What an event does to both -/

theorem Twins.receive (h : Twins n v g view s s') (hresolver : s'.resolver = s.resolver)
    (reply : Reply) : Keeps n v g view (s.receive n reply) (s'.receive n reply) := by
  obtain ⟨habreast, c, hc, hc', hguard⟩ := h
  rcases Job.page_or_rows hguard with ⟨fetch, hjob⟩ | ⟨fetch, body, hjob⟩
  · have hjob' : (c.under callGuard).job = .page fetch callGuard := congrArg (Job.under _) hjob
    have hguard' := habreast.isCancelled
    cases hreceive : fetch.receive (s.isCancelled (.view v g)) reply with
    | error f =>
      rw [receive_of_refused hc hjob hreceive, receive_of_refused hc' hjob' (hguard' ▸ hreceive)]
      refine .inr ⟨_, Abreast.finishPage ?_ fun hr => ?_⟩
      · exact habreast.of_eq rfl rfl rfl rfl rfl
      · cases hr
        rw [← habreast.cancelled, habreast.isCancelled]
        exact PageFetch.cancelled_of_receive hreceive
    | ok body =>
      rw [receive_of_page hc hjob hreceive, receive_of_page hc' hjob' (hguard' ▸ hreceive)]
      exact habreast.ask hresolver (.rows fetch (.view v g) body) rfl _
  · -- the reply to the page's own call has come already
    have hjob' : (c.under callGuard).job = .rows fetch callGuard body := congrArg (Job.under _) hjob
    rw [receive_of_rows hc hjob, receive_of_rows hc' hjob']
    exact .inl ⟨habreast, c, hc, hc', hguard⟩

theorem Twins.proceed (h : Twins n v g view s s') (hresolver : s'.resolver = s.resolver) :
    Keeps n v g view (s.proceed n) (s'.proceed n) := by
  obtain ⟨habreast, c, hc, hc', hguard⟩ := h
  have hnumber := number_of_caller? hc
  rw [proceed_of_caller? hc, proceed_of_caller? hc']
  change Keeps n v g view _ (if c.unasked.isEmpty then _ else _)
  split
  · exact .inl ⟨habreast, c, hc, hc', hguard⟩
  · next hne =>
    cases hr : s.resolver with
    | none =>
      rw [lookUp_idle (.inl hr), lookUp_idle (.inl (hresolver.trans hr))]
      exact habreast.settle (c := { c with unasked := [] }) hnumber hguard
    | some r =>
      obtain ⟨id, rest, hids⟩ := List.exists_cons_of_ne_nil (List.isEmpty_iff.not.1 hne)
      have hlookUp' := lookUp_cons (c := c.under callGuard) (hresolver.trans hr) hids
      have hmeet := Caller.under_meet { c with unasked := rest } callGuard id (r.resolve c.number id).1
      rw [lookUp_cons hr hids, hlookUp']
      refine hmeet ▸ Abreast.settle (s := s.afterResolve r c.number id)
        (c := { c with unasked := rest }.meet id _) ?_ ?_ ?_
      · exact habreast.of_eq rfl rfl rfl rfl rfl
      · rwa [Caller.number_meet]
      · rwa [Caller.job_meet]

theorem Twins.tell (h : Twins n v g view s s') (id : String) (a : Option E) :
    Keeps n v g view (tell id a s n) (tell id a s' n) := by
  obtain ⟨habreast, c, hc, hc', hguard⟩ := h
  rw [tell_of_caller? hc, tell_of_caller? hc']
  have hnumber := number_of_caller? hc
  exact habreast.settle (c := { c with
    answers := c.answers.insert id a
    missing := c.missing.filter (· != id) }) hnumber hguard

/-- Another caller that is told an answer leaves a load and a call at the same stage. -/
theorem Twins.tell_other (h : Twins n v g view s s') (hranked : s.Ranked loads) {m : Nat} (hm : n ≠ m)
    (id : String) (a : Option E) :
    Twins n v g view (Session.tell id a s m) (Session.tell id a s' m) := by
  obtain ⟨⟨hresults, hresults', hcancelled, hle, halone, view₁, hview₁, hlatest₁, hcancelled₁⟩,
    c, hc, hc', hguard⟩ := h
  have hsame := tell_untouched s id a hm
  have hsame' := tell_untouched s' id a hm
  have hturns := tell_turns s id a m
  have hcaller := hsame.caller.trans hc
  obtain ⟨view', hview', hlatest', hcancelled', -⟩ := hturns.views hranked hview₁
  refine ⟨⟨hsame.results.trans hresults, hsame'.results.trans hresults', ?_, hle, fun k hk => ?_,
    view', hview', hlatest'.trans hlatest₁, ?_⟩, c, hcaller, hsame'.caller.trans hc', hguard⟩
  · rw [callGuard, isCancelled_ofToken_congr hsame'.fired]
    exact hcancelled
  · exact halone k (hturns.guard?_kept hk)
  · rw [hcancelled' n g ((guard?_of_caller? hcaller).trans hguard), hcancelled₁]

/-- Whatever others do, what a load ended with stays, and so does the page that it shows. -/
theorem Parted.turns {r : Except Failure (Page R E)} (h : Parted n v g view r s s')
    (hranked : s.Ranked loads) (hs : Turns s t) (hs' : Turns s' t') : Parted n v g view r t t' := by
  obtain ⟨hcaller, hresults⟩ := hs.ended h.caller
  obtain ⟨hcaller', hresults'⟩ := hs'.ended h.caller'
  obtain ⟨view₁, hview₁, hlatest₁, hpage₁⟩ := h.view
  obtain ⟨view', hview', hlatest', -, hshown⟩ := hs.views hranked hview₁
  refine ⟨hresults.trans h.results, hresults'.trans h.results', hcaller, hcaller',
    fun m hm => h.gone m (hs.guard?_kept hm), view', hview', hlatest'.trans hlatest₁, ?_⟩
  intro page hr hlive hlast
  rcases hshown with hsame | ⟨m, page', hguard, -⟩
  · rw [hsame]
    exact hpage₁ page hr hlive hlast
  · rw [hlatest₁, ← hlast] at hguard
    exact absurd hguard (h.gone m)

theorem Twins.foldl_tell (h : Twins n v g view s s') (hranked : s.Ranked loads) (id : String)
    (a : Option E) (ns : List Nat) :
    Keeps n v g view (ns.foldl (Session.tell id a) s) (ns.foldl (Session.tell id a) s') := by
  induction ns generalizing s s' with
  | nil => exact .inl h
  | cons m ns ih =>
    rw [List.foldl_cons, List.foldl_cons]
    have hranked' := hranked.turns (tell_turns s id a m)
    by_cases hm : n = m
    · subst hm
      rcases h.tell id a with htwins | ⟨r, hparted⟩
      · exact ih htwins hranked'
      · exact .inr ⟨r, hparted.turns hranked' (foldl_tell_turns _ id a ns)
          (foldl_tell_turns _ id a ns)⟩
    · exact ih (h.tell_other hranked hm id a) hranked'

theorem Twins.learn (h : Twins n v g view s s') (hranked : s.Ranked loads)
    (hresolver : s'.resolver = s.resolver) (id : String) (reply : Reply) :
    Keeps n v g view (s.learn id reply) (s'.learn id reply) := by
  unfold Session.learn
  rw [hresolver]
  cases s.resolver with
  | none => exact .inl h
  | some r =>
    dsimp only
    split
    · have hlearnt (r' : Resolver E) : ({ s with resolver := some r' } : Session R E).Ranked loads :=
        hranked.of_quiet (.of_eq rfl rfl rfl rfl)
      refine Twins.foldl_tell ?_ (hlearnt _) id _ _
      exact h.of_eq rfl rfl rfl rfl rfl rfl
    · exact .inl h

/-! ## Loads and events -/

theorem caller?_asCall (s : Session R E) (n : Nat) (cancelled : Bool) (m : Nat) :
    (s.asCall n cancelled).caller? m =
      (s.caller? m).map fun c => if c.number = n then c.under callGuard else c := by
  unfold caller? asCall
  dsimp only
  rw [List.find?_map]
  have hnumber : ((fun c : Caller R E => c.number == m) ∘ fun c =>
      if c.number = n then c.under callGuard else c) = fun c => c.number == m := by
    funext c
    change ((if c.number = n then c.under callGuard else c).number == m) = _
    split <;> rfl
  rw [hnumber]

theorem isCancelled_asCall (s : Session R E) (n : Nat) (cancelled : Bool) :
    (s.asCall n cancelled).isCancelled callGuard = cancelled := by
  cases cancelled <;> rfl

theorem concerns_asCall (s : Session R E) (n : Nat) (view : View R E) (e : Event R) :
    (e.asCall view).Concerns (s.asCall n view.cancelled) n ↔ e.Concerns s n := by
  have hrunning : ((s.asCall n view.cancelled).caller? n).isSome = (s.caller? n).isSome := by
    rw [caller?_asCall, Option.isSome_map]
  cases e with
  | start task => cases task <;> exact Iff.rfl
  | receive | lookUp | abort => exact and_congr_right fun _ => by rw [hrunning]
  | learn | fire | openView | cancelView | dropView | invalidate | clear => exact Iff.rfl

theorem Ranked.twins (h : s.Ranked loads) (honce : s.Once) (hg : s.guard? n = some (.view v g))
    (hview : s.views[v]? = some view) : Twins n v g view s (s.asCall n view.cancelled) := by
  have hresults : s.results n = [] := (honce n).2 (isSome_caller?_of_guard? hg)
  obtain ⟨c, hc, hguard⟩ := Option.bind_eq_some_iff.1 hg
  refine ⟨⟨hresults, hresults, s.isCancelled_asCall n _, h.le_latest hg hview,
    fun m hm => h.inj hm hg, view, hview, rfl, rfl⟩, c, hc, ?_, hguard⟩
  rw [caller?_asCall, hc, Option.map_some, if_pos (number_of_caller? hc)]

/-- What the event that starts a load does to it and to the call in its place. -/
theorem Ranked.start_keeps (h : s.Ranked loads) (hnumbered : s.Numbered)
    (hview : s.views[v]? = some view) {q : PageQuery}
    (hroom : HasRoom loads [(.start (.load v q) : Event R)]) :
    Keeps s.nextCaller v (view.latest + 1) view.begin.2 (s.step (.start (.load v q)))
      ((s.asCall s.nextCaller view.cancelled).step (.start (.page q view.rows (some "")))) := by
  obtain ⟨-, hresults, -⟩ := hnumbered s.nextCaller (Nat.le_refl _)
  let begun : Session R E := { s.begin v view with nextCaller := s.nextCaller + 1 }
  let called : Session R E := { s.asCall s.nextCaller view.cancelled with
    nextCaller := s.nextCaller + 1 }
  have hstart : s.step (.start (.load v q)) =
      begun.startPage s.nextCaller (.view v (view.latest + 1)) view.rows q := by
    simp only [Session.step, Session.start, hview]
    rfl
  have habreast : Abreast s.nextCaller v (view.latest + 1) view.begin.2 begun called := by
    refine ⟨hresults, hresults, s.isCancelled_asCall s.nextCaller _, UInt64.le_refl _,
      fun m hm => ?_, view.begin.2, ?_, rfl, rfl⟩
    · exact absurd ((h.lt_next hroom hview).2 hm) (UInt64.lt_irrefl _)
    · exact List.getElem?_set_self (List.getElem?_eq_some_iff.1 hview).1
  rw [hstart]
  exact habreast.startPage rfl rfl view.rows q

/-- What an event does to a load that is under way, and to the call in its place. -/
theorem Ranked.running_keeps (h : s.Ranked loads) (hnumbered : s.Numbered) (honce : s.Once)
    (hg : s.guard? n = some (.view v g)) (hview : s.views[v]? = some view) (e : Event R) :
    ((s.step e).guard? n = some (.view v g) ∧ (s.step e).results n = [] ∧
        ((s.asCall n view.cancelled).step (e.asCall view)).results n = []) ∨ e = .abort n ∨
      Keeps n v g view (s.step e) ((s.asCall n view.cancelled).step (e.asCall view)) := by
  have htwins := h.twins honce hg hview
  by_cases hconcerns : e.Concerns s n
  · have hnext : n < s.nextCaller := by
      by_contra hle
      have hrunning := isSome_caller?_of_guard? hg
      rw [(hnumbered n (Nat.le_of_not_lt hle)).1] at hrunning
      cases hrunning
    rcases hconcerns.cases hnext with
      ⟨reply, rfl, -⟩ | ⟨rfl, -⟩ | ⟨rfl, -⟩ | ⟨id, reply, rfl, -⟩ | ⟨token, rfl⟩
    · exact .inr (.inr (htwins.receive rfl reply))
    · exact .inr (.inr (htwins.proceed rfl))
    · exact .inr (.inl rfl)
    · exact .inr (.inr (htwins.learn h rfl id reply))
    · exact .inl ⟨hg, htwins.abreast.results, htwins.abreast.results'⟩
  · have hsame := s.step_untouched hconcerns
    have hsame' := step_untouched _ ((s.concerns_asCall n view e).not.2 hconcerns)
    refine .inl ⟨?_, hsame.results.trans htwins.abreast.results,
      hsame'.results.trans htwins.abreast.results'⟩
    rw [guard?, hsame.caller]
    exact hg

end Session

end LedgerExplorer
