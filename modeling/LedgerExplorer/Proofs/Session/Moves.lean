import LedgerExplorer.Proofs.Session.Stages

/-!
# What happens to a call for a page

A call for a page goes on waiting or ends with one result, which is counted if it is a page or a fault
of the source or of the body (`Session.Move`). So it never has more than one result, whatever happens
in the session (`Session.Pursues`).
-/

namespace LedgerExplorer

variable {R E : Type}

/-- What the end of a call for a page is counted as. -/
def Result.counters (entity : String) : Result R E → List Counter
  | .page _ => [.pageFetch entity true, .pageDuration entity]
  | .failed (.fault (.transport _)) | .failed (.fault (.malformedResponse _ _)) =>
    [.pageFetch entity false, .pageDuration entity]
  | _ => []

theorem PageFetch.counters_eq (fetch : PageFetch R) (r : Except Failure (Page R E)) :
    fetch.counters r = (Result.ofFetch r).counters fetch.request.entityPath := by
  rcases r with ((_ | _ | _ | _ | _) | _) | _ <;> rfl

/-- A call for a page: its number, its token, how its records are decoded, and the path under which it
is counted. -/
structure PageCall (R : Type) where
  number : Nat
  token : Option String
  rows : RowKind R
  entity : String

/-- A job on behalf of a call for a page. -/
def Job.Serves (job : Job R) (call : PageCall R) : Prop :=
  ∃ fetch : PageFetch R, fetch.rows = call.rows ∧ fetch.request.entityPath = call.entity ∧
    (job = .page fetch (.ofToken call.token) ∨ ∃ page, job = .rows fetch (.ofToken call.token) page)

theorem Job.Serves.view?_eq_none {job : Job R} {call : PageCall R} (h : job.Serves call) :
    job.view? = none := by
  obtain ⟨fetch, -, -, hjob⟩ := h
  rcases hjob with rfl | ⟨page, rfl⟩ <;> cases call.token <;> rfl

namespace Session

variable {s s' t : Session R E} {call : PageCall R}

/-- What happens to a call for a page: nothing, or it goes on waiting, or it ends and is counted. -/
inductive Move (call : PageCall R) (s : Session R E) : Session R E → Prop
  | stay : Move call s s
  | wait {c : Caller R E} (hresults : s.results call.number = []) (hc : c.number = call.number)
      (hserves : c.job.Serves call) : Move call s (s.put c)
  | finish (hresults : s.results call.number = []) (r : Result R E) :
      Move call s ((s.count (r.counters call.entity)).finish call.number r)

/-- A call for a page that has not ended yet, or has with one result. -/
structure Pursues (s : Session R E) (call : PageCall R) : Prop where
  next : call.number < s.nextCaller
  running : ∀ c, s.caller? call.number = some c → s.results call.number = [] ∧ c.job.Serves call
  ended : s.caller? call.number = none → ∃ r, s.results call.number = [r]

/-! ## Moves -/

theorem Move.finish_uncounted (hresults : s.results call.number = []) {r : Result R E}
    (h : r.counters call.entity = []) : Move call s (s.finish call.number r) := by
  have hmove := Move.finish hresults r
  rw [h] at hmove
  unfold count at hmove
  rwa [List.append_nil] at hmove

theorem settle_move (hresults : s.results call.number = []) {c : Caller R E}
    (hc : c.number = call.number) (hserves : c.job.Serves call) : Move call s (s.settle c) := by
  have ⟨fetch, _, hentity, hjob⟩ := hserves
  unfold settle
  split
  · rcases hjob with hjob | ⟨page, hjob⟩
    · rw [hjob]
      exact .wait hresults hc hserves
    · rw [hjob]
      dsimp only
      rw [finishPage_ofToken, PageFetch.counters_eq, hentity, hc]
      exact .finish hresults _
  · exact .wait hresults hc hserves

theorem Move.pursues (h : Move call s s') (hs : s.Pursues call) : s'.Pursues call := by
  cases h with
  | stay => exact hs
  | @wait c hresults hc hserves =>
    have hcaller := (caller?_put s c call.number).trans (if_pos hc.symm)
    refine ⟨hs.next, fun c' hc' => ?_, fun hnone => ?_⟩
    · cases hcaller.symm.trans hc'
      exact ⟨hresults, hserves⟩
    · cases hcaller.symm.trans hnone
  | finish hresults r =>
    refine ⟨hs.next, fun c hc => ?_, fun _ => ⟨r, ?_⟩⟩
    · rw [caller?_finish, if_pos rfl] at hc
      cases hc
    · rw [results_finish, if_pos rfl]
      exact congrArg (· ++ [r]) hresults

theorem Move.log (h : Move call s s') : ∃ gained,
    s'.results call.number = s.results call.number ++ gained ∧
    s'.log = s.log ++ gained.flatMap (Result.counters call.entity) := by
  cases h with
  | stay | wait => exact ⟨[], (List.append_nil _).symm, (List.append_nil _).symm⟩
  | finish _ r =>
    refine ⟨[r], ?_, ?_⟩
    · rw [results_finish, if_pos rfl]
      rfl
    · rw [List.flatMap_singleton]
      rfl

/-! ## What moves a call -/

theorem Pursues.of_untouched (h : s.Pursues call) (hsame : Untouched call.number s t) :
    t.Pursues call where
  next := Nat.lt_of_lt_of_le h.next hsame.next
  running := by
    rw [hsame.caller, hsame.results]
    exact h.running
  ended := by
    rw [hsame.caller, hsame.results]
    exact h.ended

theorem Pursues.tell_move (h : s.Pursues call) (id : String) (a : Option E) :
    Move call s (tell id a s call.number) := by
  cases hc : s.caller? call.number with
  | none =>
    rw [tell_of_caller?_eq_none hc]
    exact .stay
  | some c =>
    obtain ⟨hresults, hserves⟩ := h.running c hc
    have hnumber : c.number = call.number := number_of_caller? hc
    rw [tell_of_caller? hc]
    exact settle_move hresults hnumber hserves

theorem isRunning_eq (s : Session R E) (n : Nat) : s.isRunning n = (s.caller? n).isSome := by
  rw [isRunning, caller?, Bool.eq_iff_iff, List.any_eq_true, List.find?_isSome]

theorem Pursues.abort_move (h : s.Pursues call) : Move call s (s.step (.abort call.number)) := by
  simp only [step]
  split
  · next hrunning =>
    rw [isRunning_eq, Option.isSome_iff_exists] at hrunning
    obtain ⟨c, hc⟩ := hrunning
    exact .finish_uncounted (h.running c hc).1 rfl
  · exact .stay

theorem Pursues.receive_move (h : s.Pursues call) (reply : Reply) :
    Move call s (s.receive call.number reply) := by
  cases hc : s.caller? call.number with
  | none =>
    unfold receive
    rw [show s.callers.find? (·.number == call.number) = none from hc]
    exact .stay
  | some c =>
    obtain ⟨hresults, fetch, hrows, hentity, hjob | ⟨page, hjob⟩⟩ := h.running c hc
    · cases hreply : fetch.receive (s.isCancelled (.ofToken call.token)) reply with
      | error f =>
        rw [receive_of_refused hc hjob hreply, finishPage_ofToken, PageFetch.counters_eq, hentity]
        exact .finish hresults _
      | ok page =>
        rw [receive_of_page hc hjob hreply]
        exact settle_move hresults rfl ⟨fetch, hrows, hentity, .inr ⟨page, rfl⟩⟩
    · rw [receive_of_rows hc hjob]
      exact .stay

theorem Pursues.of_eq (h : s.Pursues call) (hcallers : t.callers = s.callers)
    (hfinished : t.finished = s.finished) (hnext : t.nextCaller = s.nextCaller) :
    t.Pursues call := by
  have hcaller : t.caller? call.number = s.caller? call.number := by rw [caller?, hcallers, caller?]
  have hresults : t.results call.number = s.results call.number := by
    rw [Session.results, hfinished, Session.results]
  constructor
  · rw [hnext]
    exact h.next
  · rw [hcaller, hresults]
    exact h.running
  · rw [hcaller, hresults]
    exact h.ended

/-- A lookup changes the cache; what it makes of the call is a move. -/
theorem Pursues.lookUp_move (h : s.Pursues call) :
    ∃ s₁ : Session R E, s₁.callers = s.callers ∧ s₁.finished = s.finished ∧
      s₁.nextCaller = s.nextCaller ∧ s₁.log = s.log ∧
      Move call s₁ (s.step (.lookUp call.number)) := by
  cases hc : s.caller? call.number with
  | none =>
    refine ⟨s, rfl, rfl, rfl, rfl, ?_⟩
    rw [Session.step, proceed_of_caller?_eq_none hc]
    exact .stay
  | some c =>
    obtain ⟨hresults, hserves⟩ := h.running c hc
    have hnumber := number_of_caller? hc
    rw [Session.step, proceed_of_caller? hc]
    split
    · exact ⟨s, rfl, rfl, rfl, rfl, .stay⟩
    · obtain ⟨c', hc', hjob, hidle | ⟨r, id, -, hlookUp⟩⟩ := s.lookUp_cases c
      · rw [hidle]
        exact ⟨s, rfl, rfl, rfl, rfl, settle_move hresults (hc'.trans hnumber) (hjob ▸ hserves)⟩
      · rw [hlookUp]
        exact ⟨s.afterResolve r c.number id, rfl, rfl, rfl, rfl,
          settle_move (s := s.afterResolve r c.number id) hresults (hc'.trans hnumber)
            (hjob ▸ hserves)⟩

theorem Pursues.tell (h : s.Pursues call) (id : String) (a : Option E) (m : Nat) :
    (Session.tell id a s m).Pursues call := by
  by_cases hm : call.number = m
  · subst hm
    exact (h.tell_move id a).pursues h
  · exact h.of_untouched (tell_untouched s id a hm)

theorem Pursues.step (h : s.Pursues call) (e : Event R) : (s.step e).Pursues call := by
  by_cases hconcerns : e.Concerns s call.number
  · rcases hconcerns.cases h.next with
      ⟨reply, rfl, -⟩ | ⟨rfl, -⟩ | ⟨rfl, -⟩ | ⟨id, reply, rfl, -⟩ | ⟨name, rfl⟩
    · exact (h.receive_move reply).pursues h
    · obtain ⟨s₁, hcallers, hfinished, hnext, -, hmove⟩ := h.lookUp_move
      exact hmove.pursues (h.of_eq hcallers hfinished hnext)
    · exact h.abort_move.pursues h
    · simp only [Session.step, learn]
      split
      · exact h
      · split
        · exact List.foldlRecOn (motive := fun t : Session R E => t.Pursues call) _ _
            (h.of_eq rfl rfl rfl) fun t ht m _ => ht.tell id _ m
        · exact h
    · exact h.of_eq rfl rfl rfl
  · exact h.of_untouched (s.step_untouched hconcerns)

theorem Pursues.run (h : s.Pursues call) (es : List (Event R)) : (s.run es).Pursues call :=
  List.foldlRecOn (motive := fun t : Session R E => t.Pursues call) es _ h fun _ ht e _ => ht.step e

theorem Pursues.length_results (h : s.Pursues call) : (s.results call.number).length ≤ 1 := by
  cases hc : s.caller? call.number with
  | none =>
    obtain ⟨r, hr⟩ := h.ended hc
    rw [hr]
    exact Nat.le_refl _
  | some c =>
    rw [(h.running c hc).1]
    exact Nat.zero_le _

end Session

end LedgerExplorer
