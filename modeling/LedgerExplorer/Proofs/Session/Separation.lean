import LedgerExplorer.Proofs.Session.Requests

/-!
# A session with and without a caller

Two sessions stand side by side, one of them without a caller that the other one has
(`Session.Apart`). What happens for anybody else happens in both, and leaves them side by side.
-/

namespace LedgerExplorer

namespace Session

variable {R E : Type} {s t : Session R E} {n m : Nat} {own : List Counter}

/-- The session less a caller, its own calls and its result. -/
def without (s : Session R E) (n : Nat) : Session R E :=
  { s with
    callers := s.callers.filter (·.number != n)
    calls := s.calls.filter fun c => (c.request? n).isNone
    finished := s.finished.filter (·.1 != n) }

/-- A session is another one without a caller that is no load, but for the counters of that caller. -/
structure Apart (n : Nat) (own : List Counter) (s t : Session R E) : Prop where
  viewless : ∀ c ∈ s.callers, c.number = n → c.job.view? = none
  callers : t.callers = s.callers.filter (·.number != n)
  calls : t.calls = s.calls.filter fun c => (c.request? n).isNone
  finished : t.finished = s.finished.filter (·.1 != n)
  resolver : t.resolver = s.resolver
  views : t.views = s.views
  fired : t.fired = s.fired
  setting : t.pager = s.pager ∧ t.now = s.now
  nextCaller : t.nextCaller = s.nextCaller
  log : s.log.Perm (t.log ++ own)

namespace Apart

theorem state (h : Apart n own s t) : t = { s.without n with log := t.log } := by
  obtain ⟨-, hcallers, hcalls, hfinished, hresolver, hviews, hfired, ⟨hpager, hnow⟩, hnext, -⟩ := h
  cases t
  rw [Session.mk.injEq]
  exact ⟨hpager, hnow, hresolver, hcallers, hnext, hviews, hfired, hcalls, hfinished, rfl⟩

theorem isCancelled (h : Apart n own s t) (g : Guard) : t.isCancelled g = s.isCancelled g := by
  cases g with
  | unguarded => rfl
  | token name => exact congrArg (·.contains name) h.fired
  | view v generation => exact congrArg (·[v]?.any View.cancelled) h.views

theorem caller? (h : Apart n own s t) (m : Nat) :
    t.caller? m = if m = n then none else s.caller? m := by
  unfold Session.caller?
  rw [h.callers]
  exact find?_others s.callers m n

theorem caller?_ne (h : Apart n own s t) (hm : m ≠ n) : t.caller? m = s.caller? m := by
  rw [h.caller?, if_neg hm]

theorem caller?_self (h : Apart n own s t) : t.caller? n = none := by
  rw [h.caller?, if_pos rfl]

theorem isHeld (h : Apart n own s t) (v : Nat) : t.isHeld v = s.isHeld v := by
  unfold Session.isHeld
  rw [h.callers, List.any_filter, Bool.eq_iff_iff, List.any_eq_true, List.any_eq_true]
  refine exists_congr fun c => and_congr_right fun hc => ?_
  rw [Bool.and_eq_true, and_iff_right_iff_imp]
  intro hheld
  rw [bne_iff_ne]
  intro hnumber
  rw [h.viewless c hc hnumber] at hheld
  cases hheld

/-! ## What both do -/

theorem put (h : Apart n own s t) {c : Caller R E} (hc : c.number ≠ n) :
    Apart n own (s.put c) (t.put c) :=
  { h with
    viewless := by
      intro c' hc' hnumber
      rcases mem_callers_put.1 hc' with ⟨hmem, -⟩ | rfl
      · exact h.viewless c' hmem hnumber
      · exact absurd hnumber hc
    callers := by
      change t.callers.filter (·.number != c.number) ++ [c] =
        (s.callers.filter (·.number != c.number) ++ [c]).filter (·.number != n)
      rw [h.callers, List.filter_append, List.filter_comm, List.filter_singleton, bne_iff_ne.2 hc]
      rfl }

theorem setViews (h : Apart n own s t) {views views' : List (View R E)} (hviews : views' = views) :
    Apart n own { s with views } { t with views := views' } :=
  { h with views := hviews }

theorem releaseViews (h : Apart n own s t) : Apart n own s.releaseViews t.releaseViews := by
  unfold Session.releaseViews
  apply h.setViews
  simp only [h.views, h.isHeld]

theorem count (h : Apart n own s t) (cs : List Counter) : Apart n own (s.count cs) (t.count cs) :=
  { h with
    log := by
      have hswap : (t.log ++ own ++ cs).Perm (t.log ++ cs ++ own) := by
        rw [List.append_assoc, List.append_assoc]
        exact List.perm_append_comm.append_left t.log
      exact (h.log.append_right cs).trans hswap }

theorem finish (h : Apart n own s t) (hm : m ≠ n) (r : Result R E) :
    Apart n own (s.finish m r) (t.finish m r) := by
  unfold Session.finish
  apply releaseViews
  exact { h with
    viewless := fun c hc hnumber => h.viewless c (List.mem_of_mem_filter hc) hnumber
    callers := by rw [h.callers, List.filter_comm]
    finished := by
      rw [h.finished, List.filter_append, List.filter_singleton, bne_iff_ne.2 hm]
      rfl }

theorem finishPage (h : Apart n own s t) (hm : m ≠ n) (g : Guard) (r : Except Failure (Page R E)) :
    Apart n own (s.finishPage m g r) (t.finishPage m g r) := by
  unfold Session.finishPage
  split
  · exact h.finish hm _
  · next _ v generation _ =>
    rw [show t.views[v]? = s.views[v]? by rw [h.views]]
    split
    · exact h.finish hm _
    · exact ((h.setViews (by rw [h.views])).count _).finish hm _
  · exact h.finish hm _
  · exact h.finish hm _

theorem settle (h : Apart n own s t) {c : Caller R E} (hc : c.number ≠ n) :
    Apart n own (s.settle c) (t.settle c) := by
  unfold Session.settle
  split
  · split
    · exact h.finish hc _
    · exact h.finish hc _
    · rw [h.isCancelled]
      exact (h.count _).finishPage hc _ _
    · exact h.put hc
    · exact h.put hc
  · exact h.put hc

theorem setResolver (h : Apart n own s t) (resolver : Option (Resolver E)) {cs : List Call}
    (hcs : ∀ c ∈ cs, c.request? n = none) :
    Apart n own { s with resolver, calls := s.calls ++ cs }
      { t with resolver, calls := t.calls ++ cs } :=
  { h with
    resolver := rfl
    calls := by
      have hkept : (cs.filter fun c => (c.request? n).isNone) = cs := by
        rw [List.filter_eq_self]
        intro c hc
        rw [hcs c hc, Option.isNone_none]
      rw [h.calls, List.filter_append, hkept] }

theorem ask (h : Apart n own s t) (hm : m ≠ n) (job : Job R) (ids : List String) :
    Apart n own (s.ask m job ids) (t.ask m job ids) := by
  unfold Session.ask
  rw [h.resolver]
  exact h.settle hm

theorem lookUp (h : Apart n own s t) {c : Caller R E} (hc : c.number ≠ n) :
    Apart n own (s.lookUp c) (t.lookUp c) := by
  have hidle (hnone : s.resolver = none ∨ c.unasked = []) :
      Apart n own (s.lookUp c) (t.lookUp c) := by
    rw [lookUp_idle hnone, lookUp_idle (h.resolver.symm ▸ hnone)]
    exact h.settle hc
  cases hr : s.resolver with
  | none => exact hidle (.inl hr)
  | some r =>
    cases hids : c.unasked with
    | nil => exact hidle (.inr hids)
    | cons id rest =>
      rw [lookUp_cons hr hids, lookUp_cons (h.resolver.trans hr) hids]
      refine settle (h.setResolver _ fun call hcall => ?_) (by rwa [Caller.number_meet])
      unfold callsFor at hcall
      split at hcall
      · exact List.mem_singleton.1 hcall ▸ rfl
      · cases hcall
      · cases hcall

theorem call (h : Apart n own s t) {c : Call} (hc : c.request? n = none) :
    Apart n own (s.call c) (t.call c) := by
  have hcalls : ∀ c' ∈ [c], c'.request? n = none := fun _ hc' => List.mem_singleton.1 hc' ▸ hc
  exact { h.setResolver s.resolver hcalls with resolver := h.resolver }

theorem startPage (h : Apart n own s t) (hm : m ≠ n) (g : Guard) (rows : RowKind R) (q : PageQuery) :
    Apart n own (s.startPage m g rows q) (t.startPage m g rows q) := by
  unfold Session.startPage
  rw [h.setting.1, h.setting.2, h.isCancelled]
  split
  · exact h.finishPage hm _ _
  · refine (h.put ?_).call (if_neg hm)
    exact hm

theorem start (h : Apart n own s t) (hm : s.nextCaller ≠ n) (task : Task R) :
    Apart n own (s.start task) (t.start task) := by
  have hnext : Apart n own { s with nextCaller := s.nextCaller + 1 }
      { t with nextCaller := s.nextCaller + 1 } := { h with nextCaller := rfl }
  unfold Session.start
  rw [h.nextCaller]
  cases task with
  | resolve id => exact hnext.lookUp hm
  | resolveAll ids => exact hnext.ask hm _ _
  | page q rows token => exact hnext.startPage hm _ _ _
  | load v q =>
    dsimp only
    rw [show t.views[v]? = s.views[v]? by rw [h.views]]
    split
    · exact hnext.finish hm _
    · refine startPage ?_ hm _ _ _
      exact hnext.setViews (by rw [h.views])
  | histogram request categories =>
    dsimp only
    rw [show t.pager.namespaceName = s.pager.namespaceName by rw [h.setting.1]]
    refine (hnext.put ?_).call (if_neg hm)
    exact hm

theorem receive (h : Apart n own s t) (hm : m ≠ n) (reply : Reply) :
    Apart n own (s.receive m reply) (t.receive m reply) := by
  unfold Session.receive
  rw [show t.callers.find? (·.number == m) = _ from h.caller?_ne hm]
  unfold Session.caller?
  split
  · exact h
  · split
    · rw [h.isCancelled]
      split
      · exact (h.count _).finishPage hm _ _
      · exact h.ask hm _ _
    · split
      · exact h.finish hm _
      · exact (h.count _).finish hm _
    · exact h
    · exact h
    · exact h

theorem proceed (h : Apart n own s t) (hm : m ≠ n) : Apart n own (s.proceed m) (t.proceed m) := by
  have hsame := h.caller?_ne hm
  cases hc : s.caller? m with
  | none =>
    rw [proceed_of_caller?_eq_none hc, proceed_of_caller?_eq_none (hsame.trans hc)]
    exact h
  | some c =>
    rw [proceed_of_caller? hc, proceed_of_caller? (hsame.trans hc)]
    split
    · exact h
    · exact h.lookUp (number_of_caller? hc ▸ hm)

theorem tell (h : Apart n own s t) (hm : m ≠ n) (id : String) (a : Option E) :
    Apart n own (Session.tell id a s m) (Session.tell id a t m) := by
  cases hc : s.caller? m with
  | none =>
    rw [tell_of_caller?_eq_none hc, tell_of_caller?_eq_none ((h.caller?_ne hm).trans hc)]
    exact h
  | some c =>
    rw [tell_of_caller? hc, tell_of_caller? ((h.caller?_ne hm).trans hc)]
    exact h.settle (number_of_caller? hc ▸ hm)

end Apart

end Session

end LedgerExplorer
