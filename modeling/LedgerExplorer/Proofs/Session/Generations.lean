import LedgerExplorer.Proofs.Page.Screen
import LedgerExplorer.Proofs.Session.Turns

/-!
# Generations

The loads of a view that are under way have different generations, none above the latest
(`Session.Ranked`). A view comes to show another page only by the end of its latest load, and while a
load is under way only `cancelView` cancels its view.
-/

namespace LedgerExplorer

variable {R E : Type}

/-- The page that a view shows, and its generation. -/
def View.shown (view : View R E) : Option (Page R E) × UInt64 := (view.page, view.applied)

theorem View.complete_eq (view : View R E) (g : UInt64) (r : Except Fault (Page R E)) :
    (view.complete g r).2 = view ∨ ∃ page, view.latest = g ∧
      view.complete g r = (.ok .applied, { view with applied := g, page := some page }) := by
  rcases view.complete_cases g r with ⟨o, hcomplete, -⟩ | ⟨page, -, -, hlatest, hcomplete⟩
  · exact .inl (congrArg Prod.snd hcomplete)
  · exact .inr ⟨page, hlatest, hcomplete⟩

namespace Session

variable {s t : Session R E} {n m v : Nat} {g : UInt64} {o : Option Guard} {view : View R E}
  {loads : Nat → Nat}

/-! ## Callers that take turns -/

/-- A turn leaves its caller waiting or gives it one more result; nothing happens to others. -/
theorem Turn.caller_cases (h : Turn n o s t) :
    (∃ c, c.job.guard? = o ∧ (∀ m, t.caller? m = if m = n then some c else s.caller? m) ∧
      ∀ m, t.results m = s.results m) ∨
    ∃ r, (∀ m, t.caller? m = if m = n then none else s.caller? m) ∧
      ∀ m, t.results m = if m = n then s.results m ++ [r] else s.results m := by
  cases h with
  | wait hn ho =>
    subst hn
    exact .inl ⟨_, ho, fun m => caller?_put s _ m, fun m => rfl⟩
  | finish _ => exact .inr ⟨_, fun m => caller?_finish s n _ m, fun m => results_finish s n _ m⟩
  | complete _ _ _ =>
    exact .inr ⟨_, fun m => caller?_finish _ n _ m, fun m => results_finish _ n _ m⟩

theorem Turn.guard?_of_ne (h : Turn n o s t) (hm : m ≠ n) : t.guard? m = s.guard? m := by
  unfold guard?
  rcases h.caller_cases with ⟨c, -, hcaller, -⟩ | ⟨r, hcaller, -⟩
  · rw [hcaller, if_neg hm]
  · rw [hcaller, if_neg hm]

theorem Turn.guard?_self (h : Turn n o s t) : t.guard? n = o ∨ t.guard? n = none := by
  unfold guard?
  rcases h.caller_cases with ⟨c, ho, hcaller, -⟩ | ⟨r, hcaller, -⟩
  · rw [hcaller, if_pos rfl]
    exact .inl ho
  · rw [hcaller, if_pos rfl]
    exact .inr rfl

/-- A caller that still runs after a turn has got no result by it. -/
theorem Turn.results_of_running (h : Turn n o s t) (hm : (t.caller? m).isSome) :
    t.results m = s.results m := by
  rcases h.caller_cases with ⟨c, -, -, hresults⟩ | ⟨r, hcaller, hresults⟩
  · exact hresults m
  · rw [hcaller] at hm
    rw [hresults]
    split
    · next heq => simp [heq] at hm
    · rfl

theorem isSome_caller?_of_guard? {g : Guard} (h : s.guard? n = some g) : (s.caller? n).isSome := by
  obtain ⟨c, hc, -⟩ := Option.bind_eq_some_iff.1 h
  exact Option.isSome_iff_exists.2 ⟨c, hc⟩

/-- By their turns callers only ever lose their guards. -/
theorem Turns.guard?_kept (h : Turns s t) {g : Guard} (hg : t.guard? n = some g) :
    s.guard? n = some g := by
  induction h with
  | refl s => exact hg
  | quiet hquiet _ ih => exact hquiet.guard? n ▸ ih hg
  | @turn s s₁ t m _ hturn _ ih =>
    have hkept := ih hg
    by_cases hn : n = m
    · subst hn
      rcases hturn.guard?_self with heq | hnone
      · rwa [← heq]
      · rw [hnone] at hkept
        cases hkept
    · rwa [← hturn.guard?_of_ne hn]

/-- A caller that has ended takes no more turns. -/
theorem Turns.ended (h : Turns s t) (hn : s.caller? n = none) :
    t.caller? n = none ∧ t.results n = s.results n := by
  induction h with
  | refl s => exact ⟨hn, rfl⟩
  | quiet hquiet _ ih =>
    obtain ⟨hcaller, hresults⟩ := ih ((hquiet.caller? n).trans hn)
    exact ⟨hcaller, hresults.trans (hquiet.results n)⟩
  | @turn s s₁ t m hrunning hturn _ ih =>
    have hne : n ≠ m := by
      rintro rfl
      rw [hn] at hrunning
      cases hrunning
    rcases hturn.caller_cases with ⟨c, -, hothers, hsame⟩ | ⟨r, hothers, hsame⟩
    · obtain ⟨hcaller, hresults⟩ := ih ((hothers n).trans ((if_neg hne).trans hn))
      exact ⟨hcaller, hresults.trans (hsame n)⟩
    · obtain ⟨hcaller, hresults⟩ := ih ((hothers n).trans ((if_neg hne).trans hn))
      exact ⟨hcaller, hresults.trans ((hsame n).trans (if_neg hne))⟩

/-! ## Views while callers take turns -/

/-- A view that is held by a load is not cancelled when others are released. -/
theorem views_releaseViews (hview : s.views[v]? = some view) :
    ∃ view', s.releaseViews.views[v]? = some view' ∧ view'.latest = view.latest ∧
      view'.shown = view.shown ∧ (s.isHeld v → view'.cancelled = view.cancelled) := by
  have hmap : s.releaseViews.views[v]? =
      some (if view.dropped && !s.isHeld v then view.cancel else view) := by
    change (s.views.mapIdx _)[v]? = _
    rw [List.getElem?_mapIdx, hview]
    rfl
  refine ⟨_, hmap, ?_, ?_, fun hheld => ?_⟩
  · split <;> rfl
  · split <;> rfl
  · rw [hheld]
    simp

theorem views_finish (hview : s.views[v]? = some view) (n : Nat) (r : Result R E) :
    ∃ view', (s.finish n r).views[v]? = some view' ∧ view'.latest = view.latest ∧
      view'.shown = view.shown ∧ ((s.finish n r).isHeld v → view'.cancelled = view.cancelled) :=
  views_releaseViews (s := { s with
    callers := s.callers.filter (·.number != n)
    finished := s.finished ++ [(n, r)] }) hview

/-- A view that completes a load changes as it will, and no other view does. -/
theorem views_complete {v' : Nat} {view₁ : View R E} (hview₁ : s.views[v']? = some view₁)
    (hview : s.views[v]? = some view) (n : Nat) (g : UInt64) (r : Except Fault (Page R E)) :
    let changed := if v' = v then (view.complete g r).2 else view
    ∃ view', (s.complete n v' g view₁ r).views[v]? = some view' ∧ view'.latest = changed.latest ∧
      view'.shown = changed.shown ∧
      ((s.complete n v' g view₁ r).isHeld v → view'.cancelled = changed.cancelled) := by
  apply views_finish
  change (s.views.set v' _)[v]? = _
  by_cases hv : v' = v
  · subst hv
    cases hview.symm.trans hview₁
    rw [List.getElem?_set_self (List.getElem?_eq_some_iff.1 hview).1, if_pos rfl]
  · rw [List.getElem?_set_ne hv, hview, if_neg hv]

/-- A turn lets every view have its latest generation, and cancels no view that a load holds. A view
comes to show a page only by the end of its latest load. -/
theorem Turn.views (h : Turn n o s t) (hview : s.views[v]? = some view) :
    ∃ view', t.views[v]? = some view' ∧ view'.latest = view.latest ∧
      (t.isHeld v → view'.cancelled = view.cancelled) ∧
      (view'.shown = view.shown ∨ ∃ page, o = some (.view v view.latest) ∧
        view'.shown = (some page, view.latest) ∧ t.caller? n = none ∧
        t.results n = s.results n ++ [.load .applied]) := by
  cases h with
  | wait _ _ => exact ⟨view, hview, rfl, fun _ => rfl, .inl rfl⟩
  | finish _ =>
    obtain ⟨view', hview', hlatest, hshown, hcancelled⟩ := views_finish hview n _
    exact ⟨view', hview', hlatest, hcancelled, .inl hshown⟩
  | @complete v' g' view₁ ho hview₁ r =>
    obtain ⟨view', hview', hlatest, hshown, hcancelled⟩ := views_complete hview₁ hview n g' r
    by_cases hv : v' = v
    · subst hv
      cases hview.symm.trans hview₁
      rw [if_pos rfl] at hlatest hshown hcancelled
      rcases view.complete_eq g' r with hsame | ⟨page, rfl, hcomplete⟩
      · rw [hsame] at hlatest hshown hcancelled
        exact ⟨view', hview', hlatest, hcancelled, .inl hshown⟩
      · rw [hcomplete] at hlatest hshown hcancelled
        refine ⟨view', hview', hlatest, hcancelled, .inr ⟨page, ho, hshown, ?_, ?_⟩⟩
        · exact (caller?_finish _ n _ n).trans (if_pos rfl)
        · refine (results_finish _ n _ n).trans ((if_pos rfl).trans ?_)
          rw [hcomplete]
          rfl
    · rw [if_neg hv] at hlatest hshown hcancelled
      exact ⟨view', hview', hlatest, hcancelled, .inl hshown⟩

theorem Turn.length_views (h : Turn n o s t) : t.views.length = s.views.length := by
  cases h with
  | wait _ _ => rfl
  | finish _ => exact List.length_mapIdx
  | complete _ _ _ => exact List.length_mapIdx.trans List.length_set

theorem Turns.length_views (h : Turns s t) : t.views.length = s.views.length := by
  induction h with
  | refl s => rfl
  | quiet hquiet _ ih => rw [ih, hquiet.views]
  | turn _ hturn _ ih => rw [ih, hturn.length_views]

theorem exists_view_of_length {view' : View R E} (h : t.views.length = s.views.length)
    (hview' : t.views[v]? = some view') : ∃ view, s.views[v]? = some view :=
  ⟨_, List.getElem?_eq_getElem (h ▸ (List.getElem?_eq_some_iff.1 hview').1)⟩

/-- The generations of the loads that are under way, if no view has started more than so many. -/
structure Ranked (s : Session R E) (loads : Nat → Nat) : Prop where
  le : ∀ {n v g}, s.guard? n = some (.view v g) → ∃ view, s.views[v]? = some view ∧ g ≤ view.latest
  inj : ∀ {n m v g}, s.guard? n = some (.view v g) → s.guard? m = some (.view v g) → n = m
  latest_le : ∀ {v view}, s.views[v]? = some view → view.latest.toNat ≤ loads v

theorem Ranked.of_quiet (h : s.Ranked loads) (hquiet : Quiet s t) : t.Ranked loads where
  le hg := hquiet.views.symm ▸ h.le (hquiet.guard? _ ▸ hg)
  inj hg hg' := h.inj (hquiet.guard? _ ▸ hg) (hquiet.guard? _ ▸ hg')
  latest_le hview := h.latest_le (hquiet.views ▸ hview)

theorem Ranked.turn (h : s.Ranked loads) (hrunning : (s.caller? n).isSome)
    (hturn : Turn n (s.guard? n) s t) : t.Ranked loads := by
  have hkept {m : Nat} {g : Guard} : t.guard? m = some g → s.guard? m = some g :=
    (Turns.turn hrunning hturn (.refl t)).guard?_kept
  refine ⟨fun hg => ?_, fun hg hg' => h.inj (hkept hg) (hkept hg'), fun {v view'} hview' => ?_⟩
  · obtain ⟨view, hview, hle⟩ := h.le (hkept hg)
    obtain ⟨view', hview', hlatest, -⟩ := hturn.views hview
    exact ⟨view', hview', hlatest ▸ hle⟩
  · obtain ⟨view, hview⟩ := exists_view_of_length hturn.length_views hview'
    obtain ⟨view₁, hview₁, hlatest, -⟩ := hturn.views hview
    cases hview'.symm.trans hview₁
    exact hlatest ▸ h.latest_le hview

theorem Ranked.turns (h : s.Ranked loads) (hturns : Turns s t) : t.Ranked loads := by
  induction hturns with
  | refl s => exact h
  | quiet hquiet _ ih => exact ih (h.of_quiet hquiet)
  | turn hrunning hturn _ ih => exact ih (h.turn hrunning hturn)

/-- While callers take turns, a view comes to show a page only by the end of its latest load, and
shows it from then on: no other load of the view has the latest generation. -/
theorem Turns.views (h : Turns s t) (hs : s.Ranked loads) (hview : s.views[v]? = some view) :
    ∃ view', t.views[v]? = some view' ∧ view'.latest = view.latest ∧
      (∀ n g, t.guard? n = some (.view v g) → view'.cancelled = view.cancelled) ∧
      (view'.shown = view.shown ∨ ∃ n page, s.guard? n = some (.view v view.latest) ∧
        view'.shown = (some page, view.latest) ∧ t.results n = s.results n ++ [.load .applied]) := by
  induction h generalizing view with
  | refl s => exact ⟨view, hview, rfl, fun _ _ _ => rfl, .inl rfl⟩
  | @quiet s s₁ t hquiet _ ih =>
    have ih := ih (hs.of_quiet hquiet) (hquiet.views.symm ▸ hview)
    simpa only [hquiet.guard?, hquiet.results] using ih
  | @turn s s₁ t m hrunning hturn hturns ih =>
    obtain ⟨view₁, hview₁, hlatest₁, hcancelled₁, hshown₁⟩ := hturn.views hview
    obtain ⟨view', hview', hlatest, hcancelled, hshown⟩ := ih (hs.turn hrunning hturn) hview₁
    have hkept {n : Nat} {g : Guard} : s₁.guard? n = some g → s.guard? n = some g :=
      (Turns.turn hrunning hturn (.refl s₁)).guard?_kept
    refine ⟨view', hview', hlatest.trans hlatest₁, fun n g hg => ?_, ?_⟩
    · rw [hcancelled n g hg]
      exact hcancelled₁ (isHeld_of_guard? (hturns.guard?_kept hg))
    · rw [hlatest₁] at hshown
      rcases hshown₁ with hsame₁ | ⟨page, hguard, hpage, hended, hresult⟩
      · rcases hshown with hsame | ⟨n, page, hguard, hpage, hresult⟩
        · exact .inl (hsame.trans hsame₁)
        · refine .inr ⟨n, page, hkept hguard, hpage, ?_⟩
          rw [hresult, hturn.results_of_running (isSome_caller?_of_guard? hguard)]
      · rcases hshown with hsame | ⟨n, page', hguard', -, -⟩
        · refine .inr ⟨m, page, hguard, hsame.trans hpage, ?_⟩
          rw [(hturns.ended hended).2, hresult]
        · cases hs.inj (hkept hguard') hguard
          rw [guard?, hended] at hguard'
          cases hguard'

end Session

end LedgerExplorer
