import LedgerExplorer.Proofs.Session.Generations
import Mathlib.Data.List.Induction

/-!
# Loads under way

What an event does to the loads that are under way, and to their views. The latest generation of a
view is the word for the number of loads that were started (`Session.Event.begins`). As long as fewer
are started than there are words, a load is the latest until another one starts after it.
-/

namespace LedgerExplorer

namespace Session

variable {R E : Type} {s t : Session R E} {n m v : Nat} {g : UInt64} {o : Option Guard}
  {view : View R E} {loads : Nat → Nat}

/-- The load of a view with its generation is under way, or an event starts it. -/
def Loading (s : Session R E) (e : Event R) (n v : Nat) (g : UInt64) : Prop :=
  s.guard? n = some (.view v g) ∨
    ∃ q view, e = .start (.load v q) ∧ n = s.nextCaller ∧ s.views[v]? = some view ∧
      g = view.latest + 1

/-- After so many loads of each view there are words for the loads that events start. -/
def HasRoom (loads : Nat → Nat) (es : List (Event R)) : Prop :=
  ∀ v, loads v + es.countP (Event.begins v) < UInt64.size

theorem HasRoom.left {es es' : List (Event R)} (h : HasRoom loads (es ++ es')) :
    HasRoom loads es := by
  intro v
  refine Nat.lt_of_le_of_lt (Nat.add_le_add_left ?_ _) (h v)
  rw [List.countP_append]
  exact Nat.le_add_right _ _

theorem HasRoom.right {es es' : List (Event R)} (h : HasRoom loads (es ++ es')) :
    HasRoom (fun v => loads v + es.countP (Event.begins v)) es' := by
  intro v
  rw [Nat.add_assoc, ← List.countP_append]
  exact h v

theorem HasRoom.head {e : Event R} {es : List (Event R)} (h : HasRoom loads (e :: es)) :
    HasRoom loads [e] := by
  rw [← List.singleton_append] at h
  exact h.left

theorem HasRoom.tail {e : Event R} {es : List (Event R)} (h : HasRoom loads (e :: es)) :
    HasRoom (fun v => loads v + [e].countP (Event.begins v)) es := by
  rw [← List.singleton_append] at h
  exact h.right

theorem toNat_add_ofNat_of_lt {w : UInt64} {k : Nat} (h : w.toNat + k < UInt64.size) :
    (w + UInt64.ofNat k).toNat = w.toNat + k := by
  rw [UInt64.toNat_add, UInt64.toNat_ofNat_of_lt' (Nat.lt_of_le_of_lt (Nat.le_add_left k _) h)]
  exact Nat.mod_eq_of_lt h

/-! ## What starts -/

theorem begins_iff {e : Event R} : e.begins v = true ↔ ∃ q, e = .start (.load v q) := by
  constructor
  · intro h
    unfold Event.begins at h
    split at h
    · next v' q =>
      rw [beq_iff_eq] at h
      subst h
      exact ⟨q, rfl⟩
    · cases h
  · rintro ⟨q, rfl⟩
    exact beq_self_eq_true v

theorem cancels_iff {e : Event R} : e.cancels v = true ↔ e = .cancelView v := by
  constructor
  · intro h
    unfold Event.cancels at h
    split at h
    · rw [beq_iff_eq] at h
      rw [h]
    · cases h
  · rintro rfl
    exact beq_self_eq_true v

theorem Handles.guard?_cases (h : Handles n o s t) {m : Nat} {g : Guard} (hg : t.guard? m = some g) :
    (m = n ∧ o = some g) ∨ (m ≠ n ∧ s.guard? m = some g) := by
  obtain ⟨s₁, hquiet, hturn⟩ := h
  by_cases hm : m = n
  · subst hm
    rcases hturn.guard?_self with ho | hnone
    · exact .inl ⟨rfl, ho.symm.trans hg⟩
    · cases hnone.symm.trans hg
  · rw [hturn.guard?_of_ne hm, hquiet.guard?] at hg
    exact .inr ⟨hm, hg⟩

theorem Handles.length_views (h : Handles n o s t) : t.views.length = s.views.length := by
  obtain ⟨s₁, hquiet, hturn⟩ := h
  rw [hturn.length_views, hquiet.views]

theorem Handles.views (h : Handles n o s t) (hview : s.views[v]? = some view) :
    ∃ view', t.views[v]? = some view' ∧ view'.latest = view.latest ∧
      (t.isHeld v → view'.cancelled = view.cancelled) ∧
      (view'.shown = view.shown ∨ ∃ page, o = some (.view v view.latest) ∧
        view'.shown = (some page, view.latest) ∧ t.results n = s.results n ++ [.load .applied]) := by
  obtain ⟨s₁, hquiet, hturn⟩ := h
  obtain ⟨view', hview', hlatest, hcancelled, hshown⟩ := hturn.views (hquiet.views.symm ▸ hview)
  refine ⟨view', hview', hlatest, hcancelled, hshown.imp_right ?_⟩
  rintro ⟨page, ho, hpage, -, hresult⟩
  exact ⟨page, ho, hpage, hquiet.results n ▸ hresult⟩

/-- The start of a load takes the latest generation of its view on by one. -/
theorem Handles.views_begin {v' : Nat} {view₁ : View R E} (hview₁ : s.views[v']? = some view₁)
    (h : Handles n (some (.view v' (view₁.latest + 1))) (s.begin v' view₁) t)
    (hview : s.views[v]? = some view) :
    ∃ view', t.views[v]? = some view' ∧ view'.latest = view.latest + UInt64.ofNat (v' == v).toNat ∧
      (t.isHeld v → view'.cancelled = view.cancelled) ∧
      (view'.shown = view.shown ∨ ∃ page, v' = v ∧ view'.shown = (some page, view.latest + 1) ∧
        t.results n = s.results n ++ [.load .applied]) := by
  by_cases hv : v' = v
  · subst hv
    cases hview₁.symm.trans hview
    have hbegun : (s.begin v' view).views[v']? = some view.begin.2 :=
      List.getElem?_set_self (List.getElem?_eq_some_iff.1 hview).1
    obtain ⟨view', hview', hlatest, hcancelled, hshown⟩ := h.views hbegun
    refine ⟨view', hview', ?_, hcancelled, hshown.imp_right ?_⟩
    · rw [hlatest, BEq.rfl]
      rfl
    · rintro ⟨page, -, hpage, hresult⟩
      exact ⟨page, rfl, hpage, hresult⟩
  · have hkept : (s.begin v' view₁).views[v]? = some view := (List.getElem?_set_ne hv).trans hview
    obtain ⟨view', hview', hlatest, hcancelled, hshown⟩ := h.views hkept
    refine ⟨view', hview', ?_, hcancelled, .inl (hshown.resolve_right ?_)⟩
    · rw [hlatest, beq_eq_false_iff_ne.2 hv]
      exact (UInt64.add_zero _).symm
    · rintro ⟨page, hguard, -⟩
      rw [Option.some.injEq, Guard.view.injEq] at hguard
      exact hv hguard.1

theorem views_dropView (v' : Nat) (hview : s.views[v]? = some view) :
    ∃ view', (s.step (.dropView v')).views[v]? = some view' ∧ view'.latest = view.latest ∧
      view'.shown = view.shown ∧ (s.isHeld v → view'.cancelled = view.cancelled) := by
  have hdropped : ∃ view₁, (s.views.modify v' ({ · with dropped := true }))[v]? = some view₁ ∧
      view₁.latest = view.latest ∧ view₁.shown = view.shown ∧ view₁.cancelled = view.cancelled := by
    rw [List.getElem?_modify, hview]
    by_cases hv : v' = v <;> simp [hv, View.shown]
  obtain ⟨view₁, hview₁, hlatest₁, hshown₁, hcancelled₁⟩ := hdropped
  obtain ⟨view', hview', hlatest, hshown, hcancelled⟩ := views_releaseViews
    (s := { s with views := s.views.modify v' ({ · with dropped := true }) }) hview₁
  exact ⟨view', hview', hlatest.trans hlatest₁, hshown.trans hshown₁,
    fun hheld => (hcancelled hheld).trans hcancelled₁⟩

theorem views_cancelView (v' : Nat) (hview : s.views[v]? = some view) :
    ∃ view', (s.step (.cancelView v')).views[v]? = some view' ∧ view'.latest = view.latest ∧
      view'.shown = view.shown ∧ view'.cancelled = (view.cancelled || v' == v) := by
  change ∃ view', (s.views.modify v' View.cancel)[v]? = some view' ∧ _
  rw [List.getElem?_modify, hview]
  by_cases hv : v' = v <;> simp [hv, View.cancel, View.shown]

/-! ## What an event does to a load -/

theorem guard?_congr (h : t.callers = s.callers) (n : Nat) : t.guard? n = s.guard? n := by
  rw [guard?, caller?, h, guard?, caller?]

/-- A load that is under way after an event was so before, or starts with it. -/
theorem loading_of_guard? {e : Event R} (h : (s.step e).guard? n = some (.view v g)) :
    s.Loading e n v g := by
  have hchange := s.step_change e
  generalize s.step e = t at h hchange
  cases hchange with
  | turns _ _ hturns => exact .inl (hturns.guard?_kept h)
  | start ho _ hhandles =>
    rcases hhandles.guard?_cases h with ⟨-, heq⟩ | ⟨-, hold⟩
    · exact absurd heq (ho v g)
    · exact .inl hold
  | @load v' q view' _ hview' hhandles =>
    rcases hhandles.guard?_cases h with ⟨rfl, heq⟩ | ⟨-, hold⟩
    · cases heq
      exact .inr ⟨q, view', rfl, rfl, hview', rfl⟩
    · exact .inl hold
  | openView | cancelView | dropView => exact .inl h

/-- An event that starts a load of a view takes its latest generation on by one. As long as a load
holds a view, only `cancelView` cancels it. Another page is shown only by the end of a load. -/
theorem views_step (h : s.Ranked loads) (hview : s.views[v]? = some view) (e : Event R) :
    ∃ view', (s.step e).views[v]? = some view' ∧
      view'.latest = view.latest + UInt64.ofNat (e.begins v).toNat ∧
      (∀ n g, (s.step e).guard? n = some (.view v g) →
        view'.cancelled = (view.cancelled || e.cancels v)) ∧
      (view'.shown = view.shown ∨ ∃ n g page, s.Loading e n v g ∧ view'.shown = (some page, g) ∧
        (s.step e).results n = s.results n ++ [.load .applied]) := by
  have hchange := s.step_change e
  generalize s.step e = t at hchange ⊢
  cases hchange with
  | turns hbegins hcancels hturns =>
    obtain ⟨view', hview', hlatest, hcancelled, hshown⟩ := hturns.views h hview
    refine ⟨view', hview', ?_, fun n g hg => ?_, hshown.imp_right ?_⟩
    · rw [hbegins, hlatest]
      exact (UInt64.add_zero _).symm
    · rw [hcancels, Bool.or_false, hcancelled n g hg]
    · rintro ⟨n, page, hg, hpage, hresult⟩
      exact ⟨n, _, page, .inl hg, hpage, hresult⟩
  | @start task _ o ho hviews hhandles =>
    obtain ⟨view', hview', hlatest, hcancelled, hshown⟩ := hhandles.views hview
    have hbegins : (.start task : Event R).begins v = false := by
      cases task with
      | load v' q =>
        apply beq_eq_false_iff_ne.2
        rintro rfl
        cases (hviews v' q rfl).symm.trans hview
      | resolve | resolveAll | page | histogram => rfl
    refine ⟨view', hview', ?_, fun n g hg => ?_, .inl (hshown.resolve_right ?_)⟩
    · rw [hbegins, hlatest]
      exact (UInt64.add_zero _).symm
    · exact (hcancelled (isHeld_of_guard? hg)).trans (Bool.or_false _).symm
    · rintro ⟨page, hguard, -⟩
      exact ho _ _ hguard
  | @load v' q view₁ _ hview₁ hhandles =>
    obtain ⟨view', hview', hlatest, hcancelled, hshown⟩ := hhandles.views_begin hview₁ hview
    refine ⟨view', hview', hlatest, fun n g hg => ?_, hshown.imp_right ?_⟩
    · exact (hcancelled (isHeld_of_guard? hg)).trans (Bool.or_false _).symm
    · rintro ⟨page, rfl, hpage, hresult⟩
      exact ⟨_, _, page, .inr ⟨q, view, rfl, rfl, hview, rfl⟩, hpage, hresult⟩
  | openView rows =>
    refine ⟨view, ?_, (UInt64.add_zero _).symm, fun _ _ _ => (Bool.or_false _).symm, .inl rfl⟩
    exact (List.getElem?_append_left (List.getElem?_eq_some_iff.1 hview).1).trans hview
  | cancelView v' =>
    obtain ⟨view', hview', hlatest, hshown, hcancelled⟩ := views_cancelView v' hview
    exact ⟨view', hview', hlatest.trans (UInt64.add_zero _).symm, fun _ _ _ => hcancelled,
      .inl hshown⟩
  | dropView v' =>
    obtain ⟨view', hview', hlatest, hshown, hcancelled⟩ := views_dropView v' hview
    refine ⟨view', hview', hlatest.trans (UInt64.add_zero _).symm, fun n g hg => ?_, .inl hshown⟩
    exact (hcancelled (isHeld_of_guard? hg)).trans (Bool.or_false _).symm

theorem Ranked.le_latest (h : s.Ranked loads) (hg : s.guard? n = some (.view v g))
    (hview : s.views[v]? = some view) : g ≤ view.latest := by
  obtain ⟨view', hview', hle⟩ := h.le hg
  cases hview.symm.trans hview'
  exact hle

/-- A load that starts has a later generation than those that are under way. -/
theorem Ranked.lt_next (h : s.Ranked loads) {q : PageQuery}
    (hroom : HasRoom loads [(.start (.load v q) : Event R)]) (hview : s.views[v]? = some view) :
    (view.latest + 1).toNat = view.latest.toNat + 1 ∧
      ∀ {n g}, s.guard? n = some (.view v g) → g < view.latest + 1 := by
  have hfits : view.latest.toNat + 1 < UInt64.size := by
    have hroom := hroom v
    rw [List.countP_cons_of_pos (begins_iff.2 ⟨q, rfl⟩)] at hroom
    exact Nat.lt_of_le_of_lt (Nat.add_le_add_right (h.latest_le hview) 1) hroom
  have hnext : (view.latest + 1).toNat = view.latest.toNat + 1 :=
    toNat_add_ofNat_of_lt (k := 1) hfits
  refine ⟨hnext, fun hg => UInt64.lt_iff_toNat_lt.2 ?_⟩
  rw [hnext]
  exact Nat.lt_succ_of_le (UInt64.le_iff_toNat_le.1 (h.le_latest hg hview))

/-- A generation of a view is the generation of one load. -/
theorem Ranked.loading_inj (h : s.Ranked loads) {e : Event R} (hroom : HasRoom loads [e])
    (hn : s.Loading e n v g) (hm : s.Loading e m v g) : n = m := by
  rcases hn with hn | ⟨q, view, rfl, rfl, hview, rfl⟩
  · rcases hm with hm | ⟨q, view, rfl, rfl, hview, rfl⟩
    · exact h.inj hn hm
    · exact absurd ((h.lt_next hroom hview).2 hn) (UInt64.lt_irrefl _)
  · rcases hm with hm | ⟨q, view', -, rfl, -, -⟩
    · exact absurd ((h.lt_next hroom hview).2 hm) (UInt64.lt_irrefl _)
    · rfl

/-- A view that is there after an event was there before, or was opened with it. -/
theorem view_of_step {e : Event R} (h : (s.step e).views[v]? = some view) :
    (∃ view₀, s.views[v]? = some view₀) ∨ view.latest = 0 := by
  have hchange := s.step_change e
  generalize s.step e = t at h hchange
  cases hchange with
  | turns _ _ hturns => exact .inl (exists_view_of_length hturns.length_views h)
  | start _ _ hhandles => exact .inl (exists_view_of_length hhandles.length_views h)
  | load _ hhandles =>
    exact .inl (exists_view_of_length (hhandles.length_views.trans List.length_set) h)
  | openView rows =>
    have hopened : (s.views ++ [({ rows } : View R E)])[v]? = some view := h
    rcases Nat.lt_or_ge v s.views.length with hlt | hge
    · rw [List.getElem?_append_left hlt] at hopened
      exact .inl ⟨view, hopened⟩
    · rw [List.getElem?_append_right hge] at hopened
      cases List.mem_singleton.1 (List.mem_of_getElem? hopened)
      exact .inr rfl
  | cancelView v' => exact .inl (exists_view_of_length (s := s) (List.length_modify _ _ _) h)
  | dropView v' =>
    have hlength : (s.step (.dropView v')).views.length = s.views.length :=
      List.length_mapIdx.trans (List.length_modify _ _ _)
    exact .inl (exists_view_of_length hlength h)

/-- With room for the loads that are started, generations stay in order. -/
theorem Ranked.step (h : s.Ranked loads) {e : Event R} (hroom : HasRoom loads [e]) :
    (s.step e).Ranked fun v => loads v + [e].countP (Event.begins v) := by
  have hlatest {v : Nat} {view view' : View R E} (hview : s.views[v]? = some view)
      (hview' : (s.step e).views[v]? = some view') :
      view'.latest.toNat = view.latest.toNat + [e].countP (Event.begins v) := by
    obtain ⟨view₁, hview₁, hlatest, -⟩ := views_step h hview e
    cases hview'.symm.trans hview₁
    have hcount : (e.begins v).toNat = [e].countP (Event.begins v) := by
      rw [List.countP_singleton]
      cases e.begins v <;> rfl
    rw [hlatest, hcount]
    apply toNat_add_ofNat_of_lt
    exact Nat.lt_of_le_of_lt (Nat.add_le_add_right (h.latest_le hview) _) (hroom v)
  refine ⟨fun {n v g} hg => ?_,
    fun hg hg' => h.loading_inj hroom (loading_of_guard? hg) (loading_of_guard? hg'),
    fun {v view'} hview' => ?_⟩
  · rcases loading_of_guard? hg with hold | ⟨q, view, rfl, rfl, hview, rfl⟩
    · obtain ⟨view, hview, hle⟩ := h.le hold
      obtain ⟨view', hview', -⟩ := views_step h hview e
      refine ⟨view', hview', UInt64.le_iff_toNat_le.2 ?_⟩
      rw [hlatest hview hview']
      exact Nat.le_add_right_of_le (UInt64.le_iff_toNat_le.1 hle)
    · obtain ⟨view', hview', -⟩ := views_step h hview (.start (.load v q))
      refine ⟨view', hview', UInt64.le_iff_toNat_le.2 ?_⟩
      rw [hlatest hview hview', (h.lt_next hroom hview).1,
        List.countP_cons_of_pos (begins_iff.2 ⟨q, rfl⟩)]
      exact Nat.le_refl _
  · rcases view_of_step hview' with ⟨view, hview⟩ | hzero
    · rw [hlatest hview hview']
      exact Nat.add_le_add_right (h.latest_le hview) _
    · rw [hzero]
      exact Nat.zero_le _

theorem Ranked.run (h : s.Ranked loads) {es : List (Event R)} (hroom : HasRoom loads es) :
    (s.run es).Ranked fun v => loads v + es.countP (Event.begins v) := by
  induction es generalizing s loads with
  | nil => exact h
  | cons e es ih =>
    have hcount (v : Nat) : loads v + (e :: es).countP (Event.begins v) =
        loads v + [e].countP (Event.begins v) + es.countP (Event.begins v) := by
      rw [Nat.add_assoc, ← List.countP_append, List.singleton_append]
    simp only [hcount]
    exact ih (h.step hroom.head) hroom.tail

/-! ## Loads since they started -/

theorem run_concat (s : Session R E) (es : List (Event R)) (e : Event R) :
    s.run (es ++ [e]) = (s.run es).step e := List.foldl_concat ..

/-- A load that is under way was started with the next generation of its view. Since then the latest
generation has gone on by the loads of the view that were started, and the view is cancelled if it was
at the start or by `cancelView`. -/
theorem Ranked.since (hs : s.Ranked loads) (hnone : ∀ n v g, s.guard? n ≠ some (.view v g))
    {es : List (Event R)} (hroom : HasRoom loads es)
    (h : (s.run es).guard? n = some (.view v g)) :
    ∃ before q after view₁ view, es = before ++ .start (.load v q) :: after ∧
      n = (s.run before).nextCaller ∧ (s.run before).views[v]? = some view₁ ∧
      g = view₁.latest + 1 ∧ (s.run es).views[v]? = some view ∧
      view.latest = g + UInt64.ofNat (after.countP (Event.begins v)) ∧
      view.cancelled = (view₁.cancelled || after.any (Event.cancels v)) := by
  induction es using List.reverseRecOn with
  | nil => exact absurd h (hnone n v g)
  | append_singleton es e ih =>
    have hranked := hs.run hroom.left
    rw [run_concat] at h ⊢
    rcases loading_of_guard? h with hold | ⟨q, view₁, rfl, rfl, hview₁, rfl⟩
    · obtain ⟨before, q, after, view₁, view, rfl, hn, hview₁, hg, hview, hlatest, hcancelled⟩ :=
        ih hroom.left hold
      obtain ⟨view', hview', hlatest', hcancelled', -⟩ := views_step hranked hview e
      refine ⟨before, q, after ++ [e], view₁, view', ?_, hn, hview₁, hg, hview', ?_, ?_⟩
      · rw [List.append_assoc, List.cons_append]
      · rw [hlatest', hlatest, List.countP_append, List.countP_singleton, UInt64.ofNat_add,
          UInt64.add_assoc]
        cases e.begins v <;> rfl
      · rw [hcancelled' n g h, hcancelled, List.any_append, Bool.or_assoc]
        simp
    · obtain ⟨view', hview', hlatest', hcancelled', -⟩ :=
        views_step hranked hview₁ (.start (.load v q))
      refine ⟨es, q, [], view₁, view', rfl, rfl, hview₁, rfl, hview', ?_, ?_⟩
      · rw [hlatest', begins_iff.2 ⟨q, rfl⟩]
        exact (UInt64.add_zero _).symm
      · exact hcancelled' _ _ h

/-! ## Results -/

/-- A caller that runs has no result yet, and no caller has more than one. -/
def Once (s : Session R E) : Prop :=
  ∀ n, (s.results n).length ≤ 1 ∧ ((s.caller? n).isSome → s.results n = [])

theorem Once.of_eq (h : s.Once) (hcallers : t.callers = s.callers)
    (hfinished : t.finished = s.finished) : t.Once := by
  unfold Once caller? Session.results
  rw [hcallers, hfinished]
  exact h

theorem Once.turn (h : s.Once) (hn : s.results n = []) (hturn : Turn n o s t) : t.Once := by
  intro m
  obtain ⟨hlength, hrunning⟩ := h m
  rcases hturn.caller_cases with ⟨c, -, hcaller, hresults⟩ | ⟨r, hcaller, hresults⟩
  · rw [hcaller, hresults]
    refine ⟨hlength, fun hm => ?_⟩
    split at hm
    · next heq => rw [heq, hn]
    · exact hrunning hm
  · rw [hcaller, hresults]
    split
    · next heq =>
      rw [heq, hn]
      exact ⟨Nat.le_refl _, nofun⟩
    · exact ⟨hlength, hrunning⟩

theorem Once.handles (h : s.Once) (hn : s.results n = []) (hhandles : Handles n o s t) : t.Once := by
  obtain ⟨s₁, hquiet, hturn⟩ := hhandles
  exact (h.of_eq hquiet.callers hquiet.finished).turn ((hquiet.results n).trans hn) hturn

theorem Once.turns (h : s.Once) (hturns : Turns s t) : t.Once := by
  induction hturns with
  | refl s => exact h
  | quiet hquiet _ ih => exact ih (h.of_eq hquiet.callers hquiet.finished)
  | @turn s s₁ t n hrunning hturn _ ih => exact ih (h.turn ((h n).2 hrunning) hturn)

theorem Once.step (h : s.Once) (hnumbered : s.Numbered) (e : Event R) : (s.step e).Once := by
  have hnew : s.results s.nextCaller = [] := (hnumbered _ (Nat.le_refl _)).2.1
  have hchange := s.step_change e
  generalize s.step e = t at hchange ⊢
  cases hchange with
  | turns _ _ hturns => exact h.turns hturns
  | start _ _ hhandles => exact h.handles hnew hhandles
  | load _ hhandles => exact Once.handles (s := s.begin _ _) (h.of_eq rfl rfl) hnew hhandles
  | openView | cancelView | dropView => exact h.of_eq rfl rfl

theorem Once.run (h : s.Once) (hnumbered : s.Numbered) (es : List (Event R)) : (s.run es).Once := by
  induction es generalizing s with
  | nil => exact h
  | cons e es ih => exact ih (h.step hnumbered e) (hnumbered.step e)

theorem Turn.load_mem (h : Turn n o s t) {x : LoadOutcome} (hx : .load x ∈ t.results m) :
    .load x ∈ s.results m ∨ m = n ∧ ∃ v g, o = some (.view v g) := by
  cases h with
  | wait _ _ => exact .inl hx
  | finish hr =>
    rw [results_finish] at hx
    split at hx
    · refine .inl ((List.mem_append.1 hx).resolve_right fun hmem => ?_)
      rw [← List.mem_singleton.1 hmem] at hr
      cases hr
    · exact .inl hx
  | complete ho _ _ =>
    by_cases hm : m = n
    · exact .inr ⟨hm, _, _, ho⟩
    · exact .inl (((results_finish _ n _ m).trans (if_neg hm)) ▸ hx)

theorem Handles.load_mem (h : Handles n o s t) {x : LoadOutcome} (hx : .load x ∈ t.results m) :
    .load x ∈ s.results m ∨ m = n ∧ ∃ v g, o = some (.view v g) := by
  obtain ⟨s₁, hquiet, hturn⟩ := h
  exact hquiet.results m ▸ hturn.load_mem hx

theorem Turns.load_mem (h : Turns s t) {x : LoadOutcome} (hx : .load x ∈ t.results m) :
    .load x ∈ s.results m ∨ ∃ v g, s.guard? m = some (.view v g) := by
  induction h with
  | refl s => exact .inl hx
  | quiet hquiet _ ih => simpa only [hquiet.results, hquiet.guard?] using ih hx
  | turn hrunning hturn _ ih =>
    rcases ih hx with hmem | ⟨v, g, hg⟩
    · refine (hturn.load_mem hmem).imp_right ?_
      rintro ⟨rfl, hguard⟩
      exact hguard
    · exact .inr ⟨v, g, (Turns.turn hrunning hturn (.refl _)).guard?_kept hg⟩

/-- Only a load reports how a load ended. -/
theorem loading_of_load_mem {e : Event R} {x : LoadOutcome} (hx : .load x ∈ (s.step e).results n) :
    .load x ∈ s.results n ∨ ∃ v g, s.Loading e n v g := by
  have hchange := s.step_change e
  generalize s.step e = t at hx hchange
  cases hchange with
  | turns _ _ hturns =>
    refine (hturns.load_mem hx).imp_right ?_
    rintro ⟨v, g, hg⟩
    exact ⟨v, g, .inl hg⟩
  | start ho _ hhandles =>
    refine .inl ((hhandles.load_mem hx).resolve_right ?_)
    rintro ⟨-, v, g, hguard⟩
    exact ho v g hguard
  | @load v q view _ hview hhandles =>
    refine (hhandles.load_mem hx).imp_right ?_
    rintro ⟨rfl, -⟩
    exact ⟨v, _, .inr ⟨q, view, rfl, rfl, hview, rfl⟩⟩
  | openView | cancelView | dropView => exact .inl hx

/-- Whoever reports how a load ended was started as a load. -/
theorem Ranked.started_of_load_mem (hs : s.Ranked loads)
    (hnone : ∀ n v g, s.guard? n ≠ some (.view v g)) (hresults : ∀ n, s.results n = [])
    {es : List (Event R)} (hroom : HasRoom loads es) {x : LoadOutcome}
    (hx : .load x ∈ (s.run es).results n) :
    ∃ before v q after, es = before ++ .start (.load v q) :: after ∧
      n = (s.run before).nextCaller := by
  induction es using List.reverseRecOn with
  | nil => cases hresults n ▸ hx
  | append_singleton es e ih =>
    rw [run_concat] at hx
    have hmore : (∃ before v q after, es = before ++ .start (.load v q) :: after ∧
        n = (s.run before).nextCaller) →
        ∃ before v q after, es ++ [e] = before ++ .start (.load v q) :: after ∧
          n = (s.run before).nextCaller := by
      rintro ⟨before, v, q, after, rfl, hn⟩
      exact ⟨before, v, q, after ++ [e], by rw [List.append_assoc, List.cons_append], hn⟩
    rcases loading_of_load_mem hx with hmem | ⟨v, g, hg | ⟨q, view, rfl, hn, -⟩⟩
    · exact hmore (ih hroom.left hmem)
    · obtain ⟨before, q, after, -, -, hes, hn, -⟩ := hs.since hnone hroom.left hg
      exact hmore ⟨before, v, q, after, hes, hn⟩
    · exact ⟨es, v, q, [], rfl, hn⟩

end Session

end LedgerExplorer
