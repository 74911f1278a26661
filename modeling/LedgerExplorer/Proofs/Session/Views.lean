import LedgerExplorer.Proofs.Session.Callers

/-!
# Views that were dropped

A view whose owner has let go of it is cancelled as soon as no load holds on to it (`Session.Tidy`).
So the end of a caller that is no load cancels no view.
-/

namespace LedgerExplorer

namespace Session

variable {R E : Type} {s t : Session R E} {n : Nat}

theorem isHeld_iff {v : Nat} :
    s.isHeld v = true ↔ ∃ c ∈ s.callers, c.job.view? = some v := by
  simp only [isHeld, List.any_eq_true, beq_iff_eq]

/-- Every caller is found under its number. -/
def Listed (s : Session R E) : Prop := ∀ c ∈ s.callers, s.caller? c.number = some c

/-- A view that was dropped is cancelled unless a load holds on to it. -/
def Released (s : Session R E) : Prop :=
  ∀ v view, s.views[v]? = some view → view.dropped → view.cancelled ∨ s.isHeld v

structure Tidy (s : Session R E) : Prop where
  listed : s.Listed
  released : s.Released

theorem Tidy.of_eq (h : s.Tidy) (hcallers : t.callers = s.callers) (hviews : t.views = s.views) :
    t.Tidy := by
  constructor
  · unfold Listed caller?
    rw [hcallers]
    exact h.listed
  · unfold Released isHeld
    rw [hcallers, hviews]
    exact h.released

theorem releaseViews_released (s : Session R E) : s.releaseViews.Released := by
  intro v view hview hdropped
  change (s.views.mapIdx _)[v]? = some view at hview
  rw [List.getElem?_mapIdx, Option.map_eq_some_iff] at hview
  obtain ⟨view', -, rfl⟩ := hview
  by_cases hheld : s.isHeld v = true
  · exact .inr hheld
  · apply Or.inl
    by_cases hdropped' : view'.dropped
    · simp [hdropped', hheld, View.cancel]
    · simp [hdropped'] at hdropped

theorem Released.releaseViews_eq (h : s.Released) : s.releaseViews = s := by
  have hviews : (s.views.mapIdx fun v view =>
      if view.dropped && !s.isHeld v then view.cancel else view) = s.views := by
    apply List.ext_getElem?
    intro v
    rw [List.getElem?_mapIdx]
    cases hview : s.views[v]? with
    | none => rfl
    | some view =>
      rw [Option.map_some]
      split
      · next hfree =>
        rw [Bool.and_eq_true, Bool.not_eq_true'] at hfree
        have hcancelled : view.cancelled = true :=
          (h v view hview hfree.1).resolve_right (by rw [hfree.2]; exact Bool.false_ne_true)
        rw [View.cancel, ← hcancelled]
      · rfl
  unfold releaseViews
  rw [hviews]

/-! ## Callers that go on or end -/

theorem finish_tidy (h : s.Listed) (n : Nat) (r : Result R E) : (s.finish n r).Tidy where
  listed := by
    intro c hc
    obtain ⟨hmem, hne⟩ := mem_callers_finish.1 hc
    rw [caller?_finish, if_neg hne]
    exact h c hmem
  released := releaseViews_released _

theorem finishPage_tidy (h : s.Listed) (n : Nat) (g : Guard) (r : Except Failure (Page R E)) :
    (s.finishPage n g r).Tidy := by
  unfold finishPage
  split
  · exact finish_tidy h _ _
  · split
    · exact finish_tidy h _ _
    · dsimp only
      refine finish_tidy ?_ n _
      exact h
  · exact finish_tidy h _ _
  · exact finish_tidy h _ _

/-- A caller that goes on holds on to the view that it held before. -/
theorem Tidy.put (h : s.Tidy) {c : Caller R E}
    (hview : ∀ c', s.caller? c.number = some c' → c'.job.view? = c.job.view?) : (s.put c).Tidy where
  listed := by
    intro c' hc'
    rw [caller?_put]
    rcases mem_callers_put.1 hc' with ⟨hmem, hne⟩ | rfl
    · rw [if_neg hne]
      exact h.listed c' hmem
    · exact if_pos rfl
  released := by
    intro v view hv hdropped
    refine (h.released v view hv hdropped).imp_right fun hheld => ?_
    obtain ⟨c', hmem, hholds⟩ := isHeld_iff.1 hheld
    rw [isHeld_iff]
    by_cases hnumber : c'.number = c.number
    · have hfound := h.listed c' hmem
      rw [hnumber] at hfound
      exact ⟨c, mem_callers_put.2 (.inr rfl), (hview c' hfound).symm.trans hholds⟩
    · exact ⟨c', mem_callers_put.2 (.inl ⟨hmem, hnumber⟩), hholds⟩

theorem Tidy.settle (h : s.Tidy) {c : Caller R E}
    (hview : ∀ c', s.caller? c.number = some c' → c'.job.view? = c.job.view?) :
    (s.settle c).Tidy := by
  unfold Session.settle
  split
  · split
    · exact finish_tidy h.listed _ _
    · exact finish_tidy h.listed _ _
    · exact finishPage_tidy (s := s.count _) h.listed _ _ _
    · exact h.put hview
    · exact h.put hview
  · exact h.put hview

theorem Tidy.ask (h : s.Tidy) {job : Job R}
    (hview : ∀ c, s.caller? n = some c → c.job.view? = job.view?) (ids : List String) :
    (s.ask n job ids).Tidy := h.settle hview

theorem Tidy.lookUp (h : s.Tidy) {c : Caller R E}
    (hview : ∀ c', s.caller? c.number = some c' → c'.job.view? = c.job.view?) :
    (s.lookUp c).Tidy := by
  obtain ⟨c', hnumber, hjob, hidle | ⟨r, id, -, hlookUp⟩⟩ := s.lookUp_cases c
  · rw [hidle]
    exact h.settle (by rwa [hnumber, hjob])
  · rw [hlookUp]
    refine Tidy.settle (s := s.afterResolve r c.number id) (h.of_eq rfl rfl) fun c₁ hc₁ => ?_
    rw [hnumber] at hc₁
    rw [hjob]
    exact hview c₁ hc₁

theorem Tidy.startPage (h : s.Tidy) (hnew : s.caller? n = none) (g : Guard) (rows : RowKind R)
    (q : PageQuery) : (s.startPage n g rows q).Tidy := by
  unfold Session.startPage
  split
  · exact finishPage_tidy h.listed _ _ _
  · refine (h.put fun c hc => ?_).of_eq rfl rfl
    cases hnew.symm.trans hc

theorem Tidy.begin (h : s.Tidy) {v : Nat} {view : View R E} (hview : s.views[v]? = some view) :
    ({ s with views := s.views.set v view.begin.2 } : Session R E).Tidy := by
  refine ⟨h.listed, fun v' view' hview' hdropped => ?_⟩
  rw [List.getElem?_set] at hview'
  split at hview'
  · next heq =>
    subst heq
    rw [if_pos (List.getElem?_eq_some_iff.1 hview).1] at hview'
    cases hview'
    exact h.released v view hview hdropped
  · exact h.released v' view' hview' hdropped

/-! ## Steps -/

theorem Tidy.start (h : s.Tidy) (hnumbered : s.Numbered) (task : Task R) : (s.start task).Tidy := by
  have hnew : s.caller? s.nextCaller = none := (hnumbered s.nextCaller (Nat.le_refl _)).1
  have hnext : ({ s with nextCaller := s.nextCaller + 1 } : Session R E).Tidy := h.of_eq rfl rfl
  have hfree {job : Job R} (c : Caller R E) (hc : s.caller? s.nextCaller = some c) :
      c.job.view? = job.view? := by cases hnew.symm.trans hc
  unfold Session.start
  cases task with
  | resolve id => exact hnext.lookUp hfree
  | resolveAll ids => exact hnext.ask hfree _
  | page q rows token => exact hnext.startPage hnew _ _ _
  | load v q =>
    dsimp only
    split
    · exact finish_tidy hnext.listed _ _
    · next view hview =>
      apply Tidy.startPage
      · exact hnext.begin hview
      · exact hnew
  | histogram request categories =>
    exact (hnext.put (c := { number := s.nextCaller, job := .histogram _ _ }) hfree).of_eq rfl rfl

theorem Tidy.receive (h : s.Tidy) (n : Nat) (reply : Reply) : (s.receive n reply).Tidy := by
  unfold Session.receive
  split
  · exact h
  · next c hc =>
    replace hc : s.caller? n = some c := hc
    split
    · next fetch g hjob =>
      split
      · exact finishPage_tidy (s := s.count _) h.listed _ _ _
      · apply h.ask
        intro c' hc'
        cases hc.symm.trans hc'
        rw [hjob]
        cases g <;> rfl
    · split
      · exact finish_tidy h.listed _ _
      · exact finish_tidy (s := s.count _) h.listed _ _
    · exact h
    · exact h
    · exact h

theorem Tidy.proceed (h : s.Tidy) (n : Nat) : (s.proceed n).Tidy := by
  cases hc : s.caller? n with
  | none =>
    rw [proceed_of_caller?_eq_none hc]
    exact h
  | some c =>
    rw [proceed_of_caller? hc]
    split
    · exact h
    · apply h.lookUp
      intro c' hc'
      rw [number_of_caller? hc] at hc'
      cases hc.symm.trans hc'
      rfl

theorem Tidy.tell (h : s.Tidy) (id : String) (a : Option E) (n : Nat) :
    (Session.tell id a s n).Tidy := by
  cases hc : s.caller? n with
  | none =>
    rw [tell_of_caller?_eq_none hc]
    exact h
  | some c =>
    rw [tell_of_caller? hc]
    apply h.settle
    intro c' hc'
    rw [number_of_caller? hc] at hc'
    cases hc.symm.trans hc'
    rfl

theorem Tidy.learn (h : s.Tidy) (id : String) (reply : Reply) : (s.learn id reply).Tidy := by
  unfold Session.learn
  split
  · exact h
  · split
    · exact List.foldlRecOn _ _ (h.of_eq rfl rfl) fun _ hs n _ => hs.tell id _ n
    · exact h

theorem Tidy.step (h : s.Tidy) (hnumbered : s.Numbered) (e : Event R) : (s.step e).Tidy := by
  cases e with
  | start task => exact h.start hnumbered task
  | receive n reply => exact h.receive n reply
  | lookUp n => exact h.proceed n
  | learn id reply => exact h.learn id reply
  | abort n =>
    simp only [Session.step]
    split
    · exact finish_tidy h.listed _ _
    · exact h
  | openView rows =>
    refine ⟨h.listed, fun v view hview hdropped => ?_⟩
    change (s.views ++ [({ rows } : View R E)])[v]? = some view at hview
    rw [List.getElem?_append] at hview
    split at hview
    · exact h.released v view hview hdropped
    · rw [List.getElem?_singleton] at hview
      split at hview
      · cases hview
        cases hdropped
      · cases hview
  | cancelView v =>
    refine ⟨h.listed, fun v' view hview hdropped => ?_⟩
    change (s.views.modify v View.cancel)[v']? = some view at hview
    rw [List.getElem?_modify, Option.map_eq_map, Option.map_eq_some_iff] at hview
    obtain ⟨view', hview', rfl⟩ := hview
    split at hdropped
    · exact .inl (by simp [*, View.cancel])
    · next hne =>
      rw [if_neg hne]
      exact h.released v' view' hview' hdropped
  | dropView v => exact ⟨h.listed, releaseViews_released _⟩
  | fire | invalidate | clear => exact h.of_eq rfl rfl

theorem Tidy.run (h : s.Tidy) (hnumbered : s.Numbered) (es : List (Event R)) : (s.run es).Tidy := by
  induction es generalizing s with
  | nil => exact h
  | cons e es ih => exact ih (h.step hnumbered e) (hnumbered.step e)

/-- However its views are loaded, cancelled and dropped, a session never leaves a view that was dropped
uncancelled without a load that holds on to it. -/
theorem opened_tidy (pager : Pager) (now : Instant) (cache : Option (Option UInt64 × Directory E))
    (es : List (Event R)) : ((opened pager now cache : Session R E).run es).Tidy := by
  refine Tidy.run ⟨?_, ?_⟩ (opened_numbered pager now cache) es
  · intro c hc
    cases hc
  · intro v view hview
    cases hview

end Session

end LedgerExplorer
