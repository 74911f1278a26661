import LedgerExplorer.Proofs.Page.Screen
import Mathlib.Data.List.Induction

/-!
# The last load wins

Loads of a view overlap and end in any order. The page that is shown is that of the load whose
generation the view names, generations are shown in the order in which they were taken, and no load is
shown after a later one has started (`Screen.Ordered`). Generations are words; as long as these do not
run out they tell the loads apart (`Screen.Placed.latest_eq_iff`).
-/

namespace LedgerExplorer

namespace Screen

variable {R E : Type} {fetched : Load → Except Fault (Page R E)} {s : Screen R E}

/-- The loads under way and those that ended are different loads that were started, and the latest
generation is the word for their number. -/
structure Placed (s : Screen R E) : Prop where
  latest_eq : s.view.latest = UInt64.ofNat s.queries.length
  running_started : ∀ l ∈ s.running, s.Started l
  ended_started : ∀ e ∈ s.ended, s.Started e.1
  running_nodup : s.running.Nodup
  ended_ne : ∀ e ∈ s.ended, e.1 ∉ s.running

theorem Placed.toNat_latest (h : s.Placed) (hlt : s.queries.length < UInt64.size) :
    s.view.latest.toNat = s.queries.length := by
  rw [h.latest_eq, UInt64.toNat_ofNat_of_lt' hlt]

/-- A view compares words. As long as these do not run out, the load that has the latest one is the load
that was started last. -/
theorem Placed.latest_eq_iff (h : s.Placed) (hlt : s.queries.length < UInt64.size) {l : Load}
    (hl : s.Started l) : s.view.latest = l.generation ↔ l.number = s.queries.length := by
  rw [← UInt64.toNat_inj, h.toNat_latest hlt, hl.toNat_generation hlt, eq_comm]

theorem started_start {l : Load} (hl : s.Started l) (q : PageQuery) : (s.start q).Started l :=
  ⟨hl.1, hl.2.1, (List.getElem?_append_left (List.getElem?_eq_some_iff.1 hl.2.2).1).trans hl.2.2⟩

theorem Placed.started_next (h : s.Placed) (q : PageQuery) : (s.start q).Started (s.next q) := by
  refine ⟨Nat.succ_pos _, ?_, by simp [start_eq, next]⟩
  change s.view.latest + 1 = _
  rw [h.latest_eq]
  exact (UInt64.ofNat_add _ 1).symm

theorem Placed.start (h : s.Placed) (q : PageQuery) : (s.start q).Placed := by
  have hnext (l : Load) (hl : s.Started l) : l ≠ s.next q := by
    rintro rfl
    exact absurd hl.le (Nat.not_succ_le_self _)
  have hkept (l : Load) (hl : s.Started l) : (s.start q).Started l := started_start hl q
  have hnew := h.started_next q
  rw [start_eq] at hkept hnew ⊢
  exact {
    latest_eq := by
      rw [List.length_append, h.latest_eq]
      exact (UInt64.ofNat_add _ 1).symm
    running_started := by
      intro l hl
      rcases List.mem_append.1 hl with hold | hlast
      · exact hkept l (h.running_started l hold)
      · cases List.mem_singleton.1 hlast
        exact hnew
    ended_started := by
      intro e he
      exact hkept _ (h.ended_started e he)
    running_nodup := by
      refine List.nodup_append.2 ⟨h.running_nodup, List.nodup_singleton _, ?_⟩
      intro l hl l' hl'
      cases List.mem_singleton.1 hl'
      exact hnext l (h.running_started l hl)
    ended_ne := by
      intro e he
      simp [h.ended_ne e he, hnext e.1 (h.ended_started e he)] }

theorem Placed.finish (h : s.Placed) (l : Load) : (s.finish fetched l).Placed := by
  by_cases hl : l ∈ s.running
  · have hended {o : Except Fault LoadOutcome} {e : Load × Except Fault LoadOutcome}
        (he : e ∈ s.ended ++ [(l, o)]) : s.Started e.1 ∧ e.1 ∉ s.running.erase l := by
      rw [h.running_nodup.mem_erase_iff, not_and_or, not_not]
      rcases List.mem_append.1 he with hold | hnew
      · exact ⟨h.ended_started e hold, .inr (h.ended_ne e hold)⟩
      · cases List.mem_singleton.1 hnew
        exact ⟨h.running_started l hl, .inl rfl⟩
    rcases finish_cases fetched hl with ⟨o, heq, -, -⟩ | ⟨page, -, -, -, heq⟩
    all_goals
      rw [heq]
      exact {
        latest_eq := h.latest_eq
        running_started := fun m hm => h.running_started m (List.mem_of_mem_erase hm)
        ended_started := fun e he => (hended he).1
        running_nodup := h.running_nodup.erase l
        ended_ne := fun e he => (hended he).2 }
  · simpa [Screen.finish, hl] using h

theorem Placed.step (h : s.Placed) (e : Event) : (s.step fetched e).Placed := by
  cases e with
  | start q => exact h.start q
  | finish l => exact h.finish l
  | abandon l =>
    exact { h with
      running_started := fun m hm => h.running_started m (List.mem_of_mem_erase hm)
      running_nodup := h.running_nodup.erase l
      ended_ne := fun e he hmem => h.ended_ne e he (List.mem_of_mem_erase hmem) }
  | cancel => exact { h with }

theorem opened_placed (rows : RowKind R) : (opened rows : Screen R E).Placed where
  latest_eq := rfl
  running_started l hl := by cases hl
  ended_started e he := by cases he
  running_nodup := .nil
  ended_ne e he := by cases he

/-- The view shows nothing, or the page of a load that ended. That is the latest load if it ended with
a page before the view was cancelled. -/
structure Ordered (fetched : Load → Except Fault (Page R E)) (s : Screen R E) : Prop
    extends s.Placed where
  page_eq : s.view.page = none ∧ s.view.applied = 0 ∨ ∃ e ∈ s.ended, ∃ page,
    e.1.generation = s.view.applied ∧ fetched e.1 = .ok page ∧ s.view.page = some page
  shown_le : ∀ g ∈ s.shown, g ≤ s.view.applied
  shown_lt : s.shown.Pairwise (· < ·)
  latest_shown : s.view.cancelled = false → ∀ e ∈ s.ended, e.1.generation = s.view.latest →
    ∀ page, fetched e.1 = .ok page → s.view.applied = s.view.latest ∧ s.view.page = some page

theorem opened_ordered (rows : RowKind R) : (opened rows : Screen R E).Ordered fetched where
  toPlaced := opened_placed rows
  page_eq := .inl ⟨rfl, rfl⟩
  shown_le g hg := by cases hg
  shown_lt := .nil
  latest_shown _ e he := by cases he

theorem Ordered.applied_le (h : s.Ordered fetched) (hlt : s.queries.length < UInt64.size) :
    s.view.applied ≤ s.view.latest := by
  rcases h.page_eq with ⟨-, hzero⟩ | ⟨e, he, page, hgeneration, -, -⟩
  · exact hzero ▸ UInt64.zero_le
  · have hstarted := h.ended_started e he
    rw [UInt64.le_iff_toNat_le, ← hgeneration, hstarted.toNat_generation hlt, h.toNat_latest hlt]
    exact hstarted.le

/-- A load under way has not been shown, so it is later than what is shown if it is the latest. -/
theorem Ordered.applied_lt (h : s.Ordered fetched) (hlt : s.queries.length < UInt64.size) {l : Load}
    (hl : l ∈ s.running) (hlatest : s.view.latest = l.generation) :
    s.view.applied < l.generation := by
  have hstarted := h.running_started l hl
  have hle := h.applied_le hlt
  rw [hlatest, UInt64.le_iff_toNat_le] at hle
  rw [UInt64.lt_iff_toNat_lt]
  rcases h.page_eq with ⟨-, hzero⟩ | ⟨e, he, page, hgeneration, -, -⟩
  · rw [hzero, hstarted.toNat_generation hlt]
    exact hstarted.1
  · refine Nat.lt_of_le_of_ne hle fun heq => h.ended_ne e he ?_
    have hnumber : e.1.number = l.number := by
      rw [← (h.ended_started e he).toNat_generation hlt, ← hstarted.toNat_generation hlt, hgeneration]
      exact heq
    rwa [(h.ended_started e he).eq hstarted hnumber]

theorem Ordered.start (h : s.Ordered fetched) (q : PageQuery)
    (hlt : (s.start q).queries.length < UInt64.size) : (s.start q).Ordered fetched where
  toPlaced := h.toPlaced.start q
  page_eq := h.page_eq
  shown_le := h.shown_le
  shown_lt := h.shown_lt
  latest_shown := by
    -- No load that ended has the generation that has just been taken.
    intro _ e he hlatest
    have hstarted := h.ended_started e he
    have hnumber := ((h.toPlaced.start q).latest_eq_iff hlt (started_start hstarted q)).1 hlatest.symm
    rw [start_eq, List.length_append, List.length_singleton] at hnumber
    exact absurd (hnumber ▸ hstarted.le) (Nat.not_succ_le_self _)

theorem Ordered.finish (h : s.Ordered fetched) (hlt : s.queries.length < UInt64.size) (l : Load) :
    (s.finish fetched l).Ordered fetched := by
  by_cases hl : l ∈ s.running
  · have hplaced : (s.finish fetched l).Placed := h.toPlaced.finish l
    rcases finish_cases fetched hl with ⟨o, heq, hnone, hnot⟩ | ⟨page, hpage, -, hlatest, heq⟩
    · rw [heq] at hplaced ⊢
      exact { hplaced with
        page_eq := by
          refine h.page_eq.imp_right ?_
          rintro ⟨e, he, page, hshown⟩
          exact ⟨e, List.mem_append_left _ he, page, hshown⟩
        shown_le := by simpa [shown, hnone] using h.shown_le
        shown_lt := by simpa [shown, hnone] using h.shown_lt
        latest_shown := by
          intro hcancelled e he hlatest page hpage
          rcases List.mem_append.1 he with hold | hnew
          · exact h.latest_shown hcancelled e hold hlatest page hpage
          · cases List.mem_singleton.1 hnew
            exact (hnot ⟨hcancelled, hlatest.symm, page, hpage⟩).elim }
    · have happlied := h.applied_lt hlt hl hlatest
      have hlast := (h.latest_eq_iff hlt (h.running_started l hl)).1 hlatest
      have hshown : (s.finish fetched l).shown = s.shown ++ [l.generation] := by
        rw [heq, shown, List.filterMap_append]
        rfl
      rw [heq] at hplaced hshown ⊢
      exact { hplaced with
        page_eq := .inr ⟨(l, .ok .applied), by simp, page, rfl, hpage, rfl⟩
        shown_le := by
          intro g hg
          rw [hshown] at hg
          rcases List.mem_append.1 hg with hold | hnew
          · exact UInt64.le_of_lt (UInt64.lt_of_le_of_lt (h.shown_le g hold) happlied)
          · exact List.mem_singleton.1 hnew ▸ UInt64.le_refl _
        shown_lt := by
          rw [hshown]
          refine List.pairwise_append.2 ⟨h.shown_lt, List.pairwise_singleton _ _, ?_⟩
          intro g hg g' hg'
          rw [List.mem_singleton.1 hg']
          exact UInt64.lt_of_le_of_lt (h.shown_le g hg) happlied
        latest_shown := by
          intro _ e he hgeneration page' hpage'
          have hsame : e.1 = l := by
            have hstarted := hplaced.ended_started e he
            apply hstarted.eq (h.running_started l hl)
            exact ((hplaced.latest_eq_iff hlt hstarted).1 hgeneration.symm).trans hlast.symm
          rw [hsame, hpage] at hpage'
          exact ⟨hlatest.symm, congrArg some (Except.ok.inj hpage')⟩ }
  · simpa [Screen.finish, hl] using h

theorem length_queries_step (s : Screen R E) (fetched : Load → Except Fault (Page R E)) (e : Event) :
    s.queries.length ≤ (s.step fetched e).queries.length := by
  rw [queries_step, List.length_append]
  exact Nat.le_add_right _ _

theorem length_queries_run (s : Screen R E) (es : List Event) :
    s.queries.length ≤ (s.run fetched es).queries.length := by
  rw [queries_run, List.length_append]
  exact Nat.le_add_right _ _

theorem Ordered.step (h : s.Ordered fetched) (e : Event)
    (hlt : (s.step fetched e).queries.length < UInt64.size) : (s.step fetched e).Ordered fetched := by
  have hbefore := Nat.lt_of_le_of_lt (s.length_queries_step fetched e) hlt
  cases e with
  | start q => exact h.start q hlt
  | finish l => exact h.finish hbefore l
  | abandon l =>
    have hplaced : (s.step fetched (.abandon l)).Placed := h.toPlaced.step _
    exact { h with toPlaced := hplaced }
  | cancel => exact { h with latest_shown := nofun }

theorem Ordered.run (h : s.Ordered fetched) (es : List Event)
    (hlt : (s.run fetched es).queries.length < UInt64.size) : (s.run fetched es).Ordered fetched := by
  induction es generalizing s with
  | nil => exact h
  | cons e es ih =>
    have hstep := Nat.lt_of_le_of_lt ((s.step fetched e).length_queries_run es) hlt
    exact ih (h.step e hstep) hlt

/-! ## What becomes of a load -/

theorem started_of_start {q : PageQuery} {l : Load} (h : s.Placed) (hl : (s.start q).Started l) :
    s.Started l ∨ l = s.next q := by
  by_cases hold : l.number = s.queries.length + 1
  · exact .inr (hl.eq (h.started_next q) hold)
  · refine .inl ⟨hl.1, hl.2.1, ?_⟩
    have hle := hl.le
    rw [start_eq, List.length_append, List.length_singleton] at hle
    have hbefore : l.number - 1 < s.queries.length := by
      have hpos := hl.1
      omega
    exact (List.getElem?_append_left hbefore).symm.trans hl.2.2

/-- The end of a load that is under way puts it among those that ended, and is the end of no other. -/
theorem ended_finish (fetched : Load → Except Fault (Page R E)) {l : Load} (hl : l ∈ s.running) :
    ∃ o, (s.finish fetched l).ended = s.ended ++ [(l, o)] ∧
      (s.finish fetched l).running = s.running.erase l ∧ (o = .ok .applied ↔
        s.view.cancelled = false ∧ s.view.latest = l.generation ∧ ∃ page, fetched l = .ok page) := by
  rcases finish_cases fetched hl with ⟨o, heq, hnone, hnot⟩ | ⟨page, hpage, hcancelled, hlatest, heq⟩
  · refine ⟨o, by rw [heq], by rw [heq], iff_of_false ?_ hnot⟩
    rintro rfl
    cases hnone
  · exact ⟨.ok .applied, by rw [heq], by rw [heq], iff_of_true rfl ⟨hcancelled, hlatest, page, hpage⟩⟩

theorem accounted_step (h : s.Placed) (e : Event) {l : Load}
    (hbefore : s.Started l → l ∈ s.running ∨ ∃ o, (l, o) ∈ s.ended)
    (hl : (s.step fetched e).Started l) :
    l ∈ (s.step fetched e).running ∨ (∃ o, (l, o) ∈ (s.step fetched e).ended) ∨ e = .abandon l := by
  cases e with
  | start q =>
    rcases started_of_start h hl with hold | rfl
    · exact (hbefore hold).imp (List.mem_append_left _) .inl
    · exact .inl (List.mem_append_right _ (List.mem_singleton.2 rfl))
  | finish m =>
    have hold : s.Started l := by
      unfold Started at hl ⊢
      rwa [step, queries_finish] at hl
    change l ∈ (s.finish fetched m).running ∨ (∃ o, (l, o) ∈ (s.finish fetched m).ended) ∨ _
    by_cases hm : m ∈ s.running
    · obtain ⟨o, hended, hrunning, -⟩ := ended_finish fetched hm
      rw [hended, hrunning]
      rcases hbefore hold with hmem | ⟨o', ho'⟩
      · by_cases hlm : l = m
        · exact .inr (.inl ⟨o, by simp [hlm]⟩)
        · exact .inl ((List.mem_erase_of_ne hlm).2 hmem)
      · exact .inr (.inl ⟨o', List.mem_append_left _ ho'⟩)
    · have hsame : s.finish fetched m = s := if_neg hm
      rw [hsame]
      exact (hbefore hold).imp_right .inl
  | abandon m =>
    rcases hbefore hl with hmem | hended
    · by_cases hlm : l = m
      · exact .inr (.inr (congrArg _ hlm.symm))
      · exact .inl ((List.mem_erase_of_ne hlm).2 hmem)
    · exact .inr (.inl hended)
  | cancel => exact (hbefore hl).imp_right .inl

/-- A load that was started is under way, or it has ended or been abandoned. -/
theorem accounted_run (rows : RowKind R) (es : List Event) {l : Load}
    (hl : ((opened rows).run fetched es).Started l) :
    l ∈ ((opened rows).run fetched es).running ∨
      (∃ o, (l, o) ∈ ((opened rows).run fetched es).ended) ∨ .abandon l ∈ es := by
  induction es using List.reverseRecOn with
  | nil => cases hl.2.2
  | append_singleton es e ih =>
    have hconcat : (opened rows).run fetched (es ++ [e]) =
        ((opened rows).run fetched es).step fetched e := List.foldl_concat ..
    rw [hconcat] at hl ⊢
    rw [List.mem_append, List.mem_singleton]
    by_cases habandoned : .abandon l ∈ es
    · exact .inr (.inr (.inl habandoned))
    · have hplaced : ((opened rows).run fetched es).Placed :=
        run_induction (opened_placed rows) (fun _ e hs => hs.step e) es
      have hbefore := fun hold => (ih hold).imp_right fun h => h.resolve_right habandoned
      exact (accounted_step hplaced e hbefore hl).imp_right (.imp_right fun he => .inr he.symm)

/-! ## What stays as it is -/

theorem Ordered.applied_le_step (h : s.Ordered fetched) (e : Event)
    (hlt : s.queries.length < UInt64.size) : s.view.applied ≤ (s.step fetched e).view.applied := by
  cases e with
  | start q => exact UInt64.le_refl _
  | finish l =>
    change _ ≤ (s.finish fetched l).view.applied
    rcases s.view_finish fetched l with hview | ⟨page, hl, -, hlatest, hview⟩
    · rw [hview]
      exact UInt64.le_refl _
    · rw [hview]
      exact UInt64.le_of_lt (h.applied_lt hlt hl hlatest)
  | abandon l => exact UInt64.le_refl _
  | cancel => exact UInt64.le_refl _

theorem Ordered.applied_le_run (h : s.Ordered fetched) (es : List Event)
    (hlt : (s.run fetched es).queries.length < UInt64.size) :
    s.view.applied ≤ (s.run fetched es).view.applied := by
  induction es generalizing s with
  | nil => exact UInt64.le_refl _
  | cons e es ih =>
    have hstep := Nat.lt_of_le_of_lt ((s.step fetched e).length_queries_run es) hlt
    have hbefore := Nat.lt_of_le_of_lt (s.length_queries_step fetched e) hstep
    exact UInt64.le_trans (h.applied_le_step e hbefore) (ih (h.step e hstep) hlt)

/-- A view that is cancelled goes on showing what it shows. -/
theorem run_of_cancelled (h : s.view.cancelled = true) (es : List Event) :
    (s.run fetched es).view.page = s.view.page ∧ (s.run fetched es).view.applied = s.view.applied := by
  refine (run_induction (P := fun t => t.view.cancelled = true ∧ t.view.page = s.view.page ∧
    t.view.applied = s.view.applied) ⟨h, rfl, rfl⟩ (fun t e ht => ?_) es).2
  cases e with
  | start q => exact ht
  | finish l =>
    change (t.finish fetched l).view.cancelled = true ∧ (t.finish fetched l).view.page = _ ∧
      (t.finish fetched l).view.applied = _
    rcases t.view_finish fetched l with hview | ⟨page, -, hcancelled, -, -⟩
    · rwa [hview]
    · rw [ht.1] at hcancelled
      cases hcancelled
  | abandon l => exact ht
  | cancel => exact ⟨rfl, ht.2⟩

/-- Only being torn down cancels a view. -/
theorem cancelled_run (h : s.view.cancelled = false) {es : List Event} (hes : .cancel ∉ es) :
    (s.run fetched es).view.cancelled = false := by
  induction es generalizing s with
  | nil => exact h
  | cons e es ih =>
    obtain ⟨he, hes⟩ := not_or.1 (List.mem_cons.not.1 hes)
    refine ih ?_ hes
    cases e with
    | start q => exact h
    | finish l =>
      change (s.finish fetched l).view.cancelled = false
      rcases s.view_finish fetched l with hview | ⟨page, -, -, -, hview⟩
      · rwa [hview]
      · rwa [hview]
    | abandon l => exact h
    | cancel => exact (he rfl).elim

/-- As long as fewer loads are started than there are words, the latest generation counts them, and the
page that is shown is what was fetched for the query of the load whose generation is applied; there is
none before the first. Generations are applied in order and once each, and none after the view was torn
down. Every load that was started is under way, has ended or was abandoned, and when its fetch returns
it ends: with its page shown exactly if there is one, the view was not torn down and no other load was
started after it. So once the load that was started last has ended with a page, that page is shown. -/
theorem last_load_wins (rows : RowKind R) (fetched : Load → Except Fault (Page R E)) (es : List Event)
    (hloads : (es.filterMap Event.query?).length < UInt64.size) :
    let s := (opened rows).run fetched es
    s.queries = es.filterMap Event.query? ∧
    s.view.latest.toNat = s.queries.length ∧
    s.view.applied ≤ s.view.latest ∧
    (s.view.applied = 0 ↔ s.view.page = none) ∧
    (0 < s.view.applied → ∃ l page, l.generation = s.view.applied ∧
      l.number = s.view.applied.toNat ∧ s.queries[l.number - 1]? = some l.query ∧
      fetched l = .ok page ∧ s.view.page = some page) ∧
    s.shown.Pairwise (· < ·) ∧
    (∀ es', (s.run fetched es').queries.length < UInt64.size →
      s.view.applied ≤ (s.run fetched es').view.applied) ∧
    (∀ es', (s.run fetched (.cancel :: es')).view.page = s.view.page ∧
      (s.run fetched (.cancel :: es')).view.applied = s.view.applied) ∧
    (∀ l, s.Started l → l ∈ s.running ∨ (∃ o, (l, o) ∈ s.ended) ∨ .abandon l ∈ es) ∧
    (∀ l ∈ s.running, let t := s.step fetched (.finish l)
      l ∉ t.running ∧ ∃ o, t.ended = s.ended ++ [(l, o)] ∧ (o = .ok .applied ↔
        s.view.cancelled = false ∧ l.number = s.queries.length ∧ ∃ page, fetched l = .ok page)) ∧
    ∀ q o page, (⟨s.queries.length, s.view.latest, q⟩, o) ∈ s.ended → .cancel ∉ es →
      fetched ⟨s.queries.length, s.view.latest, q⟩ = .ok page →
        s.queries.getLast? = some q ∧ s.view.applied = s.view.latest ∧ s.view.page = some page := by
  intro s
  have hqueries : s.queries = es.filterMap Event.query? := queries_run _ es
  have hlt : s.queries.length < UInt64.size := hqueries ▸ hloads
  have h : s.Ordered fetched := (opened_ordered rows).run es hlt
  refine ⟨hqueries, h.toNat_latest hlt, h.applied_le hlt, ?_, fun hpos => ?_, h.shown_lt,
    h.applied_le_run, fun es' => ?_, fun l => accounted_run rows es, fun l hl => ?_,
    fun q o page hended hes hpage => ?_⟩
  · rcases h.page_eq with ⟨hpage, hzero⟩ | ⟨e, he, page, hgeneration, -, hpage⟩
    · simp [hpage, hzero]
    · have hstarted := h.ended_started e he
      have hne : s.view.applied ≠ 0 := by
        intro hzero
        have hnumber := hstarted.toNat_generation hlt
        rw [hgeneration, hzero] at hnumber
        exact absurd hnumber (Nat.ne_of_lt hstarted.1)
      simp [hpage, hne]
  · rcases h.page_eq with ⟨-, hzero⟩ | ⟨e, he, page, hgeneration, hfetched, hpage⟩
    · exact absurd hpos (hzero ▸ UInt64.lt_irrefl 0)
    · have hstarted := h.ended_started e he
      refine ⟨e.1, page, hgeneration, ?_, hstarted.2.2, hfetched, hpage⟩
      rw [← hgeneration, hstarted.toNat_generation hlt]
  · exact run_of_cancelled (s := { s with view := s.view.cancel }) rfl es'
  · obtain ⟨o, hended, hrunning, hiff⟩ := ended_finish fetched hl
    rw [h.latest_eq_iff hlt (h.running_started l hl)] at hiff
    refine ⟨?_, o, hended, hiff⟩
    rw [step, hrunning]
    exact fun hmem => (h.running_nodup.mem_erase_iff.1 hmem).1 rfl
  · have hcancelled : s.view.cancelled = false := cancelled_run rfl hes
    have hstarted := h.ended_started _ hended
    refine ⟨List.getLast?_eq_getElem? ▸ hstarted.2.2, ?_⟩
    exact h.latest_shown hcancelled _ hended rfl page hpage

/-- Two loads overlap, and the one that started last ends first. -/
theorem overtaking_load_stays :
    let first : PageQuery := { entityPath := "events", limit := 10 }
    let second : PageQuery := { entityPath := "events", offset := 10, limit := 10 }
    let fetched : Load → Except Fault (Page String String) := fun l =>
      .ok { rows := [⟨l.query.entityPath, none⟩], total := 11, offset := l.query.offset, limit := 10 }
    let started := (opened ⟨Decoder.string, fun _ => none⟩).run fetched [.start first, .start second]
    let s := (started.step fetched (.finish ⟨2, 2, second⟩)).step fetched (.finish ⟨1, 1, first⟩)
    s.queries.getLast? = some second ∧ s.view.applied = s.view.latest ∧
      s.view.page.map Page.offset = some 10 := by
  intro first second fetched started s
  obtain ⟨-, -, -, -, -, -, -, -, -, -, hlast⟩ := last_load_wins
    (E := String) ⟨Decoder.string, fun _ => none⟩ fetched
    [.start first, .start second, .finish ⟨2, 2, second⟩, .finish ⟨1, 1, first⟩] (by decide)
  obtain ⟨hquery, happlied, hpage⟩ := hlast second (.ok .applied) _ (by decide) (by decide) rfl
  exact ⟨hquery, happlied, congrArg (Option.map Page.offset) hpage⟩

end Screen

end LedgerExplorer
