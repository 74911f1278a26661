import LedgerExplorer.Proofs.Cache.Waiting

/-!
# Every caller gets its answer

The callers of a pending id are answered together when its fetch is published, each of them once, and
nobody is left waiting when no fetch runs. A run in which callers go away is, for all the others, the
run in which they stay (`Desk.SameButDropped`).
-/

namespace LedgerExplorer

namespace Desk

variable {E : Type} {outcome : Fetch → FetchOutcome E} {d d' : Desk E}

/-! ## Going away -/

/-- The second desk is the first without the callers that went away: it gave the same answers and
those that they did not wait for. -/
def SameButDropped (d d' : Desk E) : Prop :=
  ∃ answered, d' = { d with dropped := [], answered } ∧
    d.answered = answered.filter (·.1 ∉ d.dropped)

theorem SameButDropped.resolve (h : SameButDropped d d') (hlt : ∀ n ∈ d.dropped, n < d.calls.length)
    (id : String) : SameButDropped (d.resolve id) (d'.resolve id) := by
  obtain ⟨answered, rfl, heq⟩ := h
  have hfresh : d.calls.length ∉ d.dropped := fun hmem => Nat.lt_irrefl _ (hlt _ hmem)
  unfold Desk.resolve
  rcases d.resolver.resolve d.calls.length id with ⟨_ | _ | _, r⟩
  · exact ⟨_, rfl, by simp [heq, hfresh]⟩
  · exact ⟨_, rfl, heq⟩
  · exact ⟨_, rfl, heq⟩

theorem SameButDropped.finish (h : SameButDropped d d') (f : Fetch) :
    SameButDropped (d.finish outcome f) (d'.finish outcome f) := by
  obtain ⟨answered, rfl, heq⟩ := h
  unfold Desk.finish
  by_cases hf : f ∈ d.running
  · simp only [hf, if_true]
    exact ⟨_, rfl, by simp [heq, List.filter_map, Function.comp_def]⟩
  · simp only [hf, if_false]
    exact ⟨_, rfl, heq⟩

/-- A caller that goes away has had no answer, so it takes none from the others. -/
theorem SameButDropped.drop (h : SameButDropped d d') (n : Nat) : SameButDropped (d.drop n) d' := by
  obtain ⟨answered, rfl, heq⟩ := h
  unfold Desk.drop
  split
  · next hwaits =>
    refine ⟨_, rfl, ?_⟩
    have hkeep : d.answered.filter (·.1 ≠ n) = d.answered := by
      refine List.filter_eq_self.2 fun p hp => ?_
      have hne : p.1 ≠ n := fun hpn => hwaits.2.2 (hpn ▸ List.mem_map_of_mem hp)
      simpa using hne
    rw [← hkeep, heq, List.filter_filter]
    simp [not_or]
  · exact ⟨_, rfl, heq⟩

theorem SameButDropped.run (h : SameButDropped d d') (hd : d.Accounted) (es : List Event) :
    SameButDropped (d.run outcome es) (d'.run outcome (es.filter (!·.isDrop))) := by
  induction es generalizing d d' with
  | nil => exact h
  | cons e es ih =>
    have hd' : (d.step outcome e).Accounted := hd.step e
    cases e with
    | resolve id => exact ih (h.resolve hd.dropped_lt id) hd'
    | finish f => exact ih (h.finish f) hd'
    | drop n => exact ih (h.drop n) hd'
    | invalidate id =>
      obtain ⟨answered, rfl, heq⟩ := h
      exact ih ⟨_, rfl, heq⟩ hd'
    | clear =>
      obtain ⟨answered, rfl, heq⟩ := h
      exact ih ⟨_, rfl, heq⟩ hd'

/-- Two desks that come from a third one by callers going away differ in nothing else, and gave the same
answers to whoever stayed at both. -/
theorem SameButDropped.agree {d₁ d₂ : Desk E} (h₁ : SameButDropped d₁ d') (h₂ : SameButDropped d₂ d') :
    d₁.resolver = d₂.resolver ∧ d₁.calls = d₂.calls ∧ d₁.running = d₂.running ∧
      d₁.published = d₂.published ∧
      d₁.answered.filter (·.1 ∉ d₂.dropped) = d₂.answered.filter (·.1 ∉ d₁.dropped) := by
  obtain ⟨answered, rfl, heq₁⟩ := h₁
  obtain ⟨answered', hd, heq₂⟩ := h₂
  rw [Desk.mk.injEq] at hd
  obtain ⟨hresolver, -, hrunning, hpublished, hcalls, -, rfl⟩ := hd
  refine ⟨hresolver, hcalls, hrunning, hpublished, ?_⟩
  rw [heq₁, heq₂, List.filter_filter, List.filter_filter]
  simp only [Bool.and_comm]

/-! ## The pending ids -/

/-- The callers that wait for an id are those of the fetch that runs for it, once each. -/
theorem Accounted.waiters_of_running (h : d.Accounted) {f : Fetch} (hf : f ∈ d.running) :
    ∃ ws, d.cache.waiters? f.id = some ws ∧ ws.Nodup ∧
      ∀ n, n ∈ ws ↔ ∃ c, d.calls[n]? = some c ∧ c.fetch = f := by
  obtain ⟨ws, hw⟩ := h.tracked.waiters?_of_mem hf
  have hcount {n : Nat} {c : Inquiry} (hn : d.calls[n]? = some c) :
      ws.count n = if c.fetch = f then 1 else 0 := by
    rw [← registrations_of_waiters? hw, h.registrations_eq hn]
    simp only [h.fetch_iff hf]
  have hnone {n : Nat} (hn : d.calls.length ≤ n) : ws.count n = 0 := by
    rw [← registrations_of_waiters? hw, h.registrations_of_le hn]
  refine ⟨ws, hw, List.nodup_iff_count_le_one.2 fun n => ?_, fun n => ?_⟩
  · cases hn : d.calls[n]? with
    | none => simp [hnone (List.getElem?_eq_none_iff.1 hn)]
    | some c =>
      rw [hcount hn]
      split <;> simp
  · rw [← List.count_pos_iff]
    cases hn : d.calls[n]? with
    | none => simp [hnone (List.getElem?_eq_none_iff.1 hn)]
    | some c =>
      rw [hcount hn]
      by_cases hc : c.fetch = f <;> simp [hc]

theorem Accounted.running_iff (h : d.Accounted) {n : Nat} {c : Inquiry} (hn : d.calls[n]? = some c) :
    c.fetch ∈ d.running ↔ c.fetch ∉ d.published :=
  ⟨h.tracked.disjoint c.fetch, (h.ran hn).resolve_right⟩

/-- When no fetch runs, nothing is pending and every call has been answered or dropped. -/
theorem Accounted.of_running_nil (h : d.Accounted) (hidle : d.running = []) :
    (∀ id, d.cache.state? id ≠ some .pending) ∧ ∀ n, ¬d.Waits n := by
  refine ⟨fun id hpending => ?_, fun n ⟨hlt, hkept, hnone⟩ => ?_⟩
  · have hmem := (h.tracked.latest_mem_iff id).2 (Cache.state?_eq_pending_iff.1 hpending)
    rw [hidle] at hmem
    cases hmem
  · have hone := h.answersTo_eq (List.getElem?_eq_getElem hlt)
    rw [if_neg (by simp [hidle, hkept])] at hone
    exact Nat.zero_ne_one ((List.count_eq_zero.2 hnone).symm.trans hone)

/-- A call that is not a hit waits for a fetch that runs. It is registered once, with its own id, until
that fetch is published, and is then answered with the others that wait for it: once each, and
everybody alike, unless dropped. Dropping callers changes nothing else. -/
theorem every_call_answered_once (namespaceName : String) (bound : Option UInt64)
    (directory : Directory E) (outcome : Fetch → FetchOutcome E) (es : List Event) :
    let d := (opened namespaceName bound directory).run outcome es
    d.calls.map (·.fetch.id) = es.filterMap Event.asked? ∧
    (∀ id, ∃ c, (d.resolve id).calls = d.calls ++ [c] ∧
      (c.fetch ∈ (d.resolve id).running ↔ c.met ≠ .hit)) ∧
    (∀ n c, d.calls[n]? = some c →
      (c.fetch ∈ d.running ↔ c.fetch ∉ d.published) ∧
      (c.met = .hit → c.fetch ∉ d.running ∧ n ∉ d.dropped) ∧
      (∀ id, d.registrations id n = if c.fetch ∈ d.running ∧ c.fetch.id = id then 1 else 0) ∧
      d.answersTo n = if c.fetch ∈ d.running ∨ n ∈ d.dropped then 0 else 1) ∧
    (∀ f ∈ d.running, ∃ ws, d.cache.slots.get? f.id = some (.pending ws) ∧ ws.Nodup ∧
      (∀ n, n ∈ ws ↔ ∃ c, d.calls[n]? = some c ∧ c.fetch = f) ∧
      (d.finish outcome f).published = d.published ++ [f] ∧
      (d.finish outcome f).answered = d.answered ++
        (ws.filter (· ∉ d.dropped)).map fun n => (n, answerOf (outcome f))) ∧
    (d.running = [] → (∀ id, d.cache.state? id ≠ some .pending) ∧ ∀ n, ¬d.Waits n) ∧
    ∀ es' : List Event, es'.filter (!·.isDrop) = es.filter (!·.isDrop) →
      let d' := (opened namespaceName bound directory).run outcome es'
      d'.resolver = d.resolver ∧ d'.calls = d.calls ∧ d'.running = d.running ∧
      d'.published = d.published ∧
      d'.answered.filter (·.1 ∉ d.dropped) = d.answered.filter (·.1 ∉ d'.dropped) := by
  intro d
  have hopened : (opened namespaceName bound directory).Accounted :=
    opened_accounted namespaceName bound directory
  have h : d.Accounted := hopened.run es
  have hstays (es : List Event) : SameButDropped ((opened namespaceName bound directory).run outcome es)
      ((opened namespaceName bound directory).run outcome (es.filter (!·.isDrop))) :=
    SameButDropped.run ⟨[], rfl, rfl⟩ hopened es
  refine ⟨calls_run _ es, fun id => ?_, fun n c hn => ?_, fun f hf => ?_, h.of_running_nil, ?_⟩
  · obtain ⟨c, hc⟩ := resolve_called h.tracked id
    exact ⟨c, hc.calls_eq, hc.running_iff⟩
  · exact ⟨h.running_iff hn, h.hit_ended hn, h.registrations_eq hn, h.answersTo_eq hn⟩
  · obtain ⟨ws, hw, hnodup, hmem⟩ := h.waiters_of_running hf
    refine ⟨ws, Cache.waiters?_eq_some_iff.1 hw, hnodup, hmem, ?_⟩
    rw [finish_of_mem hf hw]
    exact ⟨rfl, rfl⟩
  · intro es' hes d'
    exact SameButDropped.agree (hes ▸ hstays es') (hstays es)

end Desk

end LedgerExplorer
