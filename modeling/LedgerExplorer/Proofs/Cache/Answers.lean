import LedgerExplorer.Proofs.Cache.Delivery

/-!
# Whose answer it is

What a caller is told of an id is what one fetch of that id ended with: the last one that had been
started when the call was made. What the cache remembers of an id is what its latest fetch ended with
(`Desk.Truthful`). So a caller that meets an entry and one that waits for a fetch are told the same as
a caller that fetches for itself, however small the cache is.
-/

namespace LedgerExplorer

/-- An answer is an entity exactly if the fetch ended with that entity. -/
theorem answerOf_eq_some_iff {E : Type} {o : FetchOutcome E} {v : E} :
    answerOf o = some v ↔ o = some (.ok (some v)) := by
  unfold answerOf
  split <;> simp_all

theorem eq_answerOf_iff {E : Type} {o : FetchOutcome E} {a : Option E} :
    a = answerOf o ↔ ∀ v, a = some v ↔ o = some (.ok (some v)) := by
  simp only [← answerOf_eq_some_iff, ← Option.ext_iff]

namespace Cache

variable {E : Type} {c : Cache E} {id : String} {v : E}

theorem get?_eq_some_iff_resolved :
    c.get? id = some v ↔ ∃ t, c.slots.get? id = some (.resolved v t) := by
  unfold get?
  cases h : c.slots.get? id with
  | none => simp
  | some s => cases s <;> simp [Slot.entity?]

theorem mem_snapshot_iff : (id, v) ∈ c.snapshot ↔ c.get? id = some v := by
  constructor
  · intro hmem
    obtain ⟨⟨k, s⟩, hs, hv⟩ := List.mem_filterMap.1 hmem
    obtain ⟨x, hx, heq⟩ := Option.map_eq_some_iff.1 hv
    cases heq
    rw [get?, Dict.mem_entries.1 hs]
    exact hx
  · intro hget
    obtain ⟨s, hs, hv⟩ := Option.bind_eq_some_iff.1 hget
    exact List.mem_filterMap.2 ⟨(id, s), Dict.mem_entries.2 hs, by simp [hv]⟩

end Cache

namespace Desk

variable {E : Type} {outcome : Fetch → FetchOutcome E} {d : Desk E} {id : String}

/-- Every answer is that of the fetch that its call was for, and every entry that of the latest fetch
of its id. -/
structure Truthful (outcome : Fetch → FetchOutcome E) (d : Desk E) : Prop where
  answered : ∀ {n : Nat} {a : Option E}, (n, a) ∈ d.answered →
    ∃ c, d.calls[n]? = some c ∧ a = answerOf (outcome c.fetch)
  stored : ∀ {id : String} {a : Option E}, d.cache.answer? id = some a →
    a = answerOf (outcome (d.latest id))

theorem opened_truthful (namespaceName : String) (bound : Option UInt64) (directory : Directory E) :
    (opened namespaceName bound directory).Truthful outcome where
  answered h := by cases h
  stored h := by simp [opened, Cache.answer?] at h

/-- More calls leave the answers to the earlier ones true. -/
theorem Truthful.answered_concat (h : d.Truthful outcome) (c : Inquiry) {n : Nat} {a : Option E}
    (hmem : (n, a) ∈ d.answered) :
    ∃ c', (d.calls ++ [c])[n]? = some c' ∧ a = answerOf (outcome c'.fetch) := by
  obtain ⟨c', hn, ha⟩ := h.answered hmem
  exact ⟨c', getElem?_concat_eq_some_iff.2 (.inl hn), ha⟩

theorem Truthful.resolve (h : d.Truthful outcome) (id : String) : (d.resolve id).Truthful outcome := by
  have hkept {id' : String} {a : Option E}
      (ha : (d.resolver.resolve d.calls.length id).2.cache.answer? id' = some a) :
      d.cache.answer? id' = some a := by
    rwa [Resolver.cache_resolve, Cache.answer?_lookup] at ha
  cases ha : d.cache.answer? id with
  | some a =>
    rw [resolve_of_answer? ha]
    refine ⟨fun {n b} hmem => ?_, fun hb => h.stored (hkept hb)⟩
    rcases List.mem_append.1 hmem with hold | hnew
    · exact h.answered_concat _ hold
    · cases List.mem_singleton.1 hnew
      exact ⟨⟨.hit, d.latest id⟩, by simp, h.stored ha⟩
  | none =>
    by_cases hw : d.cache.waiters? id = none
    · rw [resolve_of_absent ha hw]
      refine ⟨fun hmem => h.answered_concat _ hmem, fun {id' b} hb => ?_⟩
      -- The id whose fetch starts has no entry, so its latest fetch may change.
      have hne : id ≠ id' := by
        rintro rfl
        have hnone := hkept hb
        rw [ha] at hnone
        cases hnone
      simpa [latest, List.count_append, hne] using h.stored (hkept hb)
    · rw [resolve_of_waiters? (Option.isSome_iff_ne_none.2 hw)]
      exact ⟨fun hmem => h.answered_concat _ hmem, fun hb => h.stored (hkept hb)⟩

theorem Truthful.finish (h : d.Truthful outcome) (hd : d.Accounted) (f : Fetch) :
    (d.finish outcome f).Truthful outcome := by
  by_cases hf : f ∈ d.running
  · obtain ⟨ws, hw, -, hmem⟩ := hd.waiters_of_running hf
    rw [finish_of_mem hf hw]
    refine ⟨fun {n a} hn => ?_, fun {id a} ha => ?_⟩
    · rcases List.mem_append.1 hn with hold | hnew
      · exact h.answered hold
      · obtain ⟨m, hm, heq⟩ := List.mem_map.1 hnew
        cases heq
        obtain ⟨c, hc, rfl⟩ := (hmem n).1 (List.mem_filter.1 hm).1
        exact ⟨c, hc, rfl⟩
    · simp only [cache, Resolver.conclude_of_waiters? hw] at ha
      rcases Cache.answer?_of_store ha with ⟨rfl, rfl⟩ | hold
      · exact congrArg (answerOf ∘ outcome) (hd.tracked.eq_latest f hf)
      · exact h.stored hold
  · simpa [Desk.finish, hf] using h

theorem Truthful.step (h : d.Truthful outcome) (hd : d.Accounted) (e : Event) :
    (d.step outcome e).Truthful outcome := by
  cases e with
  | resolve id => exact h.resolve id
  | finish f => exact h.finish hd f
  | drop n =>
    simp only [Desk.step, Desk.drop]
    split
    · exact ⟨h.answered, h.stored⟩
    · exact h
  | invalidate id =>
    exact ⟨h.answered, fun ha => h.stored (Cache.answer?_of_invalidate ha)⟩
  | clear =>
    refine ⟨h.answered, fun {id a} ha => ?_⟩
    change d.cache.clear.answer? id = some a at ha
    simp at ha

theorem Truthful.run (h : d.Truthful outcome) (hd : d.Accounted) (es : List Event) :
    (d.run outcome es).Truthful outcome :=
  (run_induction (P := fun d => d.Accounted ∧ d.Truthful outcome) ⟨hd, h⟩
    (fun _ e hd => ⟨hd.1.step e, hd.2.step hd.1 e⟩) es).2

/-- A call is answered once its fetch has been published, with what the fetch ended with, unless it
was dropped. -/
theorem Truthful.mem_answered_iff (h : d.Truthful outcome) (hd : d.Accounted) {n : Nat} {c : Inquiry}
    (hn : d.calls[n]? = some c) (a : Option E) :
    (n, a) ∈ d.answered ↔
      c.fetch ∈ d.published ∧ n ∉ d.dropped ∧ a = answerOf (outcome c.fetch) := by
  have hmine {b : Option E} (hb : (n, b) ∈ d.answered) : b = answerOf (outcome c.fetch) := by
    obtain ⟨c', hc', hb'⟩ := h.answered hb
    cases hn.symm.trans hc'
    exact hb'
  have hcount := hd.answersTo_eq hn
  constructor
  · intro hmem
    have hpos : 0 < d.answersTo n := List.count_pos_iff.2 (List.mem_map_of_mem hmem)
    have hended : ¬(c.fetch ∈ d.running ∨ n ∈ d.dropped) := fun hwait => by
      rw [hcount, if_pos hwait] at hpos
      exact Nat.lt_irrefl 0 hpos
    rw [not_or, hd.running_iff hn, not_not] at hended
    exact ⟨hended.1, hended.2, hmine hmem⟩
  · rintro ⟨hended, hkept, rfl⟩
    have hwait : ¬(c.fetch ∈ d.running ∨ n ∈ d.dropped) := by
      simp [hd.running_iff hn, hended, hkept]
    rw [if_neg hwait] at hcount
    obtain ⟨⟨m, b⟩, hb, rfl⟩ :=
      List.mem_map.1 (List.count_pos_iff.1 (Nat.lt_of_lt_of_eq Nat.one_pos hcount.symm))
    exact hmine hb ▸ hb

/-- A call keeps its place on record. -/
theorem calls_prefix_run (outcome : Fetch → FetchOutcome E) (d : Desk E) (es : List Event) :
    d.calls <+: (d.run outcome es).calls := by
  refine run_induction (P := fun d' => d.calls <+: d'.calls) List.prefix_rfl (fun d' e h => ?_) es
  refine h.trans ?_
  cases e with
  | resolve id =>
    simp only [Desk.step, Desk.resolve]
    split <;> exact List.prefix_append _ _
  | finish f => exact (d'.calls_finish outcome f).symm ▸ List.prefix_rfl
  | drop n => exact (d'.calls_drop n).symm ▸ List.prefix_rfl
  | invalidate id => exact List.prefix_rfl
  | clear => exact List.prefix_rfl

/-- A call and everything after it: it is answered for the fetch that was the last of its id by the end
of its turn. -/
theorem Truthful.call_answered_iff (h : d.Truthful outcome) (hd : d.Accounted) (id : String)
    (es : List Event) (a : Option E) :
    (d.calls.length, a) ∈ ((d.resolve id).run outcome es).answered ↔
      (d.resolve id).latest id ∈ ((d.resolve id).run outcome es).published ∧
      d.calls.length ∉ ((d.resolve id).run outcome es).dropped ∧
      a = answerOf (outcome ((d.resolve id).latest id)) := by
  obtain ⟨c, hc⟩ := resolve_called hd.tracked id
  have hplace : (d.resolve id).calls[d.calls.length]? = some c := by simp [hc.calls_eq]
  have hn : ((d.resolve id).run outcome es).calls[d.calls.length]? = some c := by
    obtain ⟨later, hlater⟩ := calls_prefix_run outcome (d.resolve id) es
    rw [← hlater, List.getElem?_append_left (List.getElem?_eq_some_iff.1 hplace).1, hplace]
  rw [((h.resolve id).run (hd.resolve id) es).mem_answered_iff ((hd.resolve id).run es) hn, hc.fetch_eq]

/-- A call made when `k` fetches of its id have been started, one for itself included, is answered
when the `k`th has been published, and with what that one found; it does not matter how the call was
met, nor what becomes of the entry. What the cache shows of an id is what its latest fetch found. So
if the outcome of a fetch depends on the id alone, every answer is that of a fetch made for the call. -/
theorem answers_come_from_their_fetch (namespaceName : String) (bound : Option UInt64)
    (directory : Directory E) (outcome : Fetch → FetchOutcome E) (es : List Event) :
    let d := (opened namespaceName bound directory).run outcome es
    (∀ id es' a,
      let n := d.calls.length
      let k := (d.resolve id).started.count id
      let d' := (d.resolve id).run outcome es'
      (n, a) ∈ d'.answered ↔ ⟨id, k⟩ ∈ d'.published ∧ n ∉ d'.dropped ∧
        ∀ v, a = some v ↔ outcome ⟨id, k⟩ = some (.ok (some v))) ∧
    (∀ id v,
      (d.cache.get? id = some v ↔ ∃ t, d.cache.slots.get? id = some (.resolved v t)) ∧
      ((id, v) ∈ d.cache.snapshot ↔ d.cache.get? id = some v) ∧
      (d.cache.get? id = some v → outcome ⟨id, d.started.count id⟩ = some (.ok (some v)))) ∧
    ∀ f : String → FetchOutcome E, (∀ x, outcome x = f x.id) → ∀ id es' a,
      (d.calls.length, a) ∈ ((d.resolve id).run outcome es').answered → a = answerOf (f id) := by
  have hopened : (opened namespaceName bound directory).Accounted :=
    opened_accounted namespaceName bound directory
  intro d
  have hd : d.Accounted := hopened.run es
  have h : d.Truthful outcome := (opened_truthful namespaceName bound directory).run hopened es
  refine ⟨?_, ?_, ?_⟩
  · intro id es' a n k d'
    rw [← eq_answerOf_iff]
    exact h.call_answered_iff hd id es' a
  · intro id v
    refine ⟨Cache.get?_eq_some_iff_resolved, Cache.mem_snapshot_iff, fun hget => ?_⟩
    exact answerOf_eq_some_iff.1 (h.stored (Cache.get?_eq_some_iff.1 hget)).symm
  · intro f hf id es' a hmem
    have ha := ((h.call_answered_iff hd id es' a).1 hmem).2.2
    rwa [hf] at ha

end Desk

end LedgerExplorer
