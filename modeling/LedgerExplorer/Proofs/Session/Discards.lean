import LedgerExplorer.Proofs.Samples
import LedgerExplorer.Proofs.Session.Turns

/-!
# Pages thrown away

Every load that ends with its page thrown away is counted once under the reason for it, and nothing
else is (`Session.Tallied`).
-/

namespace LedgerExplorer

variable {R E : Type}

/-- What a load reports whose page is thrown away. -/
def StaleReason.outcome : StaleReason → LoadOutcome
  | .cancelled => .cancelled
  | .superseded => .superseded

/-- Whether a caller ends with its page thrown away for a reason. -/
def Result.isDiscard (reason : StaleReason) (r : Result R E) : Bool :=
  r.outcome? == some reason.outcome

theorem View.count_counters (o : Except Fault LoadOutcome) (reason : StaleReason) :
    (View.counters o).count (.stalePage reason) =
      ((Result.ofCompletion o : Result R E).isDiscard reason).toNat := by
  rcases o with f | o
  · rfl
  · cases o <;> cases reason <;> rfl

/-- The resolver throws no page away. -/
theorem Resolver.undiscarding_kept :
    Kept fun r : Resolver E => ∀ reason, Counter.stalePage reason ∉ r.log where
  resolve {r} h n id reason := by
    unfold resolve
    split <;> simpa using h reason
  conclude h id outcome reason := by
    simpa [conclude] using h reason
  invalidate h id := h
  clear h := h

namespace Session

variable {s t : Session R E} {n : Nat} {o : Option Guard}

/-- How many callers ended with their pages thrown away for a reason. -/
def discards (s : Session R E) (reason : StaleReason) : Nat :=
  s.finished.countP fun e => e.2.isDiscard reason

/-- The pages that were thrown away are counted. -/
def Tallied (s : Session R E) : Prop := ∀ reason, s.log.count (.stalePage reason) = s.discards reason

theorem discards_finish (s : Session R E) (n : Nat) (r : Result R E) (reason : StaleReason) :
    (s.finish n r).discards reason = s.discards reason + (r.isDiscard reason).toNat := by
  change (s.finished ++ [(n, r)]).countP _ = _
  rw [List.countP_append, List.countP_singleton]
  cases r.isDiscard reason <;> rfl

theorem Tallied.of_quiet (h : s.Tallied) (hquiet : Quiet s t) : t.Tallied := by
  intro reason
  obtain ⟨cs, hlog, hcs⟩ := hquiet.log
  rw [hlog, List.count_append, List.count_eq_zero_of_not_mem (hcs reason), discards, hquiet.finished]
  exact h reason

theorem Tallied.turn (h : s.Tallied) (hturn : Turn n o s t) : t.Tallied := by
  intro reason
  cases hturn with
  | wait _ _ => exact h reason
  | @finish r hr =>
    have hkept : r.isDiscard reason = false := by
      rw [Result.isDiscard, hr]
      rfl
    rw [discards_finish, hkept]
    exact h reason
  | @complete v g view _ _ r =>
    refine Eq.trans ?_ (discards_finish _ n _ reason).symm
    change (s.log ++ View.counters (view.complete g r).1).count _ = s.discards reason + _
    rw [List.count_append, h reason, View.count_counters]

theorem Tallied.handles (h : s.Tallied) (hhandles : Handles n o s t) : t.Tallied := by
  obtain ⟨s₁, hquiet, hturn⟩ := hhandles
  exact (h.of_quiet hquiet).turn hturn

theorem Tallied.turns (h : s.Tallied) (hturns : Turns s t) : t.Tallied := by
  induction hturns with
  | refl s => exact h
  | quiet hquiet _ ih => exact ih (h.of_quiet hquiet)
  | turn _ hturn _ ih => exact ih (h.turn hturn)

theorem Tallied.step (h : s.Tallied) (e : Event R) : (s.step e).Tallied := by
  have hchange := s.step_change e
  generalize s.step e = t at hchange ⊢
  cases hchange with
  | turns _ _ hturns => exact h.turns hturns
  | start _ _ hhandles => exact h.handles hhandles
  | load _ hhandles => exact Tallied.handles (s := s.begin _ _) h hhandles
  | openView | cancelView | dropView => exact h

theorem Tallied.run (h : s.Tallied) (es : List (Event R)) : (s.run es).Tallied :=
  List.foldlRecOn es _ h fun _ hs e _ => hs.step e

/-- In a session every page that is thrown away is counted under its reason, once. -/
theorem grown_stalePage (pager : Pager) (now : Instant)
    (cache : Option (Option UInt64 × Directory E)) (es : List (Event R)) (reason : StaleReason) :
    let s := (opened pager now cache : Session R E).run es
    Counter.grown s.counters (.stalePage reason) = s.discards reason := by
  intro s
  have htallied : s.Tallied := Tallied.run (fun _ => rfl) es
  have hresolver : ∀ r, s.resolver = some r → ∀ reason, Counter.stalePage reason ∉ r.log := by
    refine List.foldlRecOn (motive := fun t : Session R E => ∀ r, t.resolver = some r → _) es _ ?_
      fun t ht e _ => kept_step Resolver.undiscarding_kept ht e
    intro r hr
    obtain ⟨c, -, rfl⟩ := Option.map_eq_some_iff.1 hr
    exact fun reason => List.not_mem_nil
  rw [Counter.grown_eq_count, counters, List.count_append, htallied reason]
  cases hr : s.resolver with
  | none => rfl
  | some r =>
    change _ + r.log.count _ = _
    rw [List.count_eq_zero_of_not_mem (hresolver r hr reason), Nat.add_zero]

end Session

end LedgerExplorer
