import LedgerExplorer.Proofs.Cache.Slots

/-!
# Asking for ids

A caller that looks an id up learns the answer if the cache has it, and waits for it otherwise
(`Resolver.Awaits`). The end of a fetch tells exactly the callers that wait for its id.
-/

namespace LedgerExplorer

/-- How a lookup is met, by the state of the entry of its id. -/
def LookupResult.ofState : Option SlotState → LookupResult
  | none => .miss
  | some .pending => .coalesced
  | some .resolved | some .failed => .hit

/-- The answer of a lookup that is met by one. -/
def Lookup.answer? : Lookup E → Option (Option E)
  | .hit a => some a
  | .coalesced | .miss => none

namespace Resolver

variable {E : Type} {r : Resolver E} {id : String}

def Awaits (r : Resolver E) (n : Nat) (id : String) : Prop := ∃ ws ∈ r.cache.waiters? id, n ∈ ws

theorem awaits_of_waiters?_eq {r r' : Resolver E}
    (h : r'.cache.waiters? id = r.cache.waiters? id) (n : Nat) : r'.Awaits n id ↔ r.Awaits n id := by
  unfold Awaits
  rw [h]

theorem directory_resolve (r : Resolver E) (n : Nat) (id : String) :
    (r.resolve n id).2.directory = r.directory := by
  unfold resolve
  split <;> rfl

theorem answer?_resolve_fst (r : Resolver E) (n : Nat) (id : String) :
    (r.resolve n id).1.answer? = r.cache.answer? id := by
  rw [resolve_fst, Cache.lookup_fst]
  cases r.cache.answer? id with
  | some a => rfl
  | none =>
    dsimp only
    split <;> rfl

theorem awaits_resolve (r : Resolver E) (n m : Nat) (id id' : String) :
    (r.resolve m id).2.Awaits n id' ↔
      r.Awaits n id' ∨ n = m ∧ id' = id ∧ r.cache.answer? id = none := by
  unfold Awaits
  rw [cache_resolve, Cache.waiters?_lookup]
  by_cases hnew : id' = id ∧ r.cache.answer? id = none
  · obtain ⟨rfl, hanswer⟩ := hnew
    rw [if_pos ⟨rfl, hanswer⟩]
    cases hw : r.cache.waiters? id' <;> simp [hanswer]
  · rw [if_neg hnew]
    simp [hnew]

/-- A lookup is counted by how it is met. -/
theorem log_resolve (r : Resolver E) (n : Nat) (id : String) :
    (r.resolve n id).2.log =
      r.log ++ [.lookup r.cache.namespaceName (.ofState (r.cache.state? id))] := by
  unfold resolve Cache.lookup Cache.state?
  rcases r.cache.slots.get? id with _ | (_ | _ | _) <;> rfl

/-! ## The end of a fetch -/

theorem mem_conclude_fst (r : Resolver E) (n : Nat) (id : String) (o : FetchOutcome E) :
    n ∈ (r.conclude id o).1 ↔ r.Awaits n id := by
  change n ∈ (r.cache.publish id (answerOf o)).1 ↔ _
  unfold Cache.publish Awaits Cache.waiters?
  cases h : r.cache.slots.get? id with
  | none => simp
  | some s => cases s <;> simp

theorem awaits_conclude (r : Resolver E) (n : Nat) (id id' : String) (o : FetchOutcome E) :
    (r.conclude id o).2.2.Awaits n id' ↔ id' ≠ id ∧ r.Awaits n id' := by
  change (∃ ws ∈ (r.cache.publish id (answerOf o)).2.waiters? id', n ∈ ws) ↔ _
  rw [Cache.waiters?_publish]
  by_cases hid : id' = id <;> simp [hid, Awaits]

end Resolver

end LedgerExplorer
