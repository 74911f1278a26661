import LedgerExplorer.Proofs.Cache.SingleFlight
import LedgerExplorer.Session.Setup

/-!
# The lookups of a session

Whatever a session does for its callers, its resolver changes only by looking ids up, by the end of a
lookup and by being told to forget. So a session has one lookup under way for every pending id of its
cache, however pages, histograms and callers that are aborted come between.
-/

namespace LedgerExplorer

variable {R E : Type}

namespace Resolver

/-- A property that a resolver keeps when ids are looked up, when a lookup ends and when it is told
to forget. -/
structure Kept (P : Resolver E → Prop) : Prop where
  resolve : ∀ {r}, P r → ∀ n id, P (r.resolve n id).2
  conclude : ∀ {r}, P r → ∀ id outcome, P (r.conclude id outcome).2.2
  invalidate : ∀ {r}, P r → ∀ id, P (r.invalidate id)
  clear : ∀ {r}, P r → P r.clear

theorem singleFlight_kept : Kept (SingleFlight (E := E)) where
  resolve h n id := h.resolve n id
  conclude h id outcome := h.conclude id outcome
  invalidate h id := h.invalidate id
  clear h := h.clear

end Resolver

namespace Session

variable {s : Session R E}

@[simp] theorem resolver_put (s : Session R E) (c : Caller R E) : (s.put c).resolver = s.resolver :=
  rfl

@[simp] theorem resolver_call (s : Session R E) (c : Call) : (s.call c).resolver = s.resolver := rfl

@[simp] theorem resolver_count (s : Session R E) (cs : List Counter) :
    (s.count cs).resolver = s.resolver := rfl

@[simp] theorem resolver_finish (s : Session R E) (n : Nat) (r : Result R E) :
    (s.finish n r).resolver = s.resolver := rfl

@[simp] theorem resolver_finishPage (s : Session R E) (n : Nat) (g : Guard)
    (r : Except Failure (Page R E)) : (s.finishPage n g r).resolver = s.resolver := by
  unfold finishPage
  split
  · rfl
  · split <;> rfl
  · rfl
  · rfl

@[simp] theorem resolver_settle (s : Session R E) (c : Caller R E) :
    (s.settle c).resolver = s.resolver := by
  unfold settle
  split
  · split <;> simp
  · rfl

@[simp] theorem resolver_startPage (s : Session R E) (n : Nat) (g : Guard) (rows : RowKind R)
    (q : PageQuery) : (s.startPage n g rows q).resolver = s.resolver := by
  unfold startPage
  split <;> simp

@[simp] theorem resolver_ask (s : Session R E) (n : Nat) (job : Job R) (ids : List String) :
    (s.ask n job ids).resolver = s.resolver := resolver_settle s _

/-- A lookup is made of the first id that is still to be looked up. -/
theorem resolver_lookUp (s : Session R E) (c : Caller R E) :
    (s.lookUp c).resolver = match c.unasked with
      | [] => s.resolver
      | id :: _ => s.resolver.map fun r => (r.resolve c.number id).2 := by
  unfold lookUp
  cases hr : s.resolver with
  | none => cases c.unasked <;> simp [hr]
  | some r => cases c.unasked <;> simp [hr]

theorem resolver_tell (id : String) (a : Option E) (s : Session R E) (n : Nat) :
    (tell id a s n).resolver = s.resolver := by
  unfold tell
  split <;> simp

theorem resolver_foldl_tell (id : String) (a : Option E) (s : Session R E) (ns : List Nat) :
    (ns.foldl (tell id a) s).resolver = s.resolver := by
  induction ns generalizing s with
  | nil => rfl
  | cons n ns ih => rw [List.foldl_cons, ih, resolver_tell]

section Kept

variable {P : Resolver E → Prop}

theorem kept_map (h : ∀ r, s.resolver = some r → P r) {t : Session R E}
    {f : Resolver E → Resolver E} (ht : t.resolver = s.resolver.map f) (hf : ∀ r, P r → P (f r)) :
    ∀ r, t.resolver = some r → P r := by
  intro r hr
  obtain ⟨r', hr', rfl⟩ := Option.map_eq_some_iff.1 (ht ▸ hr)
  exact hf r' (h r' hr')

theorem kept_lookUp (hP : Resolver.Kept P) (h : ∀ r, s.resolver = some r → P r) (c : Caller R E) :
    ∀ r, (s.lookUp c).resolver = some r → P r := by
  have hlookUp := s.resolver_lookUp c
  cases hids : c.unasked with
  | nil =>
    rw [hids] at hlookUp
    rwa [hlookUp]
  | cons id ids =>
    rw [hids] at hlookUp
    exact kept_map h hlookUp fun _ hr => hP.resolve hr c.number id

theorem kept_start (hP : Resolver.Kept P) (h : ∀ r, s.resolver = some r → P r) (t : Task R) :
    ∀ r, (s.start t).resolver = some r → P r := by
  have hnext : ∀ r, ({ s with nextCaller := s.nextCaller + 1 }).resolver = some r → P r := h
  unfold start
  cases t with
  | resolve id => exact kept_lookUp hP hnext _
  | resolveAll ids =>
    intro r hr
    rw [resolver_ask] at hr
    exact h r hr
  | page q rows token =>
    intro r hr
    rw [resolver_startPage] at hr
    exact h r hr
  | load v q =>
    intro r hr
    dsimp only at hr
    split at hr
    · exact h r hr
    · rw [resolver_startPage] at hr
      exact h r hr
  | histogram request categories => exact h

@[simp] theorem resolver_receive (s : Session R E) (n : Nat) (reply : Reply) :
    (s.receive n reply).resolver = s.resolver := by
  unfold receive
  split
  · rfl
  · split
    · split <;> simp
    · split <;> simp
    · rfl
    · rfl
    · rfl

theorem kept_proceed (hP : Resolver.Kept P) (h : ∀ r, s.resolver = some r → P r) (n : Nat) :
    ∀ r, (s.proceed n).resolver = some r → P r := by
  unfold proceed
  split
  · exact h
  · split
    · exact h
    · exact kept_lookUp hP h _

theorem kept_learn (hP : Resolver.Kept P) (h : ∀ r, s.resolver = some r → P r) (id : String)
    (reply : Reply) : ∀ r, (s.learn id reply).resolver = some r → P r := by
  unfold learn
  split
  · exact h
  · next r hr =>
    split
    · intro r' hr'
      rw [resolver_foldl_tell] at hr'
      cases hr'
      exact hP.conclude (h r hr) id (r.directory.read id reply)
    · exact h

/-- What a resolver keeps, the resolver of a session keeps in every step. -/
theorem kept_step (hP : Resolver.Kept P) (h : ∀ r, s.resolver = some r → P r) (e : Event R) :
    ∀ r, (s.step e).resolver = some r → P r := by
  cases e with
  | start t => exact kept_start hP h t
  | receive n reply =>
    intro r hr
    exact h r (s.resolver_receive n reply ▸ hr)
  | lookUp n => exact kept_proceed hP h n
  | learn id reply => exact kept_learn hP h id reply
  | abort n =>
    simp only [step]
    split <;> exact h
  | fire | openView | cancelView | dropView => exact h
  | invalidate id => exact kept_map h rfl fun _ hr => hP.invalidate hr id
  | clear => exact kept_map h rfl fun _ hr => hP.clear hr

theorem kept_run (hP : Resolver.Kept P) (h : ∀ r, s.resolver = some r → P r) (es : List (Event R)) :
    ∀ r, (s.run es).resolver = some r → P r :=
  List.foldlRecOn (motive := fun s : Session R E => ∀ r, s.resolver = some r → P r) es step h
    fun _ hs e _ => kept_step hP hs e

end Kept

/-- The lookups under way are those of the pending ids, one for each. -/
def SingleFlight (s : Session R E) : Prop := ∀ r, s.resolver = some r → r.SingleFlight

theorem SingleFlight.step (h : s.SingleFlight) (e : Event R) : (s.step e).SingleFlight :=
  kept_step Resolver.singleFlight_kept h e

theorem SingleFlight.run (h : s.SingleFlight) (es : List (Event R)) : (s.run es).SingleFlight :=
  kept_run Resolver.singleFlight_kept h es

end Session

end LedgerExplorer
