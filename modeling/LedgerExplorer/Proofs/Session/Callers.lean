import LedgerExplorer.Proofs.Cache.Inquiries
import LedgerExplorer.Proofs.Session.Lookups

/-!
# Callers side by side

What a session does for one caller leaves every other caller alone (`Session.Untouched`): an event only
matters to the caller that it starts, replies to, lets go on or aborts, and to the callers that wait for
the id whose lookup it ends.
-/

namespace LedgerExplorer

variable {R E : Type}

namespace Caller

@[simp] theorem number_meet (c : Caller R E) (id : String) (found : Lookup E) :
    (c.meet id found).number = c.number := by
  cases found <;> rfl

@[simp] theorem job_meet (c : Caller R E) (id : String) (found : Lookup E) :
    (c.meet id found).job = c.job := by
  cases found <;> rfl

end Caller

namespace Session

variable {s t u : Session R E} {n m : Nat}

/-- What a caller is at, if it runs. -/
def caller? (s : Session R E) (n : Nat) : Option (Caller R E) := s.callers.find? (·.number == n)

/-- What a caller ended with. -/
def results (s : Session R E) (n : Nat) : List (Result R E) :=
  s.finished.filterMap fun e => if e.1 = n then some e.2 else none

def Awaits (s : Session R E) (n : Nat) (id : String) : Prop := ∃ r ∈ s.resolver, r.Awaits n id

theorem awaits_iff {r : Resolver E} (hr : s.resolver = some r) {id : String} :
    s.Awaits n id ↔ r.Awaits n id := by
  simp only [Session.Awaits, hr, Option.mem_some_iff, exists_eq_left']

def directory? (s : Session R E) : Option (Directory E) := s.resolver.map Resolver.directory

/-- Nothing that concerns a caller is different; other callers may have started and ended. -/
structure Untouched (n : Nat) (s t : Session R E) : Prop where
  caller : t.caller? n = s.caller? n
  results : t.results n = s.results n
  awaits : ∀ id, t.Awaits n id ↔ s.Awaits n id
  directory : t.directory? = s.directory?
  fired : t.fired = s.fired
  setting : t.pager = s.pager ∧ t.now = s.now
  next : s.nextCaller ≤ t.nextCaller

theorem Untouched.refl (n : Nat) (s : Session R E) : Untouched n s s :=
  ⟨rfl, rfl, fun _ => Iff.rfl, rfl, rfl, ⟨rfl, rfl⟩, Nat.le_refl _⟩

theorem Untouched.trans (h : Untouched n s t) (h' : Untouched n t u) : Untouched n s u where
  caller := h'.caller.trans h.caller
  results := h'.results.trans h.results
  awaits id := (h'.awaits id).trans (h.awaits id)
  directory := h'.directory.trans h.directory
  fired := h'.fired.trans h.fired
  setting := ⟨h'.setting.1.trans h.setting.1, h'.setting.2.trans h.setting.2⟩
  next := Nat.le_trans h.next h'.next

/-- Views, calls and counters concern no caller. -/
theorem Untouched.of_eq (hcallers : t.callers = s.callers) (hfinished : t.finished = s.finished)
    (hresolver : t.resolver = s.resolver) (hfired : t.fired = s.fired)
    (hsetting : t.pager = s.pager ∧ t.now = s.now) (hnext : t.nextCaller = s.nextCaller) :
    Untouched n s t := by
  constructor
  · unfold caller?
    rw [hcallers]
  · unfold Session.results
    rw [hfinished]
  · intro id
    unfold Session.Awaits
    rw [hresolver]
  · unfold directory?
    rw [hresolver]
  · exact hfired
  · exact hsetting
  · exact Nat.le_of_eq hnext.symm

theorem number_of_caller? {c : Caller R E} (h : s.caller? n = some c) : c.number = n := by
  simpa using List.find?_some h

/-! ## A caller goes on or ends -/

theorem find?_others (cs : List (Caller R E)) (n m : Nat) :
    (cs.filter (·.number != m)).find? (·.number == n) =
      if n = m then none else cs.find? (·.number == n) := by
  rw [List.find?_filter]
  by_cases hnm : n = m
  · subst hnm
    rw [if_pos rfl, List.find?_eq_none]
    simp
  · rw [if_neg hnm]
    congr 1
    funext c
    by_cases hc : c.number = n <;> simp [hc, hnm]

theorem caller?_put (s : Session R E) (c : Caller R E) (n : Nat) :
    (s.put c).caller? n = if n = c.number then some c else s.caller? n := by
  unfold put caller?
  rw [List.find?_append, find?_others]
  by_cases hn : n = c.number
  · simp [hn]
  · have hc : ¬ c.number = n := fun h => hn h.symm
    simp [hn, hc]

theorem caller?_finish (s : Session R E) (m : Nat) (r : Result R E) (n : Nat) :
    (s.finish m r).caller? n = if n = m then none else s.caller? n := find?_others s.callers n m

theorem mem_callers_put {s : Session R E} {c c' : Caller R E} :
    c' ∈ (s.put c).callers ↔ (c' ∈ s.callers ∧ c'.number ≠ c.number) ∨ c' = c := by
  change c' ∈ s.callers.filter (·.number != c.number) ++ [c] ↔ _
  rw [List.mem_append, List.mem_filter, bne_iff_ne, List.mem_singleton]

theorem mem_callers_finish {s : Session R E} {m : Nat} {r : Result R E} {c : Caller R E} :
    c ∈ (s.finish m r).callers ↔ c ∈ s.callers ∧ c.number ≠ m := by
  change c ∈ s.callers.filter (·.number != m) ↔ _
  rw [List.mem_filter, bne_iff_ne]

theorem results_finish (s : Session R E) (m : Nat) (r : Result R E) (n : Nat) :
    (s.finish m r).results n = if n = m then s.results n ++ [r] else s.results n := by
  change (s.finished ++ [(m, r)]).filterMap _ = _
  rw [List.filterMap_append]
  by_cases hn : m = n
  · subst hn
    simp [Session.results]
  · have hnm : ¬ n = m := fun h => hn h.symm
    simp [Session.results, hn, hnm]

/-! ## What leaves a caller alone -/

theorem put_untouched (s : Session R E) {c : Caller R E} (h : n ≠ c.number) :
    Untouched n s (s.put c) where
  caller := by rw [caller?_put, if_neg h]
  results := rfl
  awaits _ := Iff.rfl
  directory := rfl
  fired := rfl
  setting := ⟨rfl, rfl⟩
  next := Nat.le_refl _

theorem put_call_untouched (s : Session R E) {c : Caller R E} (call : Call) (h : n ≠ c.number) :
    Untouched n s ((s.put c).call call) :=
  (put_untouched s h).trans (.of_eq rfl rfl rfl rfl ⟨rfl, rfl⟩ rfl)

theorem finish_untouched (s : Session R E) (r : Result R E) (h : n ≠ m) :
    Untouched n s (s.finish m r) where
  caller := by rw [caller?_finish, if_neg h]
  results := by rw [results_finish, if_neg h]
  awaits _ := Iff.rfl
  directory := rfl
  fired := rfl
  setting := ⟨rfl, rfl⟩
  next := Nat.le_refl _

theorem finishPage_untouched (s : Session R E) (g : Guard) (r : Except Failure (Page R E))
    (h : n ≠ m) : Untouched n s (s.finishPage m g r) := by
  unfold finishPage
  split
  · exact finish_untouched s _ h
  · split
    · exact finish_untouched s _ h
    · apply Untouched.trans _ (finish_untouched _ _ h)
      exact .of_eq rfl rfl rfl rfl ⟨rfl, rfl⟩ rfl
  · exact finish_untouched s _ h
  · exact finish_untouched s _ h

theorem settle_untouched (s : Session R E) {c : Caller R E} (h : n ≠ c.number) :
    Untouched n s (s.settle c) := by
  unfold settle
  split
  · split
    · exact finish_untouched s _ h
    · exact finish_untouched s _ h
    · apply Untouched.trans _ (finishPage_untouched _ _ _ h)
      exact .of_eq rfl rfl rfl rfl ⟨rfl, rfl⟩ rfl
    · exact put_untouched s h
    · exact put_untouched s h
  · exact put_untouched s h

theorem ask_untouched (s : Session R E) (job : Job R) (ids : List String) (h : n ≠ m) :
    Untouched n s (s.ask m job ids) := settle_untouched s h

/-- A lookup of an id, with the calls that it leads to. -/
def afterResolve (s : Session R E) (r : Resolver E) (n : Nat) (id : String) : Session R E :=
  { s with
    resolver := some (r.resolve n id).2
    calls := s.calls ++ callsFor (r.resolve n id).2.directory id (r.resolve n id).1 }

theorem lookUp_cons {c : Caller R E} {r : Resolver E} {id : String} {rest : List String}
    (hr : s.resolver = some r) (hids : c.unasked = id :: rest) :
    s.lookUp c = (s.afterResolve r c.number id).settle
      ({ c with unasked := rest }.meet id (r.resolve c.number id).1) := by
  unfold lookUp
  rw [hr, hids]
  rfl

theorem lookUp_idle {c : Caller R E} (h : s.resolver = none ∨ c.unasked = []) :
    s.lookUp c = s.settle { c with unasked := [] } := by
  unfold lookUp
  split
  · next hr hids =>
    rcases h with hnone | hnil
    · cases hnone.symm.trans hr
    · cases hnil.symm.trans hids
  · rfl

/-- A lookup settles its caller, after the cache was asked if there is one and anything is left to be
asked for. -/
theorem lookUp_cases (s : Session R E) (c : Caller R E) :
    ∃ c' : Caller R E, c'.number = c.number ∧ c'.job = c.job ∧
      (s.lookUp c = s.settle c' ∨ ∃ r id, s.resolver = some r ∧
        s.lookUp c = (s.afterResolve r c.number id).settle c') := by
  cases hr : s.resolver with
  | none => exact ⟨{ c with unasked := [] }, rfl, rfl, .inl (lookUp_idle (.inl hr))⟩
  | some r =>
    cases hids : c.unasked with
    | nil => exact ⟨{ c with unasked := [] }, rfl, rfl, .inl (lookUp_idle (.inr hids))⟩
    | cons id rest =>
      exact ⟨{ c with unasked := rest }.meet id (r.resolve c.number id).1, Caller.number_meet _ id _,
        Caller.job_meet _ id _, .inr ⟨r, id, rfl, lookUp_cons hr hids⟩⟩

theorem awaits_afterResolve {r : Resolver E} (hr : s.resolver = some r) (m : Nat) (id id' : String) :
    (s.afterResolve r m id).Awaits n id' ↔
      s.Awaits n id' ∨ n = m ∧ id' = id ∧ r.cache.answer? id = none := by
  rw [awaits_iff hr, awaits_iff rfl, Resolver.awaits_resolve]

theorem directory?_afterResolve {r : Resolver E} (hr : s.resolver = some r) (m : Nat)
    (id : String) : (s.afterResolve r m id).directory? = s.directory? := by
  simp only [directory?, afterResolve, hr, Option.map_some, Resolver.directory_resolve]

theorem lookUp_untouched (s : Session R E) {c : Caller R E} (h : n ≠ c.number) :
    Untouched n s (s.lookUp c) := by
  obtain ⟨c', hnumber, -, hidle | ⟨r, id, hr, hlookUp⟩⟩ := s.lookUp_cases c
  · rw [hidle]
    exact settle_untouched s (hnumber ▸ h)
  · rw [hlookUp]
    refine Untouched.trans ?_ (settle_untouched _ (hnumber ▸ h))
    exact {
      caller := rfl
      results := rfl
      awaits := fun id' => by rw [awaits_afterResolve hr, or_iff_left fun hasked => h hasked.1]
      directory := directory?_afterResolve hr c.number id
      fired := rfl
      setting := ⟨rfl, rfl⟩
      next := Nat.le_refl _ }

theorem startPage_untouched (s : Session R E) (g : Guard) (rows : RowKind R) (q : PageQuery)
    (h : n ≠ m) : Untouched n s (s.startPage m g rows q) := by
  unfold startPage
  split
  · exact finishPage_untouched s g _ h
  · exact put_call_untouched s _ h

theorem tell_of_caller? {c : Caller R E} (h : s.caller? n = some c) (id : String) (a : Option E) :
    tell id a s n = s.settle { c with
      answers := c.answers.insert id a
      missing := c.missing.filter (· != id) } := by
  unfold tell
  rw [show s.callers.find? (·.number == n) = some c from h]

theorem tell_of_caller?_eq_none (h : s.caller? n = none) (id : String) (a : Option E) :
    tell id a s n = s := by
  unfold tell
  rw [show s.callers.find? (·.number == n) = none from h]

theorem tell_untouched (s : Session R E) (id : String) (a : Option E) (h : n ≠ m) :
    Untouched n s (tell id a s m) := by
  cases hc : s.caller? m with
  | none =>
    rw [tell_of_caller?_eq_none hc]
    exact .refl n s
  | some c =>
    rw [tell_of_caller? hc]
    exact settle_untouched s (number_of_caller? hc ▸ h)

theorem foldl_tell_untouched (s : Session R E) (id : String) (a : Option E) {ns : List Nat}
    (h : n ∉ ns) : Untouched n s (ns.foldl (tell id a) s) := by
  induction ns generalizing s with
  | nil => exact .refl n s
  | cons m ns ih =>
    rw [List.mem_cons, not_or] at h
    exact (tell_untouched s id a h.1).trans (ih _ h.2)

theorem proceed_of_caller? {c : Caller R E} (h : s.caller? n = some c) :
    s.proceed n = if c.unasked.isEmpty then s else s.lookUp c := by
  unfold proceed
  rw [show s.callers.find? (·.number == n) = some c from h]

theorem proceed_of_caller?_eq_none (h : s.caller? n = none) : s.proceed n = s := by
  unfold proceed
  rw [show s.callers.find? (·.number == n) = none from h]

theorem proceed_untouched (s : Session R E) (h : n ≠ m) : Untouched n s (s.proceed m) := by
  cases hc : s.caller? m with
  | none =>
    rw [proceed_of_caller?_eq_none hc]
    exact .refl n s
  | some c =>
    rw [proceed_of_caller? hc]
    split
    · exact .refl n s
    · exact lookUp_untouched s (number_of_caller? hc ▸ h)

theorem start_untouched (s : Session R E) (task : Task R) (h : n ≠ s.nextCaller) :
    Untouched n { s with nextCaller := s.nextCaller + 1 } (s.start task) := by
  unfold start
  cases task with
  | resolve id => exact lookUp_untouched _ h
  | resolveAll ids => exact ask_untouched _ _ _ h
  | page q rows token => exact startPage_untouched _ _ _ _ h
  | load v q =>
    dsimp only
    split
    · exact finish_untouched _ _ h
    · apply Untouched.trans _ (startPage_untouched _ _ _ _ h)
      exact .of_eq rfl rfl rfl rfl ⟨rfl, rfl⟩ rfl
  | histogram request categories =>
    exact put_call_untouched _ _ h

theorem receive_untouched (s : Session R E) (reply : Reply) (h : n ≠ m) :
    Untouched n s (s.receive m reply) := by
  unfold receive
  split
  · exact .refl n s
  · split
    · split
      · apply Untouched.trans _ (finishPage_untouched _ _ _ h)
        exact .of_eq rfl rfl rfl rfl ⟨rfl, rfl⟩ rfl
      · exact ask_untouched _ _ _ h
    · split
      · exact finish_untouched _ _ h
      · apply Untouched.trans _ (finish_untouched _ _ h)
        exact .of_eq rfl rfl rfl rfl ⟨rfl, rfl⟩ rfl
    · exact .refl n s
    · exact .refl n s
    · exact .refl n s

/-- The end of a lookup matters to those who wait for it. -/
theorem learn_untouched (s : Session R E) (id : String) (reply : Reply) (h : ¬ s.Awaits n id) :
    Untouched n s (s.learn id reply) := by
  unfold learn
  split
  · exact .refl n s
  · next r hr =>
    split
    · rw [awaits_iff hr] at h
      have hnot : n ∉ (r.finish id reply).1 := (r.mem_conclude_fst n id _).not.2 h
      refine Untouched.trans ?_ (foldl_tell_untouched _ id _ hnot)
      constructor
      · rfl
      · rfl
      · intro id'
        rw [awaits_iff hr, awaits_iff rfl]
        refine (Resolver.awaits_conclude r n id id' _).trans (and_iff_right_of_imp ?_)
        rintro hawaits rfl
        exact h hawaits
      · simp only [directory?, hr, Option.map_some]
      · rfl
      · exact ⟨rfl, rfl⟩
      · exact Nat.le_refl _
    · exact .refl n s

theorem awaits_map {f : Resolver E → Resolver E}
    (hf : ∀ r id, (f r).cache.waiters? id = r.cache.waiters? id) (n : Nat) (id : String) :
    ({ s with resolver := s.resolver.map f } : Session R E).Awaits n id ↔ s.Awaits n id := by
  unfold Session.Awaits
  cases s.resolver with
  | none => rfl
  | some r =>
    simp only [Option.map_some, Option.mem_some_iff, exists_eq_left']
    exact Resolver.awaits_of_waiters?_eq (hf r id) n

theorem directory?_map {f : Resolver E → Resolver E} (hf : ∀ r, (f r).directory = r.directory) :
    ({ s with resolver := s.resolver.map f } : Session R E).directory? = s.directory? := by
  unfold directory?
  cases s.resolver with
  | none => rfl
  | some r => exact congrArg some (hf r)

/-- The events that matter to a caller. That a token fires matters to all. -/
def Event.Concerns (s : Session R E) (n : Nat) : Event R → Prop
  | .start _ => n = s.nextCaller
  | .receive m _ | .lookUp m | .abort m => m = n ∧ (s.caller? n).isSome
  | .learn id _ => s.Awaits n id
  | .fire _ => True
  | _ => False

theorem step_untouched (s : Session R E) {e : Event R} (h : ¬ e.Concerns s n) :
    Untouched n s (s.step e) := by
  cases e with
  | start task =>
    obtain ⟨hcaller, hresults, hawaits, hdirectory, hfired, hsetting, hnext⟩ :=
      start_untouched s task h
    exact ⟨hcaller, hresults, hawaits, hdirectory, hfired, hsetting, Nat.le_of_succ_le hnext⟩
  | receive m reply =>
    by_cases hm : m = n
    · subst hm
      have hnone : s.callers.find? (·.number == m) = none :=
        Option.not_isSome_iff_eq_none.1 fun hsome => h ⟨rfl, hsome⟩
      simp only [step, receive, hnone]
      exact .refl m s
    · exact receive_untouched s reply (Ne.symm hm)
  | lookUp m =>
    by_cases hm : m = n
    · subst hm
      rw [step, proceed_of_caller?_eq_none]
      · exact .refl m s
      · exact Option.not_isSome_iff_eq_none.1 fun hsome => h ⟨rfl, hsome⟩
    · exact proceed_untouched s (Ne.symm hm)
  | learn id reply => exact learn_untouched s id reply h
  | abort m =>
    simp only [step]
    split
    · next hrunning =>
      refine finish_untouched s _ ?_
      rintro rfl
      refine h ⟨rfl, ?_⟩
      obtain ⟨c, hc, hnumber⟩ := List.any_eq_true.1 hrunning
      exact List.find?_isSome.2 ⟨c, hc, hnumber⟩
    · exact .refl n s
  | fire token => exact absurd trivial h
  | openView rows => exact .of_eq rfl rfl rfl rfl ⟨rfl, rfl⟩ rfl
  | cancelView v => exact .of_eq rfl rfl rfl rfl ⟨rfl, rfl⟩ rfl
  | dropView v => exact .of_eq rfl rfl rfl rfl ⟨rfl, rfl⟩ rfl
  | invalidate id =>
    refine ⟨rfl, rfl, fun id' => ?_, ?_, rfl, ⟨rfl, rfl⟩, Nat.le_refl _⟩
    · exact awaits_map (fun r id' => r.cache.waiters?_invalidate id id') n id'
    · exact directory?_map fun r => rfl
  | clear =>
    refine ⟨rfl, rfl, fun id => ?_, ?_, rfl, ⟨rfl, rfl⟩, Nat.le_refl _⟩
    · exact awaits_map (fun r id => r.cache.waiters?_clear id) n id
    · exact directory?_map fun r => rfl

/-- What matters to a caller that has started. -/
theorem Event.Concerns.cases {e : Event R} (h : e.Concerns s n) (hnext : n < s.nextCaller) :
    (∃ reply, e = .receive n reply ∧ (s.caller? n).isSome) ∨
      (e = .lookUp n ∧ (s.caller? n).isSome) ∨ (e = .abort n ∧ (s.caller? n).isSome) ∨
      (∃ id reply, e = .learn id reply ∧ s.Awaits n id) ∨ ∃ token, e = .fire token := by
  cases e with
  | start task => exact absurd hnext (h ▸ Nat.lt_irrefl _)
  | receive m reply =>
    obtain ⟨rfl, hrunning⟩ := h
    exact .inl ⟨reply, rfl, hrunning⟩
  | lookUp m =>
    obtain ⟨rfl, hrunning⟩ := h
    exact .inr (.inl ⟨rfl, hrunning⟩)
  | abort m =>
    obtain ⟨rfl, hrunning⟩ := h
    exact .inr (.inr (.inl ⟨rfl, hrunning⟩))
  | learn id reply => exact .inr (.inr (.inr (.inl ⟨id, reply, rfl, h⟩)))
  | fire token => exact .inr (.inr (.inr (.inr ⟨token, rfl⟩)))
  | openView | cancelView | dropView | invalidate | clear => exact h.elim

/-! ## Callers that have not started -/

/-- Nothing is known of the callers that have not got a number yet. -/
def Numbered (s : Session R E) : Prop :=
  ∀ n, s.nextCaller ≤ n → s.caller? n = none ∧ s.results n = [] ∧ ∀ id, ¬ s.Awaits n id

theorem nextCaller_foldl_tell (s : Session R E) (id : String) (a : Option E) (ns : List Nat) :
    s.nextCaller ≤ (ns.foldl (tell id a) s).nextCaller := by
  induction ns generalizing s with
  | nil => exact Nat.le_refl _
  | cons m ns ih => exact Nat.le_trans (tell_untouched s id a (Nat.succ_ne_self m)).next (ih _)

theorem nextCaller_step (s : Session R E) (e : Event R) : s.nextCaller ≤ (s.step e).nextCaller := by
  cases e with
  | start task => exact Nat.le_of_succ_le (start_untouched s task (Nat.succ_ne_self _)).next
  | receive m reply => exact (receive_untouched s reply (Nat.succ_ne_self m)).next
  | lookUp m => exact (proceed_untouched s (Nat.succ_ne_self m)).next
  | learn id reply =>
    simp only [step, learn]
    split
    · exact Nat.le_refl _
    · next r _ =>
      split
      · exact nextCaller_foldl_tell { s with resolver := some (r.finish id reply).2.2 } id _ _
      · exact Nat.le_refl _
  | abort m =>
    simp only [step]
    split
    · exact Nat.le_refl _
    · exact Nat.le_refl _
  | fire | openView | cancelView | dropView | invalidate | clear => exact Nat.le_refl _

/-- An event that is not a token's does not matter to the callers that have no number after it. -/
theorem Numbered.untouched (h : s.Numbered) (e : Event R) :
    (∃ token, e = .fire token) ∨ ∀ n, (s.step e).nextCaller ≤ n → Untouched n s (s.step e) := by
  by_cases he : ∃ token, e = .fire token
  · exact .inl he
  refine .inr fun n hn => s.step_untouched fun hconcerns => ?_
  obtain ⟨hcaller, -, hawaits⟩ := h n (Nat.le_trans (s.nextCaller_step e) hn)
  cases e with
  | start task =>
    have hlater := (start_untouched s task (Nat.succ_ne_self _)).next
    exact absurd (Nat.le_trans hlater hn) (hconcerns ▸ Nat.not_succ_le_self _)
  | receive | lookUp | abort => exact Option.isSome_iff_ne_none.1 hconcerns.2 hcaller
  | learn id reply => exact hawaits id hconcerns
  | fire token => exact he ⟨token, rfl⟩
  | openView | cancelView | dropView | invalidate | clear => exact hconcerns

theorem Numbered.step (h : s.Numbered) (e : Event R) : (s.step e).Numbered := by
  intro n hn
  obtain ⟨hcaller, hresults, hawaits⟩ := h n (Nat.le_trans (s.nextCaller_step e) hn)
  rcases h.untouched e with ⟨token, rfl⟩ | hsame
  · exact ⟨hcaller, hresults, hawaits⟩
  · rw [(hsame n hn).caller, (hsame n hn).results]
    exact ⟨hcaller, hresults, fun id => ((hsame n hn).awaits id).not.2 (hawaits id)⟩

theorem Numbered.run (h : s.Numbered) (es : List (Event R)) : (s.run es).Numbered :=
  List.foldlRecOn es _ h fun _ hs e _ => hs.step e

theorem Numbered.setting_step (h : s.Numbered) (e : Event R) :
    (s.step e).pager = s.pager ∧ (s.step e).now = s.now ∧ (s.step e).directory? = s.directory? := by
  rcases h.untouched e with ⟨token, rfl⟩ | hsame
  · exact ⟨rfl, rfl, rfl⟩
  · obtain ⟨-, -, -, hdirectory, -, ⟨hpager, hnow⟩, -⟩ := hsame _ (Nat.le_refl _)
    exact ⟨hpager, hnow, hdirectory⟩

theorem Numbered.setting_run (h : s.Numbered) (es : List (Event R)) :
    (s.run es).pager = s.pager ∧ (s.run es).now = s.now ∧ (s.run es).directory? = s.directory? := by
  induction es generalizing s with
  | nil => exact ⟨rfl, rfl, rfl⟩
  | cons e es ih =>
    obtain ⟨hpager, hnow, hdirectory⟩ := ih (h.step e)
    obtain ⟨hpager', hnow', hdirectory'⟩ := h.setting_step e
    exact ⟨hpager.trans hpager', hnow.trans hnow', hdirectory.trans hdirectory'⟩

theorem Numbered.uncached_run (h : s.Numbered) (hresolver : s.resolver = none)
    (es : List (Event R)) : (s.run es).resolver = none := by
  have hdirectory := (h.setting_run es).2.2
  rw [directory?, directory?, hresolver] at hdirectory
  exact Option.map_eq_none_iff.1 hdirectory

theorem Numbered.not_fired_step (h : s.Numbered) {token : String} (htoken : token ∉ s.fired)
    {e : Event R} (he : e ≠ .fire token) : token ∉ (s.step e).fired := by
  rcases h.untouched e with ⟨other, rfl⟩ | hsame
  · exact List.not_mem_cons_of_ne_of_not_mem (fun heq => he (congrArg _ heq.symm)) htoken
  · rwa [(hsame _ (Nat.le_refl _)).fired]

theorem Numbered.not_fired_run (h : s.Numbered) {token : String} (htoken : token ∉ s.fired)
    {es : List (Event R)} (hes : .fire token ∉ es) : token ∉ (s.run es).fired := by
  induction es generalizing s with
  | nil => exact htoken
  | cons e es ih =>
    rw [List.mem_cons, not_or] at hes
    exact ih (h.step e) (h.not_fired_step htoken (Ne.symm hes.1)) hes.2

/-- A session without callers, with an empty cache if its pages come with entities. -/
def opened (pager : Pager) (now : Instant) (cache : Option (Option UInt64 × Directory E)) :
    Session R E :=
  { ofPager pager now with
    resolver := cache.map fun c => {
      cache := { namespaceName := pager.namespaceName, bound := c.1 }
      directory := c.2 } }

theorem opened_numbered (pager : Pager) (now : Instant)
    (cache : Option (Option UInt64 × Directory E)) :
    (opened pager now cache : Session R E).Numbered := by
  refine fun n _ => ⟨rfl, rfl, ?_⟩
  rintro id ⟨r, hr, ws, hws, -⟩
  obtain ⟨c, -, rfl⟩ := Option.map_eq_some_iff.1 hr
  cases hws

theorem opened_singleFlight (pager : Pager) (now : Instant)
    (cache : Option (Option UInt64 × Directory E)) :
    (opened pager now cache : Session R E).SingleFlight := by
  intro r hr
  obtain ⟨c, -, rfl⟩ := Option.map_eq_some_iff.1 hr
  exact Resolver.empty_singleFlight _ _ _

end Session

end LedgerExplorer
