import LedgerExplorer.Proofs.Session.Callers

/-!
# Requests

A caller sends its request when it starts, if at all. No other event makes it send one.
-/

namespace LedgerExplorer

/-- The path and the query of a call that a caller made for itself. -/
def Call.request? (n : Nat) : Call → Option (String × String)
  | .own m path query => if m = n then some (path, query) else none
  | .entity _ _ => none

namespace Session

variable {R E : Type} {s t u : Session R E} {n m : Nat}

/-- The requests that a caller sent for itself, in order. -/
def requests (s : Session R E) (n : Nat) : List (String × String) :=
  s.calls.filterMap (Call.request? n)

theorem calls_finishPage (s : Session R E) (m : Nat) (g : Guard) (r : Except Failure (Page R E)) :
    (s.finishPage m g r).calls = s.calls := by
  unfold finishPage
  split
  · rfl
  · split <;> rfl
  · rfl
  · rfl

theorem calls_settle (s : Session R E) (c : Caller R E) : (s.settle c).calls = s.calls := by
  unfold settle
  split
  · split
    · rfl
    · rfl
    · exact calls_finishPage _ _ _ _
    · rfl
    · rfl
  · rfl

theorem calls_ask (s : Session R E) (m : Nat) (job : Job R) (ids : List String) :
    (s.ask m job ids).calls = s.calls := calls_settle s _

/-- An id is called for only if it has no entry when it is looked up. -/
theorem calls_afterResolve (s : Session R E) (r : Resolver E) (n : Nat) (id : String) :
    (s.afterResolve r n id).calls = s.calls ++
      if r.cache.state? id = none then [.entity id (r.directory.path id)] else [] := by
  have hfound : callsFor (r.resolve n id).2.directory id (r.resolve n id).1 =
      if r.cache.state? id = none then [.entity id (r.directory.path id)] else [] := by
    rw [Resolver.directory_resolve, Resolver.resolve_fst]
    unfold Cache.lookup Cache.state?
    rcases r.cache.slots.get? id with _ | (_ | _ | _) <;> rfl
  exact congrArg (s.calls ++ ·) hfound

/-- The calls that a session makes on its way from one state to another are for entities, if there are
any. -/
def CallsEntities (s t : Session R E) : Prop :=
  ∃ calls, t.calls = s.calls ++ calls ∧
    ∀ call ∈ calls, ∃ directory id, s.directory? = some directory ∧
      call = .entity id (directory.path id)

theorem CallsEntities.of_calls_eq (h : t.calls = s.calls) : s.CallsEntities t :=
  ⟨[], h.trans (List.append_nil _).symm, fun _ => nofun⟩

theorem CallsEntities.trans (h : s.CallsEntities t) (h' : t.CallsEntities u)
    (hdirectory : t.directory? = s.directory?) : s.CallsEntities u := by
  obtain ⟨calls, hcalls, hentities⟩ := h
  obtain ⟨calls', hcalls', hentities'⟩ := h'
  refine ⟨calls ++ calls', by rw [hcalls', hcalls, List.append_assoc], fun call hcall => ?_⟩
  exact (List.mem_append.1 hcall).elim (hentities call) (hdirectory ▸ hentities' call)

theorem lookUp_callsEntities (s : Session R E) (c : Caller R E) : s.CallsEntities (s.lookUp c) := by
  obtain ⟨c', -, -, hidle | ⟨r, id, hr, hlookUp⟩⟩ := s.lookUp_cases c
  · rw [hidle]
    exact .of_calls_eq (calls_settle s _)
  · rw [hlookUp]
    refine ⟨_, (calls_settle _ _).trans (calls_afterResolve s r _ id), fun call hcall => ?_⟩
    split at hcall
    · exact ⟨r.directory, id, congrArg _ hr, List.mem_singleton.1 hcall⟩
    · cases hcall

theorem proceed_callsEntities (s : Session R E) (m : Nat) : s.CallsEntities (s.proceed m) := by
  unfold proceed
  split
  · exact .of_calls_eq rfl
  · split
    · exact .of_calls_eq rfl
    · exact s.lookUp_callsEntities _

/-- Callers that make lookups lead to calls for entities and to nothing else. -/
theorem run_lookUps_callsEntities (s : Session R E) {es : List (Event R)}
    (hes : ∀ e ∈ es, ∃ m, e = .lookUp m) : s.CallsEntities (s.run es) := by
  induction es generalizing s with
  | nil => exact .of_calls_eq rfl
  | cons e es ih =>
    obtain ⟨m, rfl⟩ := hes e List.mem_cons_self
    have hlater := ih (s.proceed m) fun e he => hes e (List.mem_cons_of_mem _ he)
    exact (s.proceed_callsEntities m).trans hlater (proceed_untouched s (Nat.succ_ne_self m)).directory

theorem lookUpAll_callsEntities (s : Session R E) : s.CallsEntities s.lookUpAll := by
  refine s.run_lookUps_callsEntities fun e he => ?_
  obtain ⟨c, -, hevent⟩ := List.mem_flatMap.1 he
  obtain ⟨id, -, rfl⟩ := List.mem_map.1 hevent
  exact ⟨c.number, rfl⟩

theorem calls_tell (id : String) (a : Option E) (s : Session R E) (m : Nat) :
    (tell id a s m).calls = s.calls := by
  unfold tell
  split
  · rfl
  · exact calls_settle _ _

theorem calls_learn (s : Session R E) (id : String) (reply : Reply) :
    (s.learn id reply).calls = s.calls := by
  unfold learn
  split
  · rfl
  · next r _ =>
    split
    · exact List.foldlRecOn (motive := fun t : Session R E => t.calls = s.calls) _ _ rfl
        fun t ht m _ => (calls_tell id _ t m).trans ht
    · rfl

theorem calls_receive (s : Session R E) (m : Nat) (reply : Reply) :
    (s.receive m reply).calls = s.calls := by
  unfold receive
  split
  · rfl
  · split
    · split
      · exact calls_finishPage _ _ _ _
      · exact calls_ask _ _ _ _
    · split <;> rfl
    · rfl
    · rfl
    · rfl

theorem requests_call (s : Session R E) (c : Call) (n : Nat) :
    (s.call c).requests n = s.requests n ++ (c.request? n).toList := by
  change (s.calls ++ [c]).filterMap _ = _
  rw [List.filterMap_append, requests]
  cases h : c.request? n <;> simp [h]

/-- Calls for entities are nobody's requests. -/
theorem CallsEntities.requests (h : s.CallsEntities t) (n : Nat) : t.requests n = s.requests n := by
  obtain ⟨calls, hcalls, hentities⟩ := h
  rw [Session.requests, hcalls, List.filterMap_append, Session.requests]
  refine List.append_right_eq_self.2 (List.filterMap_eq_nil_iff.2 fun call hcall => ?_)
  obtain ⟨r, id, -, rfl⟩ := hentities call hcall
  rfl

theorem requests_startPage (s : Session R E) (h : m ≠ n) (g : Guard) (rows : RowKind R)
    (q : PageQuery) : (s.startPage m g rows q).requests n = s.requests n := by
  unfold startPage
  split
  · exact congrArg _ (calls_finishPage _ _ _ _)
  · rw [requests_call, Call.request?, if_neg h]
    exact List.append_nil _

theorem requests_start (s : Session R E) (h : s.nextCaller ≠ n) (task : Task R) :
    (s.start task).requests n = s.requests n := by
  unfold start
  cases task with
  | resolve id => exact (lookUp_callsEntities _ _).requests n
  | resolveAll ids => exact congrArg _ (calls_ask _ _ _ _)
  | page q rows token => exact requests_startPage _ h _ _ _
  | load v q =>
    dsimp only
    split
    · rfl
    · exact requests_startPage _ h _ _ _
  | histogram request categories =>
    rw [requests_call, Call.request?, if_neg h]
    exact List.append_nil _

theorem requests_step (s : Session R E) {e : Event R}
    (h : n = s.nextCaller → ∀ task, e ≠ .start task) : (s.step e).requests n = s.requests n := by
  cases e with
  | start task => exact requests_start s (fun hn => h hn.symm task rfl) task
  | receive m reply => exact congrArg _ (calls_receive s m reply)
  | lookUp m => exact (s.proceed_callsEntities m).requests n
  | learn id reply => exact congrArg _ (calls_learn s id reply)
  | abort m =>
    simp only [step]
    split <;> rfl
  | fire | openView | cancelView | dropView | invalidate | clear => rfl

theorem requests_run (hn : n < s.nextCaller) (es : List (Event R)) :
    (s.run es).requests n = s.requests n := by
  induction es generalizing s with
  | nil => rfl
  | cons e es ih =>
    have hstep := requests_step s (e := e) fun heq => absurd hn (heq ▸ Nat.lt_irrefl _)
    exact (ih (Nat.lt_of_lt_of_le hn (s.nextCaller_step e))).trans hstep

theorem requests_run_eq_nil (h : ∀ m, s.nextCaller ≤ m → s.requests m = []) {es : List (Event R)}
    (hn : (s.run es).nextCaller ≤ n) : (s.run es).requests n = [] := by
  induction es generalizing s with
  | nil => exact h n hn
  | cons e es ih =>
    refine ih (fun m hm => ?_) hn
    rw [requests_step]
    · exact h m (Nat.le_trans (s.nextCaller_step e) hm)
    · rintro rfl task rfl
      exact Nat.not_succ_le_self _ (Nat.le_trans (start_untouched s task (Nat.succ_ne_self _)).next hm)

end Session

end LedgerExplorer
