import LedgerExplorer.Proofs.Session.Views

/-!
# Turns of callers

What a session does for a caller ends with a turn of that caller: the caller waits on, or it ends, or
its view completes its load (`Session.Turn`). An event lets callers that run take turns, or gives the
first turn to the caller that it starts; whatever else it does concerns no caller (`Session.Change`).
-/

namespace LedgerExplorer

variable {R E : Type}

/-- The guard of the page that a job is after. -/
def Job.guard? : Job R → Option Guard
  | .page _ g | .rows _ g _ => some g
  | _ => none

/-- Such a job waits for the body of its page or for the answers to its references. -/
theorem Job.page_or_rows {job : Job R} {g : Guard} (h : job.guard? = some g) :
    (∃ fetch, job = .page fetch g) ∨ ∃ fetch body, job = .rows fetch g body := by
  cases job with
  | page fetch g' =>
    cases h
    exact .inl ⟨fetch, rfl⟩
  | rows fetch g' body =>
    cases h
    exact .inr ⟨fetch, body, rfl⟩
  | resolve | resolveAll | histogram => cases h

theorem Job.view?_of_guard? {job : Job R} {v : Nat} {g : UInt64} (h : job.guard? = some (.view v g)) :
    job.view? = some v := by
  rcases Job.page_or_rows h with ⟨fetch, rfl⟩ | ⟨fetch, body, rfl⟩
  · rfl
  · rfl

/-- What a caller reports of the load of a view. -/
def Result.outcome? : Result R E → Option LoadOutcome
  | .load o => some o
  | _ => none

/-- What a caller ends with when its view has completed its load. -/
def Result.ofCompletion : Except Fault LoadOutcome → Result R E
  | .ok o => .load o
  | .error f => .failed (.fault f)

theorem PageFetch.stalePage_not_mem_counters (fetch : PageFetch R) (r : Except Failure (Page R E))
    (reason : StaleReason) : Counter.stalePage reason ∉ fetch.counters r := by
  rcases r with ((_ | _ | _ | _ | _) | _) | _ <;> simp [counters]

namespace Session

variable {s s₁ t u : Session R E} {n m : Nat} {o : Option Guard}

/-- The guard of the page that a caller is after, if it runs. -/
def guard? (s : Session R E) (n : Nat) : Option Guard := (s.caller? n).bind fun c => c.job.guard?

theorem guard?_put (s : Session R E) (c : Caller R E) (n : Nat) :
    (s.put c).guard? n = if n = c.number then c.job.guard? else s.guard? n := by
  rw [guard?, caller?_put]
  split
  · rfl
  · rfl

theorem isHeld_of_guard? {v : Nat} {g : UInt64} (h : s.guard? n = some (.view v g)) : s.isHeld v := by
  obtain ⟨c, hc, hguard⟩ := Option.bind_eq_some_iff.1 h
  exact isHeld_iff.2 ⟨c, List.mem_of_find?_eq_some hc, Job.view?_of_guard? hguard⟩

/-! ## Turns -/

/-- Callers and views are the same, and no page was thrown away. -/
structure Quiet (s t : Session R E) : Prop where
  callers : t.callers = s.callers
  views : t.views = s.views
  finished : t.finished = s.finished
  log : ∃ cs, t.log = s.log ++ cs ∧ ∀ reason, Counter.stalePage reason ∉ cs

theorem Quiet.of_eq (hcallers : t.callers = s.callers) (hviews : t.views = s.views)
    (hfinished : t.finished = s.finished) (hlog : t.log = s.log) : Quiet s t :=
  ⟨hcallers, hviews, hfinished, [], by rw [hlog, List.append_nil], fun _ => List.not_mem_nil⟩

theorem Quiet.refl (s : Session R E) : Quiet s s := .of_eq rfl rfl rfl rfl

theorem Quiet.count (s : Session R E) {cs : List Counter}
    (h : ∀ reason, Counter.stalePage reason ∉ cs) : Quiet s (s.count cs) :=
  ⟨rfl, rfl, rfl, cs, rfl, h⟩

theorem Quiet.trans (h : Quiet s t) (h' : Quiet t u) : Quiet s u := by
  obtain ⟨cs, hlog, hcs⟩ := h.log
  obtain ⟨cs', hlog', hcs'⟩ := h'.log
  refine ⟨h'.callers.trans h.callers, h'.views.trans h.views, h'.finished.trans h.finished,
    cs ++ cs', ?_, fun reason hmem => ?_⟩
  · rw [hlog', hlog, List.append_assoc]
  · exact (List.mem_append.1 hmem).elim (hcs reason) (hcs' reason)

theorem Quiet.caller? (h : Quiet s t) (n : Nat) : t.caller? n = s.caller? n := by
  rw [Session.caller?, h.callers, Session.caller?]

theorem Quiet.guard? (h : Quiet s t) (n : Nat) : t.guard? n = s.guard? n := by
  rw [Session.guard?, h.caller?, Session.guard?]

theorem Quiet.results (h : Quiet s t) (n : Nat) : t.results n = s.results n := by
  rw [Session.results, h.finished, Session.results]

/-- A view completes the load of a caller. -/
def complete (s : Session R E) (n v : Nat) (g : UInt64) (view : View R E)
    (r : Except Fault (Page R E)) : Session R E :=
  ({ s with views := s.views.set v (view.complete g r).2 }.count
    (View.counters (view.complete g r).1)).finish n (.ofCompletion (view.complete g r).1)

/-- A caller with a guard waits on, or it ends, or its view completes its load. -/
inductive Turn (n : Nat) (o : Option Guard) (s : Session R E) : Session R E → Prop
  | wait {c : Caller R E} (hn : c.number = n) (ho : c.job.guard? = o) : Turn n o s (s.put c)
  | finish {r : Result R E} (hr : r.outcome? = none) : Turn n o s (s.finish n r)
  | complete {v : Nat} {g : UInt64} {view : View R E} (ho : o = some (.view v g))
      (hview : s.views[v]? = some view) (r : Except Fault (Page R E)) :
      Turn n o s (s.complete n v g view r)

/-- What a session does for a caller: all that is not quiet is one turn. -/
def Handles (n : Nat) (o : Option Guard) (s t : Session R E) : Prop :=
  ∃ s₁, Quiet s s₁ ∧ Turn n o s₁ t

theorem Quiet.handles (hquiet : Quiet s s₁) (h : Handles n o s₁ t) : Handles n o s t := by
  obtain ⟨s₂, hquiet', hturn⟩ := h
  exact ⟨s₂, hquiet.trans hquiet', hturn⟩

theorem Turn.handles (h : Turn n o s t) : Handles n o s t := ⟨s, .refl s, h⟩

/-- Running callers take turns. -/
inductive Turns : Session R E → Session R E → Prop
  | refl (s : Session R E) : Turns s s
  | quiet {s s₁ t : Session R E} (h : Quiet s s₁) (hs : Turns s₁ t) : Turns s t
  | turn {s s₁ t : Session R E} {n : Nat} (hrunning : (s.caller? n).isSome)
      (h : Turn n (s.guard? n) s s₁) (hs : Turns s₁ t) : Turns s t

theorem Handles.turns (hrunning : (s.caller? n).isSome) (h : Handles n (s.guard? n) s t) :
    Turns s t := by
  obtain ⟨s₁, hquiet, hturn⟩ := h
  refine .quiet hquiet (.turn (n := n) ?_ ?_ (.refl t))
  · rwa [hquiet.caller?]
  · rwa [hquiet.guard?]

theorem Turns.trans (h : Turns s t) (h' : Turns t u) : Turns s u := by
  induction h with
  | refl s => exact h'
  | quiet hquiet _ ih => exact .quiet hquiet (ih h')
  | turn hrunning hturn _ ih => exact .turn hrunning hturn (ih h')

/-! ## What a session does for a caller -/

theorem finishPage_view {v : Nat} {g : UInt64} {view : View R E}
    (hview : s.views[v]? = some view) (n : Nat) {r : Except Failure (Page R E)} (hr : ∀ c, r ≠ .error (.crash c)) :
    ∃ r' : Except Fault (Page R E), r = r'.mapError .fault ∧
      s.finishPage n (.view v g) r = s.complete n v g view r' := by
  rcases r with (f | c) | page
  · refine ⟨.error f, rfl, ?_⟩
    simp only [finishPage, hview]
    rfl
  · exact absurd rfl (hr c)
  · refine ⟨.ok page, rfl, ?_⟩
    simp only [finishPage, hview]
    rfl

theorem finishPage_turn (s : Session R E) (n : Nat) (g : Guard) (r : Except Failure (Page R E)) :
    Turn n (some g) s (s.finishPage n g r) := by
  by_cases hcrash : ∃ c, r = .error (.crash c)
  · obtain ⟨c, rfl⟩ := hcrash
    cases g <;> exact .finish rfl
  · cases g with
    | unguarded | token => rcases r with (_ | _) | _ <;> exact .finish rfl
    | view v g =>
      cases hview : s.views[v]? with
      | none =>
        have hend : s.finishPage n (.view v g) r = s.finish n .aborted := by
          rcases r with (f | c) | page
          · simp only [finishPage, hview]
          · exact absurd ⟨c, rfl⟩ hcrash
          · simp only [finishPage, hview]
        rw [hend]
        exact .finish rfl
      | some view =>
        obtain ⟨r', -, hend⟩ := finishPage_view hview n (g := g) (not_exists.1 hcrash)
        rw [hend]
        exact .complete rfl hview r'

theorem settle_handles (s : Session R E) {c : Caller R E} (hn : c.number = n)
    (ho : c.job.guard? = o) : Handles n o s (s.settle c) := by
  subst hn ho
  unfold settle
  split
  · cases hjob : c.job with
    | resolve id => exact (Turn.finish rfl).handles
    | resolveAll => exact (Turn.finish rfl).handles
    | rows fetch g page =>
      exact ⟨_, .count s (fetch.stalePage_not_mem_counters _), finishPage_turn _ _ _ _⟩
    | page fetch g => exact (Turn.wait rfl (congrArg Job.guard? hjob)).handles
    | histogram path categories => exact (Turn.wait rfl (congrArg Job.guard? hjob)).handles
  · exact (Turn.wait rfl rfl).handles

theorem ask_handles (s : Session R E) (n : Nat) (job : Job R) (ho : job.guard? = o)
    (ids : List String) : Handles n o s (s.ask n job ids) := settle_handles s rfl ho

theorem lookUp_handles (s : Session R E) {c : Caller R E} (hn : c.number = n)
    (ho : c.job.guard? = o) : Handles n o s (s.lookUp c) := by
  obtain ⟨c', hnumber, hjob, hidle | ⟨r, id, -, hlookUp⟩⟩ := s.lookUp_cases c
  · rw [hidle]
    exact settle_handles s (hnumber.trans hn) (hjob ▸ ho)
  · rw [hlookUp]
    refine Quiet.handles ?_ (settle_handles _ (hnumber.trans hn) (hjob ▸ ho))
    exact .of_eq rfl rfl rfl rfl

theorem startPage_handles (s : Session R E) (n : Nat) (g : Guard) (rows : RowKind R)
    (q : PageQuery) : Handles n (some g) s (s.startPage n g rows q) := by
  unfold startPage
  split
  · exact (finishPage_turn s n g _).handles
  · next fetch _ =>
    exact ⟨s.call (.own n fetch.request.path fetch.request.query), .of_eq rfl rfl rfl rfl,
      .wait (c := { number := n, job := .page fetch g }) rfl rfl⟩

theorem guard?_of_caller? {c : Caller R E} (h : s.caller? n = some c) :
    s.guard? n = c.job.guard? := by
  rw [guard?, h, Option.bind_some]

theorem receive_turns (s : Session R E) (n : Nat) (reply : Reply) : Turns s (s.receive n reply) := by
  unfold receive
  split
  · exact .refl s
  · next c hc =>
    have hrunning : (s.caller? n).isSome := Option.isSome_iff_exists.2 ⟨c, hc⟩
    have hguard : s.guard? n = c.job.guard? := guard?_of_caller? hc
    split
    · next fetch g hjob =>
      rw [hjob] at hguard
      split
      · refine Handles.turns hrunning (hguard ▸ ⟨_, .count s ?_, finishPage_turn _ n g _⟩)
        exact fetch.stalePage_not_mem_counters _
      · exact Handles.turns hrunning (hguard ▸ ask_handles s n (.rows fetch g _) rfl _)
    · next path categories _ =>
      split
      · exact Handles.turns hrunning (Turn.finish rfl).handles
      · refine Handles.turns hrunning ⟨_, .count s fun reason hmem => ?_, .finish rfl⟩
        cases List.eq_of_mem_replicate hmem
    · exact .refl s
    · exact .refl s
    · exact .refl s

theorem proceed_turns (s : Session R E) (n : Nat) : Turns s (s.proceed n) := by
  cases hc : s.caller? n with
  | none =>
    rw [proceed_of_caller?_eq_none hc]
    exact .refl s
  | some c =>
    rw [proceed_of_caller? hc]
    split
    · exact .refl s
    · apply Handles.turns (n := n) (hc ▸ rfl)
      exact lookUp_handles s (number_of_caller? hc) (guard?_of_caller? hc).symm

theorem tell_turns (s : Session R E) (id : String) (a : Option E) (n : Nat) :
    Turns s (tell id a s n) := by
  cases hc : s.caller? n with
  | none =>
    rw [tell_of_caller?_eq_none hc]
    exact .refl s
  | some c =>
    rw [tell_of_caller? hc]
    apply Handles.turns (n := n) (hc ▸ rfl)
    have hnumber := number_of_caller? hc
    exact settle_handles s hnumber (guard?_of_caller? hc).symm

theorem foldl_tell_turns (s : Session R E) (id : String) (a : Option E) (ns : List Nat) :
    Turns s (ns.foldl (tell id a) s) := by
  induction ns generalizing s with
  | nil => exact .refl s
  | cons n ns ih => exact (tell_turns s id a n).trans (ih _)

theorem learn_turns (s : Session R E) (id : String) (reply : Reply) :
    Turns s (s.learn id reply) := by
  unfold learn
  split
  · exact .refl s
  · split
    · refine .quiet ?_ (foldl_tell_turns _ id _ _)
      exact .of_eq rfl rfl rfl rfl
    · exact .refl s

/-! ## What an event changes -/

/-- A load of a view starts. -/
def begin (s : Session R E) (v : Nat) (view : View R E) : Session R E :=
  { s with views := s.views.set v view.begin.2 }

/-- Whether an event starts a load of a view. -/
def Event.begins (v : Nat) : Event R → Bool
  | .start (.load v' _) => v' == v
  | _ => false

/-- Whether an event cancels a view. -/
def Event.cancels (v : Nat) : Event R → Bool
  | .cancelView v' => v' == v
  | _ => false

/-- What an event changes for callers and views. -/
inductive Change (s : Session R E) : Event R → Session R E → Prop
  | turns {e : Event R} {t : Session R E} (hbegins : ∀ v, e.begins v = false)
      (hcancels : ∀ v, e.cancels v = false) (h : Turns s t) : Change s e t
  | start {task : Task R} {t : Session R E} {o : Option Guard} (ho : ∀ v g, o ≠ some (.view v g))
      (hviews : ∀ v q, task = .load v q → s.views[v]? = none) (h : Handles s.nextCaller o s t) :
      Change s (.start task) t
  | load {v : Nat} {q : PageQuery} {view : View R E} {t : Session R E}
      (hview : s.views[v]? = some view)
      (h : Handles s.nextCaller (some (.view v (view.latest + 1))) (s.begin v view) t) :
      Change s (.start (.load v q)) t
  | openView (rows : RowKind R) : Change s (.openView rows) (s.step (.openView rows))
  | cancelView (v : Nat) : Change s (.cancelView v) (s.step (.cancelView v))
  | dropView (v : Nat) : Change s (.dropView v) (s.step (.dropView v))

theorem start_change (s : Session R E) (task : Task R) : Change s (.start task) (s.start task) := by
  have hnext : Quiet s { s with nextCaller := s.nextCaller + 1 } := .of_eq rfl rfl rfl rfl
  cases task with
  | resolve id =>
    exact .start (o := none) nofun nofun (hnext.handles (lookUp_handles _ rfl rfl))
  | resolveAll ids =>
    exact .start (o := none) nofun nofun (hnext.handles (ask_handles _ _ .resolveAll rfl _))
  | page q rows token =>
    refine .start ?_ nofun (hnext.handles (startPage_handles _ _ _ rows q))
    cases token <;> exact nofun
  | load v q =>
    unfold start
    dsimp only
    split
    · next hview =>
      refine .start (o := none) nofun (fun v' q' heq => ?_) ⟨_, hnext, .finish rfl⟩
      cases heq
      exact hview
    · next view hview =>
      refine .load hview (Quiet.handles ?_ (startPage_handles _ _ _ _ q))
      exact .of_eq rfl rfl rfl rfl
  | histogram request categories =>
    let request' := { request with namespaceName := s.pager.namespaceName }
    let called := s.call (.own s.nextCaller request'.path request'.query)
    refine .start (o := none) nofun nofun ⟨{ called with nextCaller := s.nextCaller + 1 }, ?_, ?_⟩
    · exact .of_eq rfl rfl rfl rfl
    · exact .wait (c := { number := s.nextCaller, job := .histogram request'.path categories }) rfl rfl

theorem step_change (s : Session R E) (e : Event R) : Change s e (s.step e) := by
  have hquiet {t : Session R E} (h : Quiet s t) : Turns s t := .quiet h (.refl t)
  cases e with
  | start task => exact s.start_change task
  | receive n reply => exact .turns (fun _ => rfl) (fun _ => rfl) (s.receive_turns n reply)
  | lookUp n => exact .turns (fun _ => rfl) (fun _ => rfl) (s.proceed_turns n)
  | learn id reply => exact .turns (fun _ => rfl) (fun _ => rfl) (s.learn_turns id reply)
  | abort n =>
    simp only [step]
    split
    · next hrunning =>
      rw [isRunning, List.any_eq_true] at hrunning
      obtain ⟨c, hc, hnumber⟩ := hrunning
      have hfound : (s.caller? n).isSome := List.find?_isSome.2 ⟨c, hc, hnumber⟩
      exact .turns (fun _ => rfl) (fun _ => rfl) (.turn hfound (.finish rfl) (.refl _))
    · exact .turns (fun _ => rfl) (fun _ => rfl) (.refl s)
  | openView rows => exact .openView rows
  | cancelView v => exact .cancelView v
  | dropView v => exact .dropView v
  | fire | invalidate | clear =>
    exact .turns (fun _ => rfl) (fun _ => rfl) (hquiet (.of_eq rfl rfl rfl rfl))

end Session

end LedgerExplorer
