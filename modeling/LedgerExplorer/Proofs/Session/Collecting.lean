import LedgerExplorer.Proofs.Page.References
import LedgerExplorer.Proofs.Session.Answers
import Mathlib.Logic.Function.Basic

/-!
# Collecting answers

A caller that asks for ids, for itself or because the records of its page refer to them, looks them up
and waits for their answers (`Errand`). Each of its lookups and each lookup that ends may add an answer
to those that it has (`Session.Attends`, `Caller.Carries`). With the last one the caller ends with what
it makes of them (`Session.Ended`), whatever else happens in the session.
-/

namespace LedgerExplorer

variable {R E : Type}

/-- The guard of a page that is asked for with a token. -/
def Guard.ofToken : Option String → Guard
  | some name => .token name
  | none => .unguarded

/-- A job whose caller waits for answers to ids and not for a reply of its own. -/
def Job.Asking : Job R → Prop
  | .resolve _ | .resolveAll | .rows _ _ _ => True
  | .page _ _ | .histogram _ _ => False

namespace Session

variable {s t : Session R E} {n : Nat}

/-- A token that has fired cancels the fetches that it guards, and nothing else does. -/
theorem isCancelled_ofToken (s : Session R E) (token : Option String) :
    s.isCancelled (.ofToken token) = token.any s.fired.contains := by
  cases token <;> rfl

theorem isCancelled_of_unfired {token : Option String} (h : ∀ name ∈ token, name ∉ s.fired) :
    s.isCancelled (.ofToken token) = false := by
  cases token with
  | none => rfl
  | some name => simpa [isCancelled_ofToken] using h name rfl

/-- A reply is of no use to a caller that waits for answers. -/
theorem receive_of_asking {c : Caller R E} (hc : s.caller? n = some c) (hjob : c.job.Asking)
    (reply : Reply) : s.receive n reply = s := by
  unfold receive
  rw [show s.callers.find? (·.number == n) = some c from hc]
  dsimp only
  split
  · next hpage => exact (hpage ▸ hjob : Job.Asking (.page _ _)).elim
  · next hhistogram => exact (hhistogram ▸ hjob : Job.Asking (.histogram _ _)).elim
  · rfl
  · rfl
  · rfl

theorem receive_of_rows {c : Caller R E} (hc : s.caller? n = some c) {fetch : PageFetch R}
    {g : Guard} {page : RawPage R} (hjob : c.job = .rows fetch g page) (reply : Reply) :
    s.receive n reply = s :=
  receive_of_asking hc (hjob ▸ trivial) reply

/-- A caller waits on if there is anything that it still has to look up or that is missing. -/
theorem settle_eq_put (s : Session R E) {c : Caller R E} (h : ¬(c.unasked = [] ∧ c.missing = [])) :
    s.settle c = s.put c := by
  unfold settle
  refine if_neg ?_
  rwa [Bool.and_eq_true, List.isEmpty_iff, List.isEmpty_iff]

/-! ## Callers that have started or ended -/

/-- A caller has its number and no result yet, and it waits for no answer. -/
structure Idle (s : Session R E) (n : Nat) : Prop where
  next : n < s.nextCaller
  results : s.results n = []
  awaits : ∀ id, ¬ s.Awaits n id

theorem Idle.of_untouched (h : s.Idle n) (hsame : Untouched n s t) : t.Idle n where
  next := Nat.lt_of_lt_of_le h.next hsame.next
  results := hsame.results.trans h.results
  awaits id := (hsame.awaits id).not.2 (h.awaits id)

theorem Numbered.idle (h : s.Numbered) :
    ({ s with nextCaller := s.nextCaller + 1 } : Session R E).Idle s.nextCaller :=
  have ⟨_, hresults, hawaits⟩ := h s.nextCaller (Nat.le_refl _)
  ⟨Nat.lt_succ_self _, hresults, hawaits⟩

/-- A caller ended with one result, and nothing will be told to it any more. -/
structure Ended (s : Session R E) (n : Nat) (r : Result R E) : Prop where
  next : n < s.nextCaller
  caller : s.caller? n = none
  results : s.results n = [r]
  awaits : ∀ id, ¬ s.Awaits n id

theorem Idle.finish (h : s.Idle n) (r : Result R E) : (s.finish n r).Ended n r where
  next := h.next
  caller := by rw [caller?_finish, if_pos rfl]
  results := by rw [results_finish, if_pos rfl, h.results, List.nil_append]
  awaits := h.awaits

theorem Idle.count (h : s.Idle n) (cs : List Counter) : (s.count cs).Idle n :=
  ⟨h.next, h.results, h.awaits⟩

theorem Ended.mem_results {r : Result R E} (h : s.Ended n r) : r ∈ s.results n :=
  h.results ▸ List.mem_singleton_self r

theorem Ended.of_untouched {r : Result R E} (h : s.Ended n r) (hsame : Untouched n s t) :
    t.Ended n r where
  next := Nat.lt_of_lt_of_le h.next hsame.next
  caller := hsame.caller.trans h.caller
  results := hsame.results.trans h.results
  awaits id := (hsame.awaits id).not.2 (h.awaits id)

theorem Ended.step {r : Result R E} (h : s.Ended n r) (e : Event R) : (s.step e).Ended n r := by
  by_cases hconcerns : e.Concerns s n
  · rcases hconcerns.cases h.next with
      ⟨reply, -, hrunning⟩ | ⟨-, hrunning⟩ | ⟨-, hrunning⟩ | ⟨id, reply, -, hawaits⟩ | ⟨token, rfl⟩
    · exact absurd h.caller (Option.isSome_iff_ne_none.1 hrunning)
    · exact absurd h.caller (Option.isSome_iff_ne_none.1 hrunning)
    · exact absurd h.caller (Option.isSome_iff_ne_none.1 hrunning)
    · exact absurd hawaits (h.awaits id)
    · exact ⟨h.next, h.caller, h.results, h.awaits⟩
  · exact h.of_untouched (s.step_untouched hconcerns)

theorem Ended.run {r : Result R E} (h : s.Ended n r) (es : List (Event R)) :
    (s.run es).Ended n r := by
  induction es generalizing s with
  | nil => exact h
  | cons e es ih => exact ih (h.step e)

/-- The end of a lookup that somebody waits for is told to everybody who does. -/
theorem learn_of_awaits (hs : s.SingleFlight) {r : Resolver E} (hr : s.resolver = some r)
    {id : String} (hawaits : r.Awaits n id) (reply : Reply) :
    s.learn id reply = (r.finish id reply).1.foldl
      (Session.tell id (answerOf (r.directory.read id reply)))
      { s with resolver := some (r.finish id reply).2.2 } := by
  have hinFlight : r.inFlight.contains id = true := by
    obtain ⟨ws, hws, -⟩ := hawaits
    exact List.contains_iff_mem.2 (((hs r hr).mem_iff id).2 (Option.isSome_of_mem hws))
  unfold Session.learn
  rw [hr]
  exact if_pos hinFlight

end Session

/-- What a caller makes of the answers to ids. -/
structure Errand (R E : Type) where
  caller : Nat
  job : Job R
  ids : List String
  /-- Which tokens may have fired for the caller to end as it does. -/
  Live : List String → Prop
  /-- What is true of all answers that the caller has, also of those that it was not asked for. -/
  Admits : Dict (Option E) → Prop
  /-- What the caller may end with, by what is known of the ids. -/
  Ending : (String → Option (Option E)) → Result R E → Prop
  asking : job.Asking
  admits_insert : ∀ {answers id}, Admits answers → id ∈ ids → ∀ a, Admits (answers.insert id a)
  ending_congr : ∀ {known known' r}, (∀ id ∈ ids, known' id = known id) →
    Ending known r → Ending known' r
  settle_ended : ∀ {s : Session R E} {answers known}, s.Idle caller → Live s.fired →
    Admits answers → (∀ id ∈ ids, answers.get? id = known id) →
    ∃ r, Ending known r ∧ (s.settle { number := caller, job, answers }).Ended caller r

namespace Errand

variable {e : Errand R E} {unasked : List String} {known known' : String → Option (Option E)}

def Complete (e : Errand R E) (known : String → Option (Option E)) : Prop :=
  ∀ id ∈ e.ids, (known id).isSome

/-- An id was looked up and its answer is still to come. -/
def Missing (e : Errand R E) (unasked : List String) (known : String → Option (Option E))
    (id : String) : Prop := id ∈ e.ids ∧ id ∉ unasked ∧ known id = none

/-- The ids that are still to be looked up are different, and nothing is known of them. -/
structure Defers (e : Errand R E) (unasked : List String) (known : String → Option (Option E)) :
    Prop where
  nodup : unasked.Nodup
  unknown : ∀ id ∈ unasked, id ∈ e.ids ∧ known id = none

theorem Defers.congr (h : e.Defers unasked known) (hsame : ∀ id ∈ e.ids, known' id = known id) :
    e.Defers unasked known' where
  nodup := h.nodup
  unknown id hid := by
    obtain ⟨hmem, hnone⟩ := h.unknown id hid
    exact ⟨hmem, (hsame id hmem).trans hnone⟩

theorem Defers.update (h : e.Defers unasked known) {id : String} (hid : id ∉ unasked)
    (a : Option (Option E)) : e.Defers unasked (Function.update known id a) where
  nodup := h.nodup
  unknown id' hid' := by
    rw [Function.update_of_ne]
    · exact h.unknown id' hid'
    · rintro rfl
      exact hid hid'

theorem Defers.tail {id : String} (h : e.Defers (id :: unasked) known) (a : Option (Option E)) :
    e.Defers unasked (Function.update known id a) :=
  have hnodup := List.nodup_cons.1 h.nodup
  Defers.update ⟨hnodup.2, fun id' hid' => h.unknown id' (List.mem_cons_of_mem _ hid')⟩ hnodup.1 a

theorem Defers.not_complete {id : String} (h : e.Defers (id :: unasked) known) :
    ¬ e.Complete known := by
  intro hall
  obtain ⟨hid, hnone⟩ := h.unknown id List.mem_cons_self
  exact Option.isSome_iff_ne_none.1 (hall id hid) hnone

theorem Missing.congr (hsame : ∀ id ∈ e.ids, known' id = known id) (id : String) :
    e.Missing unasked known id ↔ e.Missing unasked known' id :=
  and_congr_right fun hid => by rw [hsame id hid]

/-- The answer to an id that was looked up is missing no more. -/
theorem missing_update {id : String} (a : Option E) (id' : String) :
    e.Missing unasked (Function.update known id (some a)) id' ↔
      e.Missing unasked known id' ∧ id' ≠ id := by
  unfold Missing
  by_cases hid : id' = id
  · subst hid
    simp
  · simp [hid]

/-- A lookup leaves the answer to its id missing if it does not find it. -/
theorem missing_tail {id : String} (h : e.Defers (id :: unasked) known) (a : Option (Option E))
    (id' : String) : e.Missing unasked (Function.update known id a) id' ↔
      e.Missing (id :: unasked) known id' ∨ id' = id ∧ a = none := by
  obtain ⟨hid, hnone⟩ := h.unknown id List.mem_cons_self
  have hnot := (List.nodup_cons.1 h.nodup).1
  unfold Missing
  rcases eq_or_ne id' id with rfl | hne
  · simp [hid, hnot]
  · simp [hne]

end Errand

/-- What a caller has learnt of the ids that it asks for. -/
structure Caller.Carries (c : Caller R E) (e : Errand R E) (unasked : List String)
    (known : String → Option (Option E)) : Prop where
  number : c.number = e.caller
  job : c.job = e.job
  admits : e.Admits c.answers
  answers : ∀ id ∈ e.ids, c.answers.get? id = known id
  missing : ∀ id, id ∈ c.missing ↔ e.Missing unasked known id
  unasked : c.unasked = unasked

namespace Caller

variable {c : Caller R E} {e : Errand R E} {unasked : List String}
  {known known' : String → Option (Option E)}

theorem Carries.congr (h : c.Carries e unasked known)
    (hsame : ∀ id ∈ e.ids, known' id = known id) : c.Carries e unasked known' :=
  { h with
    answers := fun id hid => (h.answers id hid).trans (hsame id hid).symm
    missing := fun id => (h.missing id).trans (Errand.Missing.congr hsame id) }

theorem Carries.complete_iff (h : c.Carries e unasked known) (hdefers : e.Defers unasked known) :
    e.Complete known ↔ c.unasked = [] ∧ c.missing = [] := by
  simp only [h.unasked, List.eq_nil_iff_forall_not_mem, h.missing]
  constructor
  · intro hall
    have hsome (id : String) (hid : id ∈ e.ids) : known id ≠ none :=
      Option.isSome_iff_ne_none.1 (hall id hid)
    refine ⟨fun id hid => ?_, fun id hid => hsome id hid.1 hid.2.2⟩
    obtain ⟨hmem, hnone⟩ := hdefers.unknown id hid
    exact hsome id hmem hnone
  · rintro ⟨hasked, hnone⟩ id hid
    exact Option.isSome_iff_ne_none.2 fun hunknown => hnone id ⟨hid, hasked id, hunknown⟩

/-- A caller that looks an id up has its answer or misses it. -/
theorem Carries.meet {id : String} (h : c.Carries e (id :: unasked) known)
    (hdefers : e.Defers (id :: unasked) known) (found : Lookup E) :
    ({ c with unasked }.meet id found).Carries e unasked
      (Function.update known id found.answer?) := by
  obtain ⟨hid, hnone⟩ := hdefers.unknown id List.mem_cons_self
  have hmissing := Errand.missing_tail hdefers found.answer?
  have hcoalesced (a : Option (Option E)) (ha : a = none) :
      ({ c with unasked, missing := c.missing ++ [id] } : Caller R E).Carries e unasked
        (Function.update known id a) := by
    subst ha
    refine ⟨h.number, h.job, h.admits, fun id' hid' => ?_, fun id' => ?_, rfl⟩
    · rw [Function.update_apply, h.answers id' hid']
      split
      · next heq => rw [heq, hnone]
      · rfl
    · rw [List.mem_append, List.mem_singleton, h.missing, Errand.missing_tail hdefers none id']
      exact or_congr_right (and_iff_left rfl).symm
  cases found with
  | hit a =>
    refine ⟨h.number, h.job, e.admits_insert h.admits hid a, fun id' hid' => ?_, fun id' => ?_, rfl⟩
    · change (c.answers.insert id a).get? id' = Function.update known id (some a) id'
      rw [Dict.get?_insert, Function.update_apply, h.answers id' hid']
    · refine (h.missing id').trans ((hmissing id').trans ?_).symm
      exact or_iff_left fun hnever => nomatch hnever.2
  | coalesced => exact hcoalesced _ rfl
  | miss => exact hcoalesced _ rfl

/-- A caller that is told the answer to an id that it misses has it. -/
theorem Carries.told {id : String} (h : c.Carries e unasked known) (hid : id ∈ e.ids)
    (a : Option E) : ({ c with
      answers := c.answers.insert id a
      missing := c.missing.filter (· != id) } : Caller R E).Carries e unasked
        (Function.update known id (some a)) := by
  refine ⟨h.number, h.job, e.admits_insert h.admits hid a, fun id' hid' => ?_, fun id' => ?_,
    h.unasked⟩
  · rw [Dict.get?_insert, Function.update_apply, h.answers id' hid']
  · rw [List.mem_filter, bne_iff_ne, h.missing, Errand.missing_update]

end Caller

namespace Session

variable {s t : Session R E} {e : Errand R E} {directory : Directory E} {unasked : List String}
  {known known' : String → Option (Option E)}

/-- The caller has not ended and waits for the ids whose answers are missing. -/
structure Attends (s : Session R E) (e : Errand R E) (directory : Directory E)
    (unasked : List String) (known : String → Option (Option E)) : Prop where
  next : e.caller < s.nextCaller
  live : e.Live s.fired
  directory : s.directory? = some directory
  results : s.results e.caller = []
  awaits : ∀ id, s.Awaits e.caller id ↔ e.Missing unasked known id

theorem Attends.of_untouched (h : s.Attends e directory unasked known)
    (hsame : Untouched e.caller s t) : t.Attends e directory unasked known where
  next := Nat.lt_of_lt_of_le h.next hsame.next
  live := hsame.fired ▸ h.live
  directory := hsame.directory.trans h.directory
  results := hsame.results.trans h.results
  awaits id := (hsame.awaits id).trans (h.awaits id)

theorem Attends.congr (h : s.Attends e directory unasked known)
    (hsame : ∀ id ∈ e.ids, known' id = known id) : s.Attends e directory unasked known' :=
  { h with awaits := fun id => (h.awaits id).trans (Errand.Missing.congr hsame id) }

theorem exists_resolver (h : s.directory? = some directory) :
    ∃ r, s.resolver = some r ∧ r.directory = directory := Option.map_eq_some_iff.1 h

theorem Attends.resolver (h : s.Attends e directory unasked known) {id : String}
    (hawaits : s.Awaits e.caller id) :
    ∃ r, s.resolver = some r ∧ r.directory = directory ∧ r.Awaits e.caller id := by
  obtain ⟨r, hr, hdirectory⟩ := exists_resolver h.directory
  exact ⟨r, hr, hdirectory, (awaits_iff hr).1 hawaits⟩

/-- The caller has ended, or it has what is known of the ids and will look the others up. -/
structure Performs (s : Session R E) (e : Errand R E) (directory : Directory E)
    (unasked : List String) (known : String → Option (Option E)) : Prop where
  defers : e.Defers unasked known
  ended : e.Complete known → ∃ r, e.Ending known r ∧ s.Ended e.caller r
  collecting : ¬ e.Complete known → s.Attends e directory unasked known ∧
    ∃ c, s.caller? e.caller = some c ∧ c.Carries e unasked known

theorem Performs.of_untouched (h : s.Performs e directory unasked known)
    (hsame : Untouched e.caller s t) : t.Performs e directory unasked known where
  defers := h.defers
  ended hall := by
    obtain ⟨r, hr, hended⟩ := h.ended hall
    exact ⟨r, hr, hended.of_untouched hsame⟩
  collecting hsome := by
    obtain ⟨hattends, c, hc, hcarries⟩ := h.collecting hsome
    exact ⟨hattends.of_untouched hsame, c, hsame.caller.trans hc, hcarries⟩

theorem Performs.congr (h : s.Performs e directory unasked known)
    (hsame : ∀ id ∈ e.ids, known' id = known id) : s.Performs e directory unasked known' where
  defers := h.defers.congr hsame
  ended hall := by
    obtain ⟨r, hr, hended⟩ := h.ended fun id hid => hsame id hid ▸ hall id hid
    exact ⟨r, e.ending_congr hsame hr, hended⟩
  collecting hsome := by
    obtain ⟨hattends, c, hc, hcarries⟩ := h.collecting fun hall =>
      hsome fun id hid => (hsame id hid).symm ▸ hall id hid
    exact ⟨hattends.congr hsame, c, hc, hcarries.congr hsame⟩

theorem Performs.ended_or_waits (h : s.Performs e directory unasked known) :
    (∃ r, e.Ending known r ∧ s.Ended e.caller r) ∨
      ¬ e.Complete known ∧ s.results e.caller = [] := by
  by_cases hall : e.Complete known
  · exact .inl (h.ended hall)
  · exact .inr ⟨hall, (h.collecting hall).1.results⟩

/-- A caller ends when it knows all answers, and waits on otherwise. -/
theorem Attends.settle (h : s.Attends e directory unasked known) (hdefers : e.Defers unasked known)
    {c : Caller R E} (hc : c.Carries e unasked known) :
    (s.settle c).Performs e directory unasked known := by
  have hcomplete := hc.complete_iff hdefers
  refine ⟨hdefers, fun hall => ?_, fun hsome => ?_⟩
  · have hidle : s.Idle e.caller := ⟨h.next, h.results, fun id hid => by
      obtain ⟨hmem, -, hnone⟩ := (h.awaits id).1 hid
      exact Option.isSome_iff_ne_none.1 (hall id hmem) hnone⟩
    obtain ⟨r, hr, hended⟩ := e.settle_ended hidle h.live hc.admits hc.answers
    obtain ⟨hunasked, hmissing⟩ := hcomplete.1 hall
    rw [← hc.number, ← hc.job] at hended
    obtain ⟨number, job, answers, missing, rest⟩ := c
    obtain rfl : missing = [] := hmissing
    obtain rfl : rest = [] := hunasked
    exact ⟨r, hr, hc.number ▸ hended⟩
  · rw [s.settle_eq_put (hcomplete.not.1 hsome)]
    refine ⟨⟨h.next, h.live, h.directory, h.results, h.awaits⟩, c, ?_, hc⟩
    rw [caller?_put, if_pos hc.number.symm]

/-- A caller that asks is yet to make its lookups. -/
theorem Idle.ask_performs (h : s.Idle e.caller) (hlive : e.Live s.fired)
    (hdirectory : s.directory? = some directory) (hnodup : e.ids.Nodup) (hadmits : e.Admits .empty) :
    (s.ask e.caller e.job e.ids).Performs e directory e.ids fun _ => none := by
  obtain ⟨r, hr, -⟩ := exists_resolver hdirectory
  have hmissing (id : String) : ¬ e.Missing e.ids (fun _ => none) id := fun hid => hid.2.1 hid.1
  unfold ask
  rw [hr]
  refine Attends.settle ⟨h.next, hlive, hdirectory, h.results, fun id => ?_⟩
    ⟨hnodup, fun id hid => ⟨hid, rfl⟩⟩ ⟨rfl, rfl, hadmits, fun id _ => rfl, fun id => ?_, rfl⟩
  · exact iff_of_false (h.awaits id) (hmissing id)
  · exact iff_of_false List.not_mem_nil (hmissing id)

/-- Without a cache there is nothing to look up. -/
theorem Idle.ask_ended (h : s.Idle e.caller) (hlive : e.Live s.fired) (hresolver : s.resolver = none)
    (hadmits : e.Admits .empty) :
    ∃ r, e.Ending (fun _ => none) r ∧ (s.ask e.caller e.job e.ids).Ended e.caller r := by
  unfold ask
  rw [hresolver]
  exact e.settle_ended h hlive hadmits fun _ _ => rfl

/-! ## Answers that are told -/

theorem Performs.tell {id : String} {a : Option E} (h : s.Performs e directory unasked known)
    (hid : id ∈ e.ids) (ha : known id = some a) (m : Nat) :
    (Session.tell id a s m).Performs e directory unasked known := by
  by_cases hm : e.caller = m
  · subst hm
    by_cases hall : e.Complete known
    · obtain ⟨r, -, hended⟩ := h.ended hall
      rw [tell_of_caller?_eq_none hended.caller]
      exact h
    · obtain ⟨hattends, c, hc, hcarries⟩ := h.collecting hall
      have hknown : Function.update known id (some a) = known := Function.update_eq_self_iff.2 ha.symm
      rw [tell_of_caller? hc]
      exact hattends.settle h.defers (hknown ▸ hcarries.told hid a)
  · exact h.of_untouched (tell_untouched s id a hm)

theorem Performs.foldl_tell {id : String} {a : Option E} (h : s.Performs e directory unasked known)
    (hid : id ∈ e.ids) (ha : known id = some a) (ns : List Nat) :
    (ns.foldl (Session.tell id a) s).Performs e directory unasked known := by
  induction ns generalizing s with
  | nil => exact h
  | cons m ns ih => exact ih (h.tell hid ha m)

/-- When everybody who waits for an id is told, so is a caller that is among them. -/
theorem Attends.foldl_tell {id : String} {a : Option E} {ns : List Nat}
    (h : s.Attends e directory unasked (Function.update known id (some a)))
    (hdefers : e.Defers unasked known) (hid : id ∈ e.ids) (hasked : id ∉ unasked) {c : Caller R E}
    (hcaller : s.caller? e.caller = some c) (hc : c.Carries e unasked known)
    (hmem : e.caller ∈ ns) : (ns.foldl (Session.tell id a) s).Performs e directory unasked
      (Function.update known id (some a)) := by
  induction ns generalizing s with
  | nil => cases hmem
  | cons m ns ih =>
    rw [List.foldl_cons]
    by_cases hm : e.caller = m
    · subst hm
      rw [tell_of_caller? hcaller]
      have htold := h.settle (hdefers.update hasked _) (hc.told hid a)
      exact htold.foldl_tell hid (Function.update_self id (some a) known) ns
    · have hsame := tell_untouched s id a hm
      exact ih (h.of_untouched hsame) (hsame.caller.trans hcaller)
        ((List.mem_cons.1 hmem).resolve_left hm)

/-- The end of a lookup that a caller waits for is told to it. -/
theorem Performs.learn (h : s.Performs e directory unasked known) (hs : s.SingleFlight) {id : String}
    (hawaits : s.Awaits e.caller id) (hcollecting : ¬ e.Complete known) (reply : Reply) :
    (s.learn id reply).Performs e directory unasked
      (Function.update known id (some (answerOf (directory.read id reply)))) := by
  obtain ⟨hattends, c, hc, hcarries⟩ := h.collecting hcollecting
  obtain ⟨hid, hasked, -⟩ := (hattends.awaits id).1 hawaits
  obtain ⟨r, hr, hdirectory, hwaits⟩ := hattends.resolver hawaits
  have hmem : e.caller ∈ (r.finish id reply).1 := (r.mem_conclude_fst e.caller id _).2 hwaits
  rw [learn_of_awaits hs hr hwaits, hdirectory]
  refine Attends.foldl_tell ⟨hattends.next, hattends.live, ?_, hattends.results, fun id' => ?_⟩
    h.defers hid hasked hc hcarries hmem
  · exact congrArg some hdirectory
  · rw [awaits_iff rfl, Errand.missing_update, ← hattends.awaits, awaits_iff hr, and_comm]
    exact Resolver.awaits_conclude r e.caller id id' _

/-! ## Lookups -/

/-- A caller that has looked all its ids up makes no more lookups. -/
theorem Performs.step_lookUp_nil (h : s.Performs e directory [] known) :
    s.step (.lookUp e.caller) = s := by
  by_cases hall : e.Complete known
  · obtain ⟨r, -, hended⟩ := h.ended hall
    exact proceed_of_caller?_eq_none hended.caller
  · obtain ⟨-, c, hc, hcarries⟩ := h.collecting hall
    refine (proceed_of_caller? hc).trans (if_pos ?_)
    rw [hcarries.unasked]
    rfl

/-- A lookup takes the first id from those that a caller still has to look up. -/
theorem Attends.lookUp {id : String} (h : s.Attends e directory (id :: unasked) known)
    (hdefers : e.Defers (id :: unasked) known) {c : Caller R E}
    (hc : c.Carries e (id :: unasked) known) {r : Resolver E} (hr : s.resolver = some r) :
    (s.lookUp c).Performs e directory unasked (Function.update known id (r.cache.answer? id)) := by
  rw [lookUp_cons hr hc.unasked, ← r.answer?_resolve_fst c.number id]
  refine Attends.settle (s := s.afterResolve r c.number id) ⟨h.next, h.live, ?_, h.results,
    fun id' => ?_⟩ (hdefers.tail _) (hc.meet hdefers _)
  · rw [directory?_afterResolve hr]
    exact h.directory
  · rw [awaits_afterResolve hr, h.awaits, Errand.missing_tail hdefers, Resolver.answer?_resolve_fst]
    exact or_congr_right (and_iff_right hc.number.symm)

/-- The next lookup of a caller is that of the first id that it still has to look up. -/
theorem Performs.step_lookUp_eq {id : String}
    (h : s.Performs e directory (id :: unasked) known) :
    ∃ r c, s.resolver = some r ∧ r.directory = directory ∧
      s.step (.lookUp e.caller) = (s.afterResolve r e.caller id).settle c ∧
      (s.step (.lookUp e.caller)).Performs e directory unasked
        (Function.update known id (r.cache.answer? id)) := by
  obtain ⟨hattends, c, hc, hcarries⟩ := h.collecting h.defers.not_complete
  obtain ⟨r, hr, hdirectory⟩ := exists_resolver hattends.directory
  have hstep : s.step (.lookUp e.caller) = s.lookUp c := by
    refine (proceed_of_caller? hc).trans (if_neg ?_)
    rw [hcarries.unasked]
    exact Bool.false_ne_true
  have heffect := lookUp_cons hr hcarries.unasked
  rw [← hstep, hcarries.number] at heffect
  refine ⟨r, _, hr, hdirectory, heffect, ?_⟩
  rw [hstep]
  exact hattends.lookUp h.defers hcarries hr

/-! ## Steps and runs -/

/-- An event that is no lookup of the caller adds the answer that it brings to an id that was looked
up. -/
theorem Performs.step (h : s.Performs e directory unasked known) (hs : s.SingleFlight)
    {event : Event R} (habort : event ≠ .abort e.caller) (hlookUp : event ≠ .lookUp e.caller)
    (hlive : e.Live (s.step event).fired) :
    (s.step event).Performs e directory unasked fun id =>
      if id ∈ unasked then known id else (known id).or (event.answerTo? directory id) := by
  by_cases hall : e.Complete known
  · obtain ⟨r, hr, hended⟩ := h.ended hall
    refine Performs.congr ⟨h.defers, fun _ => ⟨r, hr, hended.step event⟩,
      fun hsome => absurd hall hsome⟩ fun id hid => ?_
    obtain ⟨a, ha⟩ := Option.isSome_iff_exists.1 (hall id hid)
    rw [ha, Option.some_or, ite_self]
  obtain ⟨hattends, c, hc, hcarries⟩ := h.collecting hall
  by_cases hconcerns : event.Concerns s e.caller
  · rcases hconcerns.cases hattends.next with
      ⟨reply, rfl, -⟩ | ⟨rfl, -⟩ | ⟨rfl, -⟩ | ⟨id, reply, rfl, hawaits⟩ | ⟨name, rfl⟩
    · -- the caller waits for answers, and no longer for a reply of its own
      have hsame : s.receive e.caller reply = s :=
        receive_of_asking hc (hcarries.job ▸ e.asking) reply
      simpa [Session.step, hsame, Event.answerTo?] using h
    · exact absurd rfl hlookUp
    · exact absurd rfl habort
    · obtain ⟨-, hasked, hnone⟩ := (hattends.awaits id).1 hawaits
      refine Performs.congr (h.learn hs hawaits hall reply) fun id' _ => ?_
      rcases eq_or_ne id' id with rfl | hne
      · simp [hasked, hnone, Event.answerTo?]
      · simp [hne, hne.symm, Event.answerTo?]
    · simp only [Event.answerTo?, Option.or_none, ite_self]
      exact ⟨h.defers, fun hcomplete => absurd hcomplete hall, fun _ => ⟨⟨hattends.next, hlive,
        hattends.directory, hattends.results, hattends.awaits⟩, c, hc, hcarries⟩⟩
  · refine Performs.congr (h.of_untouched (s.step_untouched hconcerns)) fun id hid => ?_
    split
    · rfl
    · next hasked =>
      cases event with
      | learn id' reply =>
        rcases eq_or_ne id' id with rfl | hne
        · have hknown : known id' ≠ none :=
            fun hnone => hconcerns ((hattends.awaits id').2 ⟨hid, hasked, hnone⟩)
          obtain ⟨a, ha⟩ := Option.ne_none_iff_exists'.1 hknown
          rw [ha, Option.some_or]
        · simp [Event.answerTo?, hne]
      | _ => exact Option.or_none

/-- What is known of an id after more events: if it is still to be looked up, what its lookup comes to,
and otherwise also what the events bring. -/
def knownAfter (s : Session R E) (n : Nat) (directory : Directory E) (unasked : List String)
    (known : String → Option (Option E)) (es : List (Event R)) (id : String) : Option (Option E) :=
  if id ∈ unasked then s.answerToLookup? n id (unasked.idxOf id) es
  else (known id).or (es.findSome? (·.answerTo? directory id))

theorem knownAfter_of_mem {n : Nat} {id : String} (hid : id ∈ unasked) (es : List (Event R)) :
    s.knownAfter n directory unasked known es id =
      s.answerToLookup? n id (unasked.idxOf id) es := if_pos hid

theorem knownAfter_of_not_mem {n : Nat} {id : String} (hid : id ∉ unasked) (es : List (Event R)) :
    s.knownAfter n directory unasked known es id =
      (known id).or (es.findSome? (·.answerTo? directory id)) := if_neg hid

/-- An event adds what it brings to what is known, and a lookup takes the first id from those that are
still to be looked up. -/
theorem Performs.advance (h : s.Performs e directory unasked known) (hs : s.SingleFlight)
    {event : Event R} (habort : event ≠ .abort e.caller) (hlive : e.Live (s.step event).fired) :
    (s.step event).Performs e directory (unasked.drop ([event].countP (·.looksUp e.caller)))
      (s.knownAfter e.caller directory unasked known [event]) := by
  have hnone {id : String} (hid : id ∈ unasked) : known id = none := (h.defers.unknown id hid).2
  by_cases hlookUp : event = .lookUp e.caller
  · subst hlookUp
    rw [List.countP_cons_of_pos (looksUp_iff.2 rfl)]
    cases unasked with
    | nil =>
      rw [h.step_lookUp_nil]
      exact h.congr fun id _ => (knownAfter_of_not_mem List.not_mem_nil _).trans Option.or_none
    | cons id rest =>
      obtain ⟨r, -, hr, hdirectory, -, hstep⟩ := h.step_lookUp_eq
      refine hstep.congr fun id' _ => ?_
      rcases eq_or_ne id' id with rfl | hne
      · rw [knownAfter_of_mem List.mem_cons_self, List.idxOf_cons_self, answerToLookup?_lookUp_zero,
          hr, Function.update_self]
        exact Option.or_none
      · rw [Function.update_of_ne hne]
        by_cases hmem : id' ∈ id :: rest
        · rw [knownAfter_of_mem hmem, List.idxOf_cons_ne _ hne.symm, hnone hmem]
          exact s.answerToLookup?_lookUp_succ _ _ _ []
        · exact (knownAfter_of_not_mem hmem _).trans Option.or_none
  · have hnot : event.looksUp e.caller = false := looksUp_of_ne hlookUp
    rw [List.countP_cons_of_neg (Bool.eq_false_iff.1 hnot)]
    refine (h.step hs habort hlookUp hlive).congr fun id _ => ?_
    split
    · next hmem =>
      rw [knownAfter_of_mem hmem, hnone hmem]
      exact answerToLookup?_of_not_looksUp hnot _ _ _ []
    · next hmem => simp [knownAfter_of_not_mem hmem]

/-- What is known after an event and more events is what the others add to what is known after it. -/
theorem Performs.knownAfter_cons (h : s.Performs e directory unasked known) (event : Event R)
    (es : List (Event R)) (id : String) :
    s.knownAfter e.caller directory unasked known (event :: es) id =
      (s.step event).knownAfter e.caller directory
        (unasked.drop ([event].countP (·.looksUp e.caller)))
        (s.knownAfter e.caller directory unasked known [event]) es id := by
  have hlookedUp {unasked' : List String} (hmem : id ∉ unasked) (hmem' : id ∉ unasked') :
      s.knownAfter e.caller directory unasked known (event :: es) id =
        (s.step event).knownAfter e.caller directory unasked'
          (s.knownAfter e.caller directory unasked known [event]) es id := by
    rw [knownAfter_of_not_mem hmem, knownAfter_of_not_mem hmem', knownAfter_of_not_mem hmem,
      Option.or_assoc, ← List.findSome?_append, List.singleton_append]
  by_cases hlookUp : event = .lookUp e.caller
  · subst hlookUp
    rw [List.countP_cons_of_pos (looksUp_iff.2 rfl)]
    cases unasked with
    | nil => exact hlookedUp List.not_mem_nil List.not_mem_nil
    | cons first rest =>
      obtain ⟨r, -, hr, hdirectory, -, -⟩ := h.step_lookUp_eq
      rw [List.countP_nil, List.drop_succ_cons, List.drop_zero]
      rcases eq_or_ne id first with rfl | hne
      · rw [knownAfter_of_not_mem (List.nodup_cons.1 h.defers.nodup).1,
          knownAfter_of_mem List.mem_cons_self, knownAfter_of_mem List.mem_cons_self,
          List.idxOf_cons_self, answerToLookup?_lookUp_zero, answerToLookup?_lookUp_zero, hr]
        simp [Resolver.answerAfter?, hdirectory]
      · by_cases hmem : id ∈ rest
        · rw [knownAfter_of_mem (List.mem_cons_of_mem _ hmem), knownAfter_of_mem hmem,
            List.idxOf_cons_ne _ hne.symm]
          exact s.answerToLookup?_lookUp_succ _ _ _ es
        · exact hlookedUp (List.not_mem_cons_of_ne_of_not_mem hne hmem) hmem
  · have hnot : event.looksUp e.caller = false := looksUp_of_ne hlookUp
    rw [List.countP_cons_of_neg (Bool.eq_false_iff.1 hnot)]
    by_cases hmem : id ∈ unasked
    · rw [knownAfter_of_mem hmem]
      exact (answerToLookup?_of_not_looksUp hnot _ _ _ es).trans (knownAfter_of_mem hmem es).symm
    · exact hlookedUp hmem hmem

/-- Each lookup of a caller takes the first id from those that it still has to look up, and adds what it
comes to. -/
theorem Performs.run (h : s.Performs e directory unasked known) (hs : s.SingleFlight)
    {es : List (Event R)} (habort : .abort e.caller ∉ es)
    (hlive : ∀ es₁ es₂, es = es₁ ++ es₂ → e.Live (s.run es₁).fired) :
    (s.run es).Performs e directory (unasked.drop (es.countP (·.looksUp e.caller)))
      (s.knownAfter e.caller directory unasked known es) := by
  induction es generalizing s unasked known with
  | nil =>
    refine h.congr fun id _ => ?_
    by_cases hid : id ∈ unasked
    · exact (knownAfter_of_mem hid []).trans (h.defers.unknown id hid).2.symm
    · exact (knownAfter_of_not_mem hid []).trans Option.or_none
  | cons event es ih =>
    rw [List.mem_cons, not_or] at habort
    have hlater : ∀ es₁ es₂, es = es₁ ++ es₂ → e.Live ((s.step event).run es₁).fired :=
      fun es₁ es₂ heq => hlive (event :: es₁) es₂ (congrArg _ heq)
    have hstep := h.advance hs (Ne.symm habort.1) (hlive [event] es rfl)
    rw [← List.singleton_append, List.countP_append, ← List.drop_drop]
    exact (ih hstep (hs.step event) habort.2 hlater).congr fun id _ => h.knownAfter_cons event es id

/-- After `i` lookups of a caller the next one is that of the id in this place, and of nothing after the
last one. -/
theorem Performs.run_lookUp (h : s.Performs e directory unasked known) (hs : s.SingleFlight)
    {earlier : List (Event R)} (habort : .abort e.caller ∉ earlier)
    (hlive : ∀ es₁ es₂, earlier = es₁ ++ es₂ → e.Live (s.run es₁).fired) :
    let t := s.run earlier
    let next := unasked[earlier.countP (·.looksUp e.caller)]?
    (next = none → t.step (.lookUp e.caller) = t) ∧
    ∀ id, next = some id → ∃ r c, t.resolver = some r ∧ r.directory = directory ∧
      t.step (.lookUp e.caller) = (t.afterResolve r e.caller id).settle c := by
  intro t next
  have hrun := h.run hs habort hlive
  have hnext : (unasked.drop (earlier.countP (·.looksUp e.caller))).head? = next := List.head?_drop
  cases hrest : unasked.drop (earlier.countP (·.looksUp e.caller)) with
  | nil =>
    rw [hrest] at hrun hnext
    refine ⟨fun _ => hrun.step_lookUp_nil, fun id hid => ?_⟩
    cases hnext.trans hid
  | cons id rest =>
    rw [hrest] at hrun hnext
    refine ⟨fun hnone => ?_, fun id' hid' => ?_⟩
    · cases hnext.trans hnone
    · obtain rfl := Option.some.inj (hnext.trans hid')
      obtain ⟨r, c, hr, hdirectory, hstep, -⟩ := hrun.step_lookUp_eq
      exact ⟨r, c, hr, hdirectory, hstep⟩

/-- A caller that has not ended yet comes to know everything exactly if whatever it waits for is
answered, and all that it still has to look up is looked up and answered too. -/
theorem Performs.complete_knownAfter_iff (h : s.Performs e directory unasked known)
    (hsome : ¬ e.Complete known) (es : List (Event R)) :
    e.Complete (s.knownAfter e.caller directory unasked known es) ↔
      (∀ id, s.Awaits e.caller id → ∃ reply, .learn id reply ∈ es) ∧
      ∀ i id, (s.unasked e.caller)[i]? = some id →
        (s.answerToLookup? e.caller id i es).isSome := by
  obtain ⟨hattends, c, hc, hcarries⟩ := h.collecting hsome
  have hunasked : s.unasked e.caller = unasked := by
    rw [Session.unasked, hc]
    exact hcarries.unasked
  have hindex {i : Nat} {id : String} (hid : unasked[i]? = some id) : unasked.idxOf id = i := by
    obtain ⟨hi, rfl⟩ := List.getElem?_eq_some_iff.1 hid
    exact h.defers.nodup.idxOf_getElem i hi
  rw [hunasked]
  constructor
  · intro hall
    refine ⟨fun id hawaits => ?_, fun i id hid => ?_⟩
    · obtain ⟨hmem, hasked, hnone⟩ := (hattends.awaits id).1 hawaits
      have hknown := hall id hmem
      rw [knownAfter_of_not_mem hasked, hnone, Option.none_or, isSome_findSome?_answerTo?_iff]
        at hknown
      exact hknown
    · have hmem := List.mem_of_getElem? hid
      have hknown := hall id (h.defers.unknown id hmem).1
      rwa [knownAfter_of_mem hmem, hindex hid] at hknown
  · rintro ⟨hlearnt, hlookedUp⟩ id hid
    by_cases hmem : id ∈ unasked
    · obtain ⟨i, hi⟩ := List.getElem?_of_mem hmem
      rw [knownAfter_of_mem hmem, hindex hi]
      exact hlookedUp i id hi
    · rw [knownAfter_of_not_mem hmem, Option.isSome_or, Bool.or_eq_true,
        isSome_findSome?_answerTo?_iff]
      rcases Option.eq_none_or_eq_some (known id) with hnone | ⟨a, ha⟩
      · exact .inr (hlearnt id ((hattends.awaits id).2 ⟨hid, hmem, hnone⟩))
      · exact .inl (ha ▸ rfl)

end Session

end LedgerExplorer
