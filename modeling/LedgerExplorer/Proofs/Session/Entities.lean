import LedgerExplorer.Proofs.Dictionaries
import LedgerExplorer.Proofs.Session.Enrichment
import LedgerExplorer.Proofs.Session.Requests

/-!
# Asking for entities

A caller that asks for the entity of an id, or for those of several ids, ends with the answers and with
nothing else. For several ids it makes one lookup for each different one, in the order in which they
come first, and every answer stands under the id that was looked up for it, in whatever order the
lookups end.
-/

namespace LedgerExplorer

variable {R E : Type}

namespace Errand

/-- A caller asks for the entity of an id. -/
def entity (n : Nat) (id : String) : Errand R E where
  caller := n
  job := .resolve id
  ids := [id]
  Live _ := True
  Admits _ := True
  Ending known r := r = .answer (known id).join
  asking := trivial
  admits_insert _ _ _ := trivial
  ending_congr hsame hr := by rw [hr, hsame _ List.mem_cons_self]
  settle_ended hidle _ _ hanswers := by
    refine ⟨_, rfl, ?_⟩
    rw [← hanswers _ List.mem_cons_self]
    exact hidle.finish _

/-- A caller asks for the entities of several ids, and for no others. -/
def entities (n : Nat) (ids : List String) : Errand R E where
  caller := n
  job := .resolveAll
  ids := ids
  Live _ := True
  Admits answers := ∀ id, (answers.get? id).isSome → id ∈ ids
  Ending known r := r = .answers (.ofKeys ids known)
  asking := trivial
  admits_insert {answers id} hadmits hid a id' hsome := by
    rw [Dict.get?_insert] at hsome
    split at hsome
    · next heq => exact heq ▸ hid
    · exact hadmits id' hsome
  ending_congr {known known' r} hsame hr := by
    rw [hr]
    refine congrArg _ (Dict.ext_get? fun id => ?_)
    rw [Dict.get?_ofKeys, Dict.get?_ofKeys]
    split
    · next hid => rw [hsame id hid]
    · rfl
  settle_ended {s answers known} hidle _ hadmits hanswers := by
    have hall : answers = .ofKeys ids known := by
      refine Dict.ext_get? fun id => ?_
      rw [Dict.get?_ofKeys]
      split
      · next hid => exact hanswers id hid
      · next hid => exact Option.not_isSome_iff_eq_none.1 fun hsome => hid (hadmits id hsome)
    refine ⟨_, rfl, ?_⟩
    rw [← hall]
    exact hidle.finish _

end Errand

namespace Session

variable {s : Session R E} {r : Resolver E} {n : Nat}

/-- A caller that asks for an id makes its only lookup when it starts. -/
theorem Numbered.entity_performs (h : s.Numbered) (hr : s.resolver = some r) (id : String) :
    (s.step (.start (.resolve id))).Performs (.entity s.nextCaller id) r.directory []
      r.cache.answer? := by
  obtain ⟨hnext, hresults, hawaits⟩ := h.idle
  let e : Errand R E := .entity s.nextCaller id
  have hmissing (id' : String) : ¬ e.Missing [id] (fun _ => none) id' := fun hid => hid.2.1 hid.1
  let c : Caller R E := { number := s.nextCaller, job := .resolve id, unasked := [id] }
  have hattends : ({ s with nextCaller := s.nextCaller + 1 } : Session R E).Attends e r.directory [id]
      fun _ => none :=
    ⟨hnext, trivial, congrArg (Option.map _) hr, hresults,
      fun id' => iff_of_false (hawaits id') (hmissing id')⟩
  have hcarries : c.Carries e [id] fun _ => none :=
    ⟨rfl, rfl, trivial, fun _ _ => rfl, fun id' => iff_of_false List.not_mem_nil (hmissing id'), rfl⟩
  have hperforms := hattends.lookUp ⟨List.nodup_singleton id, fun _ hid => ⟨hid, rfl⟩⟩ hcarries hr
  refine hperforms.congr fun id' hid' => ?_
  obtain rfl := List.mem_singleton.1 hid'
  rw [Function.update_self]

theorem Numbered.entities_performs (h : s.Numbered) (hr : s.resolver = some r) (ids : List String) :
    (s.step (.start (.resolveAll ids))).Performs (.entities s.nextCaller (distinct ids)) r.directory
      (distinct ids) fun _ => none := by
  refine Idle.ask_performs (s := { s with nextCaller := s.nextCaller + 1 })
    (e := .entities s.nextCaller (distinct ids)) h.idle trivial (congrArg (Option.map _) hr)
    (nodup_distinct ids) ?_
  intro id hsome
  cases hsome

/-- What a call for one id ends with is the answer to its lookup. -/
theorem Numbered.results_entity (h : s.Numbered) (hs : s.SingleFlight) (hr : s.resolver = some r)
    {id : String} {a : Option E} {es : List (Event R)} (habort : .abort s.nextCaller ∉ es)
    (hanswer : r.answerAfter? id es = some a) :
    ((s.step (.start (.resolve id))).run es).results s.nextCaller = [.answer a] := by
  have hrun := (h.entity_performs hr id).run (hs.step _) habort fun _ _ _ => trivial
  have hknown {id' : String} (hid' : id' ∈ [id]) : (s.step (.start (.resolve id))).knownAfter
      s.nextCaller r.directory [] r.cache.answer? es id' = some a := by
    obtain rfl := List.mem_singleton.1 hid'
    exact (knownAfter_of_not_mem List.not_mem_nil es).trans hanswer
  obtain ⟨_, rfl, hended⟩ := hrun.ended fun id' hid' => Option.isSome_of_mem (hknown hid')
  exact hended.results.trans
    (congrArg (fun found => [Result.answer (Option.join found)]) (hknown List.mem_cons_self))

/-- A call for several ids makes one lookup for each different one, in the order in which they come
first, and whatever else happens may come between them. Such a lookup starts a fetch only if its id has
no entry at that moment. Once every lookup has its answer, from the cache or from the first reply that
ends a fetch of its id, the call ends with a dictionary of exactly these ids, each with the answer of
its own lookup: the one that a call for this id alone, made in place of the lookup, would end with.
Until then it does not end. -/
theorem answers_stand_under_their_ids (pager : Pager) (now : Instant) (bound : Option UInt64)
    (directory : Directory E) (es₀ es : List (Event R)) (ids : List String) :
    let before : Session R E := (opened pager now (some (bound, directory))).run es₀
    let n := before.nextCaller
    let asked := before.step (.start (.resolveAll ids))
    let known id := asked.answerToLookup? n id ((distinct ids).idxOf id) es
    .abort n ∉ es →
      (distinct ids).Nodup ∧ (∀ id, id ∈ distinct ids ↔ id ∈ ids) ∧
      (distinct ids).Pairwise (fun a b => ids.idxOf a < ids.idxOf b) ∧
      asked.resolver = before.resolver ∧ asked.calls = before.calls ∧
      (∀ earlier later, es = earlier ++ .lookUp n :: later →
        let t := asked.run earlier
        let next := (distinct ids)[earlier.countP (·.looksUp n)]?
        (next = none → t.step (.lookUp n) = t) ∧
        ∀ id, next = some id → ∃ r, t.resolver = some r ∧
          (t.step (.lookUp n)).resolver = some (r.resolve n id).2 ∧
          (r.resolve n id).2.log =
            r.log ++ [.lookup r.cache.namespaceName (.ofState (r.cache.state? id))] ∧
          (t.step (.lookUp n)).calls = t.calls ++
            (if r.cache.state? id = none then [.entity id (directory.path id)] else []) ∧
          known id = (r.resolve n id).1.answer?.or (later.findSome? (·.answerTo? directory id)) ∧
          ∀ a, known id = some a → .abort t.nextCaller ∉ later →
            ((t.step (.start (.resolve id))).run later).results t.nextCaller = [.answer a]) ∧
      ((∀ id ∈ ids, (known id).isSome) →
        ∃ answers : Dict (Option E), (asked.run es).results n = [.answers answers] ∧
          answers.keys.Perm (distinct ids) ∧ ∀ id ∈ ids, answers.get? id = known id) ∧
      ((∃ id ∈ ids, known id = none) → (asked.run es).results n = []) := by
  intro before n asked known habort
  have hbefore : before.Numbered := (opened_numbered pager now _).run es₀
  have hsingle : before.SingleFlight := (opened_singleFlight pager now _).run es₀
  have hdirectory : before.directory? = some directory :=
    ((opened_numbered pager now _).setting_run es₀).2.2
  obtain ⟨r₀, hr₀, rfl⟩ := exists_resolver hdirectory
  have hnodup := nodup_distinct ids
  have hperforms := hbefore.entities_performs hr₀ ids
  have hsame (id : String) (hid : id ∈ distinct ids) :
      known id = asked.knownAfter n r₀.directory (distinct ids) (fun _ => none) es id :=
    (knownAfter_of_mem hid es).symm
  have hrun := (hperforms.run (hsingle.step _) habort fun _ _ _ => trivial).congr hsame
  refine ⟨hnodup, fun id => mem_distinct, pairwise_idxOf_distinct ids,
    resolver_ask { before with nextCaller := n + 1 } n .resolveAll _,
    calls_ask { before with nextCaller := n + 1 } n .resolveAll _, ?_, fun hall => ?_, fun hsome => ?_⟩
  · rintro earlier later rfl t next
    have hearlier : .abort n ∉ earlier := fun hmem => habort (List.mem_append_left _ hmem)
    obtain ⟨hnone, hnext⟩ := hperforms.run_lookUp (hsingle.step _) hearlier fun _ _ _ => trivial
    refine ⟨hnone, fun id hid => ?_⟩
    obtain ⟨r, c, hr, hd, hstep⟩ := hnext id hid
    replace hr : t.resolver = some r := hr
    have hknown : known id = r.answerAfter? id later := by
      obtain ⟨hlt, rfl⟩ := List.getElem?_eq_some_iff.1 hid
      dsimp only [known]
      rw [hnodup.idxOf_getElem _ hlt, answerToLookup?_append_lookUp]
      exact (congrArg (Option.bind · _) hr).trans (Option.bind_some ..)
    refine ⟨r, hr, ?_, r.log_resolve n id, ?_, ?_, fun a ha habort' => ?_⟩
    · exact (congrArg Session.resolver hstep).trans (resolver_settle _ c)
    · rw [← hd]
      exact (congrArg Session.calls hstep).trans ((calls_settle _ c).trans (calls_afterResolve ..))
    · rw [hknown, Resolver.answerAfter?, Resolver.answer?_resolve_fst, hd]
    · exact ((hbefore.step _).run earlier).results_entity ((hsingle.step _).run earlier) hr habort'
        (hknown ▸ ha)
  · obtain ⟨_, rfl, hended⟩ := hrun.ended fun id hid => hall id (mem_distinct.1 hid)
    refine ⟨_, hended.results, ?_, fun id hid => ?_⟩
    · refine (List.perm_ext_iff_of_nodup (Dict.nodup_keys _) hnodup).2 fun id => ?_
      rw [Dict.mem_keys, Dict.get?_ofKeys]
      by_cases hid : id ∈ distinct ids
      · simp [hid, hall id (mem_distinct.1 hid)]
      · simp [hid]
    · rw [Dict.get?_ofKeys, if_pos (mem_distinct.2 hid)]
  · obtain ⟨id, hid, hnone⟩ := hsome
    refine (hrun.collecting fun hall => ?_).1.results
    exact Option.isSome_iff_ne_none.1 (hall id (mem_distinct.2 hid)) hnone

/-- Two entries that fill the cache and one that is pending. -/
def earlierCalls : List (Event String) :=
  [.start (.resolve "a"), .learn "a" (.body (.string "A")), .start (.resolve "b"),
    .learn "b" (.body (.string "B")), .start (.resolve "c")]

/-- The end of another lookup comes between the two lookups and takes the entry of the second id
away. -/
def evictionBetween : List (Event String) :=
  [.lookUp 3, .learn "c" .crash, .lookUp 3, .learn "b" (.body (.string "B again"))]

theorem late_answers_stand_under_their_ids :
    let before : Session String String := (opened { namespaceName := "default" } ⟨1700000000, 0⟩
      (some (some 2, ⟨id, Decoder.string⟩))).run earlierCalls
    ∃ answers : Dict (Option String),
      ((before.step (.start (.resolveAll ["a", "b", "a"]))).run evictionBetween).results 3 =
        [.answers answers] ∧
      answers.keys.Perm ["a", "b"] ∧ answers.get? "a" = some (some "A") ∧
      answers.get? "b" = some (some "B again") := by
  intro before
  obtain ⟨-, -, -, -, -, -, hended, -⟩ := answers_stand_under_their_ids (E := String)
    { namespaceName := "default" } ⟨1700000000, 0⟩ (some 2) ⟨id, Decoder.string⟩ earlierCalls
    evictionBetween ["a", "b", "a"] (by simp [evictionBetween])
  obtain ⟨answers, hresults, hkeys, hanswers⟩ := hended (by decide)
  exact ⟨answers, hresults, hkeys, hanswers "a" (by decide), hanswers "b" (by decide)⟩

end Session

end LedgerExplorer
