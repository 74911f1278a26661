import LedgerExplorer.Proofs.Page.QueryString
import LedgerExplorer.Proofs.Session.Lookups
import LedgerExplorer.Proofs.Session.Requests

/-!
# Isolation of namespaces

A session builds the paths of its calls in three places, and each of them names the namespace of the
session. So what a source would reply elsewhere is never seen: sources that agree below the
namespace take a session through the same states.
-/

namespace LedgerExplorer

variable {R E : Type}

/-- A path below a namespace. -/
def Within (namespaceName path : String) : Prop :=
  ∃ rest, path = "/namespaces/" ++ namespaceName ++ "/" ++ rest

/-- The calls that a session can make: for a page, for a histogram, or for an entity. -/
inductive Call.Admitted (pager : Pager) (now : Instant) (directory? : Option (Directory E)) :
    Call → Prop
  | page {q : PageQuery} {request : PageRequest} (n : Nat) :
      pager.describe q now = .ok request →
      Admitted pager now directory? (.own n request.path request.query)
  | histogram {request : HistogramRequest} (n : Nat) :
      request.namespaceName = pager.namespaceName →
      Admitted pager now directory? (.own n request.path request.query)
  | entity {directory : Directory E} (id : String) :
      directory? = some directory →
      Admitted pager now directory? (.entity id (directory.path id))

theorem HistogramRequest.within_path (r : HistogramRequest) : Within r.namespaceName r.path := by
  have hchart : "/charts/histogram/" = "/" ++ "charts/histogram/" := rfl
  refine ⟨"charts/histogram/" ++ r.collection, ?_⟩
  rw [path, hchart, ← String.append_assoc, ← String.append_assoc]

theorem PageRequest.within_path (r : PageRequest) : Within r.namespaceName r.path :=
  ⟨r.entityPath, rfl⟩

theorem Directory.within_ofCollection (namespaceName collection : String) (d : Decoder E)
    (id : String) : Within namespaceName ((ofCollection namespaceName collection d).path id) := by
  refine ⟨Text.trimSlashes collection ++ "/" ++ id, ?_⟩
  rw [← String.append_assoc, ← String.append_assoc]
  rfl

theorem Call.Admitted.within {pager : Pager} {now : Instant} {directory? : Option (Directory E)}
    {c : Call} (h : c.Admitted pager now directory?)
    (hdirectory : ∀ d, directory? = some d → ∀ id, Within pager.namespaceName (d.path id)) :
    Within pager.namespaceName c.path := by
  cases h with
  | page n hrequest =>
    obtain ⟨_, -, rfl⟩ := PageRequest.build_eq hrequest
    exact PageRequest.within_path _
  | histogram n hname => exact hname ▸ HistogramRequest.within_path _
  | entity id hd => exact hdirectory _ hd id

theorem PageFetch.describe_of_start {p : Pager} {q : PageQuery} {now : Instant} {rows : RowKind R}
    {cancelled : Bool} {fetch : PageFetch R} (h : start p q now rows cancelled = .ok fetch) :
    p.describe q now = .ok fetch.request := by
  unfold start at h
  split at h
  · cases h
  · next request hrequest =>
    cases cancelled with
    | true => cases h
    | false =>
      cases h
      exact hrequest

namespace Session

variable {s : Session R E} {c : Call}

theorem CallsEntities.mem {t : Session R E} (h : s.CallsEntities t) (hc : c ∈ t.calls) :
    c ∈ s.calls ∨ c.Admitted s.pager s.now s.directory? := by
  obtain ⟨calls, hcalls, hentities⟩ := h
  rw [hcalls] at hc
  refine (List.mem_append.1 hc).imp_right fun hnew => ?_
  obtain ⟨directory, id, hdirectory, rfl⟩ := hentities c hnew
  exact .entity id hdirectory

theorem mem_calls_startPage {m : Nat} {g : Guard} {rows : RowKind R} {q : PageQuery}
    (h : c ∈ (s.startPage m g rows q).calls) :
    c ∈ s.calls ∨ c.Admitted s.pager s.now s.directory? := by
  unfold startPage at h
  split at h
  · rw [calls_finishPage] at h
    exact .inl h
  · next fetch hfetch =>
    rcases List.mem_append.1 h with hbefore | hnew
    · exact .inl hbefore
    · cases List.mem_singleton.1 hnew
      exact .inr (.page m (PageFetch.describe_of_start hfetch))

theorem mem_calls_start {task : Task R} (h : c ∈ (s.start task).calls) :
    c ∈ s.calls ∨ c.Admitted s.pager s.now s.directory? := by
  unfold start at h
  cases task <;> dsimp only at h
  case resolve id => exact (lookUp_callsEntities { s with nextCaller := s.nextCaller + 1 } _).mem h
  case resolveAll ids =>
    rw [calls_ask] at h
    exact .inl h
  case page q rows token =>
    have hcalls := mem_calls_startPage h
    exact hcalls
  case load v q =>
    split at h
    · exact .inl h
    · have hcalls := mem_calls_startPage h
      exact hcalls
  case histogram request categories =>
    rcases List.mem_append.1 h with hbefore | hnew
    · exact .inl hbefore
    · cases List.mem_singleton.1 hnew
      exact .inr (.histogram s.nextCaller rfl)

/-- What a session calls in a step, it can call. -/
theorem mem_calls_step {e : Event R} (h : c ∈ (s.step e).calls) :
    c ∈ s.calls ∨ c.Admitted s.pager s.now s.directory? := by
  cases e with
  | start task => exact mem_calls_start h
  | receive m reply => exact .inl (s.calls_receive m reply ▸ h)
  | lookUp m => exact (s.proceed_callsEntities m).mem h
  | learn id reply => exact .inl (calls_learn s id reply ▸ h)
  | abort m =>
    simp only [step] at h
    split at h <;> exact .inl h
  | fire | openView | cancelView | dropView | invalidate | clear => exact .inl h

theorem Numbered.mem_calls_run (hs : s.Numbered) {es : List (Event R)} (h : c ∈ (s.run es).calls) :
    c ∈ s.calls ∨ c.Admitted s.pager s.now s.directory? := by
  induction es generalizing s with
  | nil => exact .inl h
  | cons e es ih =>
    obtain ⟨hpager, hnow, hdirectory⟩ := hs.setting_step e
    rcases ih (hs.step e) h with hbefore | hadmitted
    · exact mem_calls_step hbefore
    · rw [hpager, hnow, hdirectory] at hadmitted
      exact .inr hadmitted

end Session

namespace Cache

theorem namespaceName_evict (k : Nat) (c : Cache E) :
    (c.evict k).namespaceName = c.namespaceName := by
  induction k generalizing c with
  | zero => rfl
  | succ k ih =>
    rw [evict]
    split
    · rfl
    · exact ih _

theorem namespaceName_publish (c : Cache E) (id : String) (a : Option E) :
    (c.publish id a).2.namespaceName = c.namespaceName := by
  unfold publish
  split
  · exact namespaceName_evict _ _
  · rfl
  · exact namespaceName_evict _ _

theorem namespaceName_invalidate (c : Cache E) (id : String) :
    (c.invalidate id).namespaceName = c.namespaceName := by
  unfold invalidate
  split <;> rfl

end Cache

theorem Resolver.namespaceName_kept (namespaceName : String) :
    Kept fun r : Resolver E => r.cache.namespaceName = namespaceName where
  resolve {r} h n id := by
    have hlookup := (Cache.namespaceName_lookup r.cache n id).trans h
    unfold resolve
    generalize r.cache.lookup n id = found at hlookup
    obtain ⟨_ | _ | _, cache⟩ := found
    · exact hlookup
    · exact hlookup
    · exact hlookup
  conclude h id outcome := (Cache.namespaceName_publish _ id _).trans h
  invalidate h id := (Cache.namespaceName_invalidate _ id).trans h
  clear h := h

namespace Session

/-- What makes a session go on: an event of any kind, or the reply of its source to a call. -/
inductive Cue (R : Type)
  | event (e : Event R)
  /-- The reply to the call of a number. -/
  | reply (k : Nat)

/-- Follows a cue. The source may reply to every call in another way. -/
def follow (source : Nat → String → String → Reply) (s : Session R E) : Cue R → Session R E
  | .event e => s.step e
  | .reply k =>
    match s.calls[k]? with
    | some c => s.step (.ofReply (source k c.path c.query) c)
    | none => s

/-- A session as it is set up, with a cache of entities attached to it or without one. -/
inductive SetUp (pager : Pager) (now : Instant) : Session R E → Prop
  | plain : SetUp pager now (ofPager pager now)
  | cached {namespaceName collection : String} {bound : Option UInt64} {d : Decoder E}
      {s : Session R E} :
      (ofPager pager now).attach (.ofCollection namespaceName collection bound d) = .ok s →
      SetUp pager now s

variable {pager : Pager} {now : Instant} {s s₀ : Session R E}
  {source source' : Nat → String → String → Reply}

theorem attach_eq_ok {r : Resolver E} {t : Session R E} : s.attach r = .ok t ↔
    r.cache.namespaceName = s.pager.namespaceName ∧ { s with resolver := some r } = t := by
  unfold attach
  split
  · next hname => exact ⟨fun h => ⟨hname, Except.ok.inj h⟩, fun h => congrArg _ h.2⟩
  · next hname => exact ⟨nofun, fun h => absurd h.1 hname⟩

theorem poolSession_eq (c : Config) (now : Instant) :
    c.poolSession now = .ok ({ ofPager c.pager now with
      resolver := some c.poolResolver } : Session R TokenPool) :=
  attach_eq_ok.2 ⟨rfl, rfl⟩

theorem SetUp.eq_opened (h : SetUp pager now s₀) : ∃ cache, s₀ = opened pager now cache := by
  cases h with
  | plain => exact ⟨none, rfl⟩
  | cached h =>
    obtain ⟨hname, rfl⟩ := attach_eq_ok.1 h
    obtain rfl : _ = pager.namespaceName := hname
    exact ⟨some (_, _), rfl⟩

theorem SetUp.within_directory (h : SetUp pager now s₀) {d : Directory E}
    (hd : s₀.directory? = some d) (id : String) : Within pager.namespaceName (d.path id) := by
  cases h with
  | plain => cases hd
  | cached h =>
    obtain ⟨hname, rfl⟩ := attach_eq_ok.1 h
    obtain rfl : _ = pager.namespaceName := hname
    cases hd
    exact Directory.within_ofCollection _ _ _ _

theorem exists_foldl_follow (source : Nat → String → String → Reply) (s : Session R E)
    (cues : List (Cue R)) : ∃ es, cues.foldl (follow source) s = s.run es := by
  induction cues generalizing s with
  | nil => exact ⟨[], rfl⟩
  | cons cue cues ih =>
    have hcue : ∃ es, follow source s cue = s.run es := by
      cases cue with
      | event e => exact ⟨[e], rfl⟩
      | reply k =>
        simp only [follow]
        split
        · next c _ => exact ⟨[.ofReply (source k c.path c.query) c], rfl⟩
        · exact ⟨[], rfl⟩
    obtain ⟨es, hes⟩ := hcue
    obtain ⟨es', hes'⟩ := ih (s.run es)
    refine ⟨es ++ es', ?_⟩
    rw [List.foldl_cons, hes, hes', run, run, run, List.foldl_append]

/-- Whatever happens to a session, all its calls stay below its namespace. -/
theorem SetUp.within (h : SetUp pager now s₀) {es : List (Event R)} {c : Call}
    (hc : c ∈ (s₀.run es).calls) : Within pager.namespaceName c.path := by
  obtain ⟨cache, rfl⟩ := h.eq_opened
  rcases (opened_numbered pager now cache).mem_calls_run hc with hbefore | hadmitted
  · cases hbefore
  · exact hadmitted.within fun d hd => h.within_directory hd

/-- The cache of a session stays a cache of its namespace, which can be attached to other sessions
of the namespace. -/
theorem SetUp.namespaceName_cache (h : SetUp pager now s₀) (es : List (Event R)) {r : Resolver E}
    (hr : (s₀.run es).resolver = some r) : r.cache.namespaceName = pager.namespaceName := by
  obtain ⟨cache, rfl⟩ := h.eq_opened
  refine kept_run (Resolver.namespaceName_kept _) (fun r hr => ?_) es r hr
  obtain ⟨_, -, rfl⟩ := Option.map_eq_some_iff.1 hr
  rfl

/-- Sources that agree on what a session can call take it through the same states. -/
theorem foldl_follow_congr {P : String → Prop}
    (hcalls : ∀ (es : List (Event R)), ∀ c ∈ (s.run es).calls, P c.path)
    (hsame : ∀ k path query, P path → source' k path query = source k path query)
    (cues : List (Cue R)) : cues.foldl (follow source') s = cues.foldl (follow source) s := by
  induction cues generalizing s with
  | nil => rfl
  | cons cue cues ih =>
    have hcue : follow source' s cue = follow source s cue := by
      cases cue with
      | event e => rfl
      | reply k =>
        simp only [follow]
        split
        · next c hc => rw [hsame k _ _ (hcalls [] c (List.mem_of_getElem? hc))]
        · rfl
    obtain ⟨es, hes⟩ := exists_foldl_follow source s [cue]
    rw [List.foldl_cons, List.foldl_nil] at hes
    rw [List.foldl_cons, List.foldl_cons, hcue, hes]
    refine ih fun es' c hc => hcalls (es ++ es') c ?_
    rw [run, List.foldl_append]
    exact hc

/-- A session sees nothing outside its namespace, and what is set up from a configuration is such a
session. -/
theorem namespace_isolation (h : SetUp pager now s₀)
    (hsame : ∀ k path query, Within pager.namespaceName path →
      source' k path query = source k path query) (cues : List (Cue R)) :
    let s := cues.foldl (follow source) s₀
    (∀ c ∈ s.calls, Within pager.namespaceName c.path) ∧
    cues.foldl (follow source') s₀ = s ∧
    (∀ r, s.resolver = some r → ∀ (pager' : Pager) (now' : Instant),
      pager'.namespaceName = pager.namespaceName →
      ∃ t : Session R E, (ofPager pager' now').attach r = .ok t) ∧
    ∀ (c : Config) (now' : Instant), c.pager.namespaceName = c.session.namespaceName ∧
      SetUp c.pager now' (c.plainSession now' : Session R E) ∧
      ∃ t : Session R TokenPool, c.poolSession now' = .ok t ∧ SetUp c.pager now' t := by
  intro s
  have hcalls (es : List (Event R)) : ∀ c ∈ (s₀.run es).calls, Within pager.namespaceName c.path :=
    fun c hc => h.within hc
  obtain ⟨es, hes⟩ : ∃ es, s = s₀.run es := exists_foldl_follow source s₀ cues
  refine ⟨hes ▸ hcalls es, foldl_follow_congr hcalls hsame cues, fun r hr pager' now' hname => ?_,
    fun c now' => ⟨rfl, .plain, ?_⟩⟩
  · have hcache := h.namespaceName_cache es (hes ▸ hr)
    exact ⟨_, attach_eq_ok.2 ⟨hcache.trans hname.symm, rfl⟩⟩
  · exact ⟨_, poolSession_eq c now', .cached (poolSession_eq c now')⟩

/-- A request that names another namespace is sent to the namespace of the session. -/
theorem foreign_histogram_isolated :
    let c : Config := { session := { namespaceName := "ns1" } }
    let source : Nat → String → String → Reply := fun _ _ _ => .body (.array [])
    let source' : Nat → String → String → Reply := fun _ path _ =>
      if "/namespaces/ns1/".toList <+: path.toList then .body (.array []) else .crash
    let cues : List (Cue Record) := [
      .event (.start (.histogram ⟨"ns2", "transactions", 0, 3600, 2⟩ .empty)),
      .event (.start (.resolve "p1")),
      .event (.start (.page (.first "/tokens/transfers" 5) .transfers none)),
      .reply 1, .reply 0, .reply 2]
    ∃ s₀ : Session Record TokenPool, c.poolSession ⟨1700000000, 0⟩ = .ok s₀ ∧
      cues.foldl (follow source') s₀ = cues.foldl (follow source) s₀ ∧
      (cues.foldl (follow source) s₀).calls.map Call.path = [
        "/namespaces/ns1/charts/histogram/transactions",
        "/namespaces/ns1/tokens/pools/p1",
        "/namespaces/ns1/tokens/transfers"] := by
  intro c source source' cues
  have hpool := poolSession_eq (R := Record) c ⟨1700000000, 0⟩
  refine ⟨_, hpool, ?_, by decide +kernel⟩
  have hsame (k : Nat) (path query : String) (hpath : Within c.pager.namespaceName path) :
      source' k path query = source k path query := by
    obtain ⟨rest, rfl⟩ := hpath
    refine if_pos ?_
    rw [String.toList_append]
    exact List.prefix_append _ _
  obtain ⟨-, hstates, -⟩ := namespace_isolation (.cached hpool) hsame cues
  exact hstates

end Session

end LedgerExplorer
