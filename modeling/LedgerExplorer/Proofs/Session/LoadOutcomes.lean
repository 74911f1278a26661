import LedgerExplorer.Proofs.Session.Discards
import LedgerExplorer.Proofs.Session.LoadEnds

/-!
# How loads end

However the loads of views overlap with each other, with the end of their views and with whatever
else goes on in a session, each of them ends once, with what its view makes of its fetch at that time.
-/

namespace LedgerExplorer

namespace Session

variable {R E : Type}

theorem ofNat_countP_eq_zero_iff {es : List (Event R)} {v : Nat}
    (h : es.countP (Event.begins v) < UInt64.size) :
    UInt64.ofNat (es.countP (Event.begins v)) = 0 ↔ ∀ q, .start (.load v q) ∉ es := by
  rw [← UInt64.toNat_inj, UInt64.toNat_ofNat_of_lt' h]
  change es.countP (Event.begins v) = 0 ↔ _
  rw [List.countP_eq_zero]
  constructor
  · exact fun hnone q hq => hnone _ hq (begins_iff.2 ⟨q, rfl⟩)
  · intro hnone e he hbegins
    obtain ⟨q, rfl⟩ := begins_iff.1 hbegins
    exact hnone q he

theorem opened_guard? (pager : Pager) (now : Instant)
    (cache : Option (Option UInt64 × Directory E)) (n v : Nat) (g : UInt64) :
    (opened pager now cache : Session R E).guard? n ≠ some (.view v g) := nofun

theorem opened_sound (pager : Pager) (now : Instant)
    (cache : Option (Option UInt64 × Directory E)) :
    (opened pager now cache : Session R E).Sound fun _ => 0 where
  ranked := ⟨fun hg => absurd hg (opened_guard? pager now cache _ _ _),
    fun hg => absurd hg (opened_guard? pager now cache _ _ _), nofun⟩
  numbered := opened_numbered pager now cache
  once _ := ⟨Nat.zero_le _, fun _ => rfl⟩
  singleFlight := opened_singleFlight pager now cache

/-- Fewer loads of each view are started than there are generations. With every event a load goes on, is
aborted, or ends because its fetch returns: with the word that its view is cancelled, or else that
another load was started after it, or else with the page, which its view then shows, or with the error.
A view comes to show another page in no other way. What the fetch returns, and when, is settled by the
query, the reply and the answers to the references of the page. Nobody ends twice, only loads report such
an end, and each page that is thrown away is counted once under the reason for it. -/
theorem every_load_ends_once (pager : Pager) (now : Instant)
    (cache : Option (Option UInt64 × Directory E)) (es : List (Event R))
    (hloads : ∀ v, es.countP (Event.begins v) < UInt64.size) :
    let start : Session R E := opened pager now cache
    (∀ earlier e later, es = earlier ++ e :: later →
      let s := start.run earlier
      (∀ n v g view, s.Loading e n v g → s.views[v]? = some view →
        s.GoesOn e n v g view ∨ (e = .abort n ∧ (s.step e).results n = [.aborted]) ∨
          ∃ r, s.Ends e n v g view r) ∧
      ∀ v view, s.views[v]? = some view → (s.step e).shown? v = some view.shown ∨
        ∃ n g page, s.Loading e n v g ∧ (s.step e).results n = [.load .applied] ∧
          (s.step e).shown? v = some (some page, g)) ∧
    (∀ earlier v q later view, es = earlier ++ .start (.load v q) :: later →
      let s := start.run earlier
      let n := s.nextCaller
      s.views[v]? = some view → match PageFetch.start pager q now view.rows view.cancelled with
        | .error f => s.Ends (.start (.load v q)) n v (view.latest + 1) view (.error f)
        | .ok fetch => ∀ before reply after, later = before ++ .receive n reply :: after →
          .abort n ∉ before ++ after → (∀ r, .receive n r ∉ before) →
            ((s.step (.start (.load v q))).run before).Concludes n v (view.latest + 1) fetch reply
              after) ∧
    (∀ n v g, (start.run es).guard? n = some (.view v g) → ∃ before q after view₁ view,
      es = before ++ .start (.load v q) :: after ∧ n = (start.run before).nextCaller ∧
      (start.run before).views[v]? = some view₁ ∧ g = view₁.latest + 1 ∧
      (start.run es).views[v]? = some view ∧
      (g < view.latest ↔ ∃ q', .start (.load v q') ∈ after) ∧
      (view.cancelled ↔ view₁.cancelled ∨ .cancelView v ∈ after)) ∧
    (∀ n, ((start.run es).results n).length ≤ 1) ∧
    (∀ n x, .load x ∈ (start.run es).results n → ∃ before v q after,
      es = before ++ .start (.load v q) :: after ∧ n = (start.run before).nextCaller) ∧
    ∀ reason, Counter.grown (start.run es).counters (.stalePage reason) =
      (start.run es).discards reason := by
  intro start
  have hnone : ∀ n v g, start.guard? n ≠ some (.view v g) := opened_guard? pager now cache
  have hstart : start.Sound fun _ => 0 := opened_sound pager now cache
  have hroom : HasRoom (fun _ => 0) es := fun v => by
    rw [Nat.zero_add]
    exact hloads v
  have hsound : (start.run es).Sound _ := hstart.run hroom
  refine ⟨fun earlier e later hes => ?_, fun earlier v q later view hes => ?_, fun n v g hg => ?_,
    fun n => (hsound.once n).1,
    fun n x hx => hstart.ranked.started_of_load_mem hnone (fun _ => rfl) hroom hx,
    grown_stalePage pager now cache es⟩
  · intro s
    subst hes
    have hs : s.Sound _ := hstart.run hroom.left
    have hfits := HasRoom.head hroom.right
    refine ⟨fun n v g view hloading hview => hs.loading_cases hfits hloading hview,
      fun v view hview => ?_⟩
    obtain ⟨view', hview', -, -, hshown⟩ := views_step hs.ranked hview e
    have hshown' : (s.step e).shown? v = some view'.shown := by
      rw [shown?, hview', Option.map_some]
    rcases hshown with hsame | ⟨n, g, page, hloading, hpage, hresult⟩
    · exact .inl (hshown'.trans (congrArg some hsame))
    · rw [hs.results_of_loading hloading] at hresult
      exact .inr ⟨n, g, page, hloading, hresult, hshown'.trans (congrArg some hpage)⟩
  · intro s n hview
    subst hes
    have hs : s.Sound _ := hstart.run hroom.left
    have hlater := hroom.right
    have hfits := HasRoom.head hlater
    obtain ⟨hpager, hnow, -⟩ := hstart.numbered.setting_run earlier
    split
    · next f hfetch =>
      refine hs.refused hfits hview ?_
      rwa [hpager, hnow]
    · next fetch hfetch =>
      rintro before reply after rfl habort hreceive
      rw [List.mem_append, not_or] at habort
      have hfetch' : PageFetch.start s.pager q s.now view.rows view.cancelled = .ok fetch := by
        rwa [hpager, hnow]
      have hafter := HasRoom.tail hlater
      have hasked := (hs.step hfits).run (HasRoom.left hafter)
      refine hasked.concludes ?_ (HasRoom.right hafter) habort.2
      exact (hs.numbered.load_sent hview hfetch').run habort.1 hreceive
  · obtain ⟨before, q, after, view₁, view, hes, hn, hview₁, hgen, hview, hlatest, hcancelled⟩ :=
      hstart.ranked.since hnone hroom hg
    refine ⟨before, q, after, view₁, view, hes, hn, hview₁, hgen, hview, ?_, ?_⟩
    · have hafter : after.Sublist es := by
        rw [hes]
        exact (List.sublist_cons_self _ after).trans (List.sublist_append_right before _)
      have hcount := Nat.lt_of_le_of_lt hafter.countP_le (hloads v)
      rw [UInt64.lt_iff_le_and_ne, and_iff_right (hsound.ranked.le_latest hg hview), hlatest, Ne,
        UInt64.left_eq_add, ofNat_countP_eq_zero_iff hcount, not_forall_not]
    · rw [hcancelled, Bool.or_eq_true, List.any_eq_true]
      simp only [cancels_iff, exists_eq_right]

/-- The reply to a load that another one has overtaken ends it, although it brings an error. -/
theorem overtaken_load_superseded :
    let rows : RowKind String := ⟨Decoder.string, fun _ => none⟩
    let body : Json := .object [("items", .array [.string "a"]), ("total", .natural 1)]
    let overtaking : List (Event String) :=
      [.start (.load 0 (.first "events" 10)), .receive 1 (.body body)]
    let asked : Session String String :=
      (((opened { namespaceName := "default" } ⟨1700000000, 0⟩ none).run [.openView rows]).step
        (.start (.load 0 (.first "events" 10)))).run overtaking
    (asked.step (.receive 0 (.error (.connection "reset")))).results 0 = [.load .superseded] := by
  intro rows body overtaking asked
  let reset : Reply := .error (.connection "reset")
  obtain ⟨-, hstarted, -⟩ := every_load_ends_once (E := String) { namespaceName := "default" }
    ⟨1700000000, 0⟩ none ([.openView rows] ++ .start (.load 0 (.first "events" 10)) ::
      (overtaking ++ [.receive 0 reset]))
    fun v => Nat.lt_of_le_of_lt List.countP_le_length (by decide)
  have hrequested := hstarted [.openView rows] 0 (.first "events" 10)
    (overtaking ++ [.receive 0 reset]) { rows } rfl rfl
  have hrequest : ∃ request, ({ namespaceName := "default" } : Pager).describe (.first "events" 10)
      ⟨1700000000, 0⟩ = .ok request := ⟨_, rfl⟩
  obtain ⟨request, hrequest⟩ := hrequest
  rw [PageFetch.start, hrequest] at hrequested
  have habort : .abort 0 ∉ overtaking ++ [] := by simp [overtaking]
  have hreceive : ∀ reply, .receive 0 reply ∉ overtaking := by simp [overtaking]
  have hconcludes : asked.Concludes 0 0 1 ⟨request, rows⟩ reset [] :=
    hrequested overtaking reset [] rfl habort hreceive
  obtain ⟨view, hview, hends⟩ := hconcludes
  have hends : asked.Ends (.receive 0 reset) 0 0 1 view
    (.error (.fault (.transport (.connection "reset")))) := hends
  have hstate : (asked.views[0]?).map (fun view => (view.cancelled, view.latest)) =
      some (false, 2) := by decide +kernel
  rw [hview, Option.map_some, Option.some.injEq, Prod.mk.injEq] at hstate
  refine hends.results.trans ?_
  rw [hstate.1, hstate.2]
  rfl

/-- Of three loads of a view the second overtakes the first, and the third is cut off. -/
example :
    let q : PageQuery := { entityPath := "events", limit := 10 }
    let body : Json := .object [("items", .array [.string "a"]), ("total", .natural 1)]
    let s : Session String String := (opened { namespaceName := "default" } ⟨1700000000, 0⟩ none).run
      [.openView ⟨Decoder.string, fun _ => none⟩, .start (.load 0 q), .start (.load 0 q),
        .receive 1 (.body body), .receive 0 (.error (.connection "reset")), .start (.load 0 q),
        .cancelView 0, .receive 2 (.body body)]
    s.finished.map (fun e => (e.1, e.2.outcome?)) =
        [(1, some .applied), (0, some .superseded), (2, some .cancelled)] ∧
      (s.shown? 0).map Prod.snd = some 2 ∧
      Counter.grown s.counters (.stalePage .superseded) = 1 := by
  decide +kernel

end Session

end LedgerExplorer
