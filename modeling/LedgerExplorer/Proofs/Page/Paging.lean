import LedgerExplorer.Proofs.Page.QueryString
import LedgerExplorer.Proofs.Page.References

/-!
# Windows of a collection

The query string of a request ends with the bounds of its page, so that a source can read them off
whatever conditions stand before them. A source that supplies a list of records replies with the
records between these bounds. The pages of a query are windows on the list that lie side by side,
and there are more records exactly behind those that do not reach its end.
-/

namespace LedgerExplorer

/-- The limit and the offset that a query string ends with. -/
def paging? (query : String) : Option (UInt64 × UInt64) :=
  match (query.toList.splitOn '&').reverse with
  | ['c', 'o', 'u', 'n', 't'] :: ('s' :: 'k' :: 'i' :: 'p' :: '=' :: skip) ::
      ('l' :: 'i' :: 'm' :: 'i' :: 't' :: '=' :: limit) :: _ =>
    match Text.readWord (String.ofList limit), Text.readWord (String.ofList skip) with
    | .ok limit, .ok skip => some (limit, skip)
    | _, _ => none
  | _ => none

namespace PageRequest

theorem splitOn_query_eq_append (r : PageRequest) :
    ∃ lead, r.query.toList.splitOn '&' = lead ++ [("limit=" ++ Text.natural r.limit.toNat).toList,
      ("skip=" ++ Text.natural r.offset.toNat).toList, "count".toList] := by
  have hseparator := PageQuery.separator_not_mem_paging r.limit r.offset
  rw [query, String.toList_ofList, String.toList_append, toList_pagingFragment]
  cases (r.filterFragment ++ r.dateRangeFragment).toList with
  | nil =>
    obtain ⟨hlimit, hrest⟩ := List.forall_mem_cons.1 hseparator
    refine ⟨[], ?_⟩
    rw [List.nil_append, List.flatMap_cons, List.cons_append, List.drop_one, List.tail_cons,
      splitOn_append_flatMap hrest, List.splitOn_eq_singleton hlimit]
    rfl
  | cons c cs =>
    rw [List.cons_append, List.drop_one, List.tail_cons, splitOn_append_flatMap hseparator]
    exact ⟨_, rfl⟩

theorem paging?_query (r : PageRequest) : paging? r.query = some (r.limit, r.offset) := by
  obtain ⟨lead, hlead⟩ := r.splitOn_query_eq_append
  unfold paging?
  have hlimit : ("limit=" ++ Text.natural r.limit.toNat).toList =
      'l' :: 'i' :: 'm' :: 'i' :: 't' :: '=' :: (Text.natural r.limit.toNat).toList :=
    String.toList_append
  have hskip : ("skip=" ++ Text.natural r.offset.toNat).toList =
      's' :: 'k' :: 'i' :: 'p' :: '=' :: (Text.natural r.offset.toNat).toList :=
    String.toList_append
  have hcount : "count".toList = ['c', 'o', 'u', 'n', 't'] := by decide
  rw [hlead, List.reverse_append, hlimit, hskip, hcount]
  simp [Text.readWord_natural]

end PageRequest

theorem RawPage.decoder_eq_ok {R : Type} {d : Decoder R} {m : Medium} {items total : Reading}
    {xs : List R} {n : UInt64} (hitems : Decoder.list d m items = .ok xs)
    (htotal : Decoder.long m total = .ok n) :
    RawPage.decoder d m (.object [(some "items", items), (some "total", total)] true) =
      .ok ⟨xs, n⟩ := by
  let parts := [(some "items", items), (some "total", total)]
  have hvisit : (layout d).visit m [] parts = .ok () := by
    simp [parts, layout, Layout.visit, Field.of, hitems, htotal, Except.map, bind, Except.bind]
  have hfirst : (layout d).required m (.members parts) "items" (Decoder.list d) = .ok xs := hitems
  have hsecond : (layout d).required m (.members parts) "total" Decoder.long = .ok n := htotal
  unfold RawPage.decoder Layout.decode
  dsimp only
  rw [hvisit, hfirst, hsecond]
  rfl

/-- The page that shows the records of a list from an offset on, as many as the limit allows. -/
def RawPage.window {R : Type} (records : List R) (offset limit : UInt64) : RawPage R where
  items := (records.drop offset.toNat).take limit.toNat
  total := UInt64.ofNat records.length

/-- The source replies to every request under a path with the records of a list that lie between the
bounds of the request, and with the length of the list. -/
def Supplies {R : Type} (source : String → String → Reply) (path : String) (d : Decoder R)
    (records : List R) : Prop :=
  ∀ query limit offset, paging? query = some (limit, offset) →
    ∃ body, source path query = .body body ∧
      body.decodeAs (RawPage.decoder d) = .ok (.window records offset limit)

namespace PageRequest

variable {q : PageQuery} {now : Instant} {maxLimit : UInt64}

/-- A query with a path makes a request if its limit is in bounds and its range has a start. -/
theorem exists_build (namespaceName : String) (hentity : Text.trimSlashes q.entityPath ≠ "")
    (hrange : ∀ range ∈ q.dateRange, (range.start? now).isSome) (hpos : 1 ≤ q.limit.toNat)
    (hmax : q.limit ≤ maxLimit) :
    ∃ r, build namespaceName q now maxLimit = .ok r ∧
      r.path = "/namespaces/" ++ namespaceName ++ "/" ++ Text.trimSlashes q.entityPath ∧
      r.offset = q.offset ∧ r.limit = q.limit := by
  have hlimit : ¬ (q.limit = 0 ∨ maxLimit < q.limit) := by
    rintro (hzero | hlt)
    · rw [hzero] at hpos
      exact absurd hpos (by decide)
    · exact UInt64.not_lt.2 hmax hlt
  have htokens : ∃ ts, rangeTokens q now = .ok ts := by
    unfold rangeTokens
    cases hdate : q.dateRange with
    | none => exact ⟨[], rfl⟩
    | some range =>
      obtain ⟨start, hstart⟩ := Option.isSome_iff_exists.1 (hrange range hdate)
      exact ⟨[(DateRange.since start).compile], by simp [DateRange.token?, hstart]⟩
  obtain ⟨ts, hts⟩ := htokens
  have hbuild : ∃ r, build namespaceName q now maxLimit = .ok r := by
    unfold build
    rw [if_neg hentity, if_neg hlimit, hts]
    exact ⟨_, rfl⟩
  obtain ⟨r, hr⟩ := hbuild
  obtain ⟨_, -, heq⟩ := build_eq hr
  refine ⟨r, hr, ?_⟩
  rw [heq]
  exact ⟨rfl, rfl, rfl⟩

end PageRequest

theorem toNat_saturatingMul (a b : UInt64) :
    (saturatingMul a b).toNat = min (a.toNat * b.toNat) Text.maxWord :=
  Text.toNat_ofNat_min_maxWord _

/-- A page comes at its offset before the end of a word. -/
theorem PageQuery.toNat_offset_page {q : PageQuery} {k : Nat} (hpos : 1 ≤ q.limit.toNat)
    (h : k * q.limit.toNat < UInt64.size) :
    (q.page (UInt64.ofNat k)).offset.toNat = k * q.limit.toNat := by
  have hk : k < UInt64.size := Nat.lt_of_le_of_lt (Nat.le_mul_of_pos_right k hpos) h
  have hword : k * q.limit.toNat ≤ Text.maxWord := Nat.le_of_lt_succ h
  rw [page, toNat_saturatingMul, UInt64.toNat_ofNat_of_lt' hk, Nat.min_eq_left hword]

/-- The number of pages that a list takes. An empty list takes one. -/
def pageCount (length limit : Nat) : Nat :=
  max 1 ((length + limit - 1) / limit)

theorem pageCount_pos (length limit : Nat) : 0 < pageCount length limit :=
  Nat.le_max_left 1 _

theorem succ_lt_pageCount_iff {length limit k : Nat} (h : 1 ≤ limit) :
    k + 1 < pageCount length limit ↔ (k + 1) * limit < length := by
  have hcount : k + 1 < pageCount length limit ↔ k + 2 ≤ (length + limit - 1) / limit := by
    unfold pageCount
    omega
  rw [hcount, Nat.le_div_iff_mul_le h, Nat.succ_mul]
  omega

theorem mul_le_of_lt_pageCount {length limit k : Nat} (h : 1 ≤ limit)
    (hk : k < pageCount length limit) : k * limit ≤ length := by
  cases k with
  | zero =>
    rw [Nat.zero_mul]
    exact Nat.zero_le length
  | succ k => exact Nat.le_of_lt ((succ_lt_pageCount_iff h).1 hk)

theorem length_le_pageCount_mul {length limit : Nat} (h : 1 ≤ limit) :
    length ≤ pageCount length limit * limit := by
  obtain ⟨k, hk⟩ : ∃ k, pageCount length limit = k + 1 :=
    Nat.exists_eq_add_of_le' (pageCount_pos length limit)
  rw [hk]
  by_contra hlt
  exact absurd ((succ_lt_pageCount_iff h).2 (Nat.lt_of_not_le hlt)) (hk ▸ Nat.lt_irrefl _)

namespace Page

variable {R E : Type} {p : Page R E}

theorem hasMore_iff (p : Page R E) :
    p.hasMore ↔ p.offset.toNat + p.rows.length < p.total.toNat := by
  have hword := Text.toNat_le_maxWord p.total
  rw [hasMore, decide_eq_true_eq, size]
  omega

def records (p : Page R E) : List R := p.rows.map Row.record

/-- The page shows the records of a list from an offset on, as many as the limit allows. -/
structure Shows (p : Page R E) (records : List R) (offset limit : Nat) : Prop where
  shown : p.records = (records.drop offset).take limit
  total : p.total.toNat = records.length
  offset : p.offset.toNat = offset

theorem shows_enriched {records : List R} (hlength : records.length < UInt64.size)
    (reference? : R → Option String) (offset limit : UInt64) (known : String → Option (Option E)) :
    ((RawPage.window records offset limit).enriched reference? offset limit known).Shows records
      offset.toNat limit.toNat := by
  refine ⟨?_, UInt64.toNat_ofNat_of_lt' hlength, rfl⟩
  exact (List.map_map ..).trans (List.map_id _)

theorem Shows.hasMore_iff {records : List R} {offset limit : Nat} (h : p.Shows records offset limit)
    (hoffset : offset ≤ records.length) : p.hasMore ↔ offset + limit < records.length := by
  have hlength := congrArg List.length h.shown
  rw [Page.records, List.length_map, List.length_take, List.length_drop] at hlength
  rw [p.hasMore_iff, h.total, h.offset, hlength]
  omega

end Page

end LedgerExplorer
