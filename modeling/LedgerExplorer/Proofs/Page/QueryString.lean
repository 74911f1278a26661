import LedgerExplorer.Page.Query
import LedgerExplorer.Proofs.Filter.Reading
import LedgerExplorer.Proofs.Lists
import LedgerExplorer.Proofs.Text.Natural

/-!
# Reading query strings back

The query string of a request falls apart at its separators into one segment for each condition and
three for the paging. Each condition can be read off its segment, so a query string tells which
conditions, limit and offset it was made for, and no field or value can add a segment of its own.
-/

namespace LedgerExplorer

/-- The field can be told apart from what surrounds it. -/
def FilterDraft.PlainField (d : FilterDraft) : Prop :=
  '=' ∉ d.field.toList ∧ '&' ∉ d.field.toList

instance (d : FilterDraft) : Decidable d.PlainField :=
  inferInstanceAs (Decidable ('=' ∉ d.field.toList ∧ '&' ∉ d.field.toList))

namespace DateRange

theorem effective_since (start : Int) : (since start).effective = since start := rfl

theorem plainField_since (start : Int) : (since start).PlainField := by
  constructor
  · exact (by decide : '=' ∉ createdField.toList)
  · exact (by decide : '&' ∉ createdField.toList)

theorem toList_compile_since (start : Int) :
    (since start).compile.text.toList = (since start).written := by
  have hvalue : Text.percentEncode (Text.integer start) = Text.integer start := by
    rw [Text.percentEncode, Text.percentEncodeWith_eq_self fun _ => Text.isUnreserved_of_mem_integer,
      String.ofList_toList]
  have hcompile : (since start).compileEncoded = (since start).compile :=
    congrArg (since start).tokenWith hvalue
  rw [← hcompile, FilterDraft.toList_compileEncoded, effective_since]

end DateRange

namespace PageQuery

variable {q : PageQuery} {now : Instant}

/-- The conditions of a query at a moment: those of its filters in order, then that of its range. -/
def conditions (q : PageQuery) (now : Instant) : List FilterDraft :=
  q.filters.map FilterDraft.effective ++
    ((q.dateRange.bind (·.start? now)).map DateRange.since).toList

/-- The segments of the query string. -/
def segments (q : PageQuery) (now : Instant) : List (List Char) :=
  (q.conditions now).map FilterDraft.written ++
    [("limit=" ++ Text.natural q.limit.toNat).toList, ("skip=" ++ Text.natural q.offset.toNat).toList,
      "count".toList]

theorem plainField_of_mem_conditions (h : ∀ d ∈ q.filters, d.PlainField) :
    ∀ d ∈ q.conditions now, d.PlainField := by
  intro d hd
  rcases List.mem_append.1 hd with hfilter | hrange
  · obtain ⟨a, ha, rfl⟩ := List.mem_map.1 hfilter
    exact h a ha
  · obtain ⟨start, -, rfl⟩ := Option.map_eq_some_iff.1 (Option.mem_toList.1 hrange)
    exact DateRange.plainField_since start

theorem separator_not_mem_paging (limit offset : UInt64) :
    ∀ l ∈ [("limit=" ++ Text.natural limit.toNat).toList,
      ("skip=" ++ Text.natural offset.toNat).toList, "count".toList], '&' ∉ l := by
  have hnumber {name : String} (hname : '&' ∉ name.toList) (n : Nat) :
      '&' ∉ (name ++ Text.natural n).toList := by
    rw [String.toList_append, Text.toList_natural, List.mem_append, not_or]
    exact ⟨hname, fun hdigit => absurd (Text.isUnreserved_of_mem_digits hdigit) (by decide)⟩
  intro l hl
  simp only [List.mem_cons, List.not_mem_nil, or_false] at hl
  rcases hl with rfl | rfl | rfl
  · exact hnumber (by decide) _
  · exact hnumber (by decide) _
  · decide

theorem separator_not_mem_segments (h : ∀ d ∈ q.filters, d.PlainField) :
    ∀ l ∈ q.segments now, '&' ∉ l := by
  intro l hl
  rcases List.mem_append.1 hl with hcondition | hpaging
  · obtain ⟨d, hd, rfl⟩ := List.mem_map.1 hcondition
    exact FilterDraft.separator_not_mem_written (plainField_of_mem_conditions h d hd).2
  · exact separator_not_mem_paging _ _ l hpaging

end PageQuery

namespace PageRequest

variable {namespaceName : String} {q : PageQuery} {now : Instant} {maxLimit : UInt64}
  {r : PageRequest} {ts : List FilterToken}

theorem toList_join (ts : List FilterToken) :
    (FilterToken.join ts).toList = (ts.map fun t => t.text.toList).flatMap ('&' :: ·) := by
  rw [FilterToken.join, String.toList_ofList, List.flatMap_map]
  rfl

theorem rangeTokens_ok (h : rangeTokens q now = .ok ts) :
    ts.map (fun t => t.text.toList) =
      ((q.dateRange.bind (·.start? now)).map DateRange.since).toList.map FilterDraft.written ∧
    ts.length = q.dateRange.toList.length := by
  unfold rangeTokens at h
  split at h
  · next hrange =>
    cases h
    simp [hrange]
  · next range hrange =>
    split at h
    · next t ht =>
      cases h
      obtain ⟨start, hstart, rfl⟩ := Option.map_eq_some_iff.1 ht
      simp [hrange, hstart, DateRange.toList_compile_since]
    · cases h

theorem build_eq (h : build namespaceName q now maxLimit = .ok r) :
    ∃ ts, rangeTokens q now = .ok ts ∧ r = {
      namespaceName
      entityPath := Text.trimSlashes q.entityPath
      filterFragment := FilterToken.join (q.filters.map FilterDraft.compileEncoded)
      dateRangeFragment := FilterToken.join ts
      offset := q.offset
      limit := q.limit } := by
  unfold build at h
  by_cases hpath : Text.trimSlashes q.entityPath = ""
  · rw [if_pos hpath] at h
    cases h
  by_cases hlimit : q.limit = 0 ∨ maxLimit < q.limit
  · rw [if_neg hpath, if_pos hlimit] at h
    cases h
  rw [if_neg hpath, if_neg hlimit] at h
  cases hrange : rangeTokens q now with
  | error e =>
    rw [hrange] at h
    cases h
  | ok ts =>
    rw [hrange] at h
    cases h
    exact ⟨ts, rfl, rfl⟩

theorem entityPath_of_build (h : build namespaceName q now maxLimit = .ok r) :
    r.entityPath = Text.trimSlashes q.entityPath := by
  obtain ⟨ts, -, rfl⟩ := build_eq h
  rfl

/-- A request keeps the paging of its query and holds the tokens of its filters and of its range. -/
theorem build_ok (h : build namespaceName q now maxLimit = .ok r) :
    ∃ ts, rangeTokens q now = .ok ts ∧
      r.filterFragment = FilterToken.join (q.filters.map FilterDraft.compileEncoded) ∧
      r.dateRangeFragment = FilterToken.join ts ∧ r.offset = q.offset ∧ r.limit = q.limit := by
  obtain ⟨ts, hrange, rfl⟩ := build_eq h
  exact ⟨ts, hrange, rfl, rfl, rfl, rfl⟩

theorem toList_pagingFragment (r : PageRequest) :
    r.pagingFragment.toList = [("limit=" ++ Text.natural r.limit.toNat).toList,
      ("skip=" ++ Text.natural r.offset.toNat).toList, "count".toList].flatMap ('&' :: ·) := by
  simp [pagingFragment, String.toList_append]

theorem toList_query (h : build namespaceName q now maxLimit = .ok r) :
    r.query.toList = ['&'].intercalate (q.segments now) := by
  obtain ⟨ts, hrange, hfilters, hdate, hoffset, hlimit⟩ := build_ok h
  have hfragment : r.filterFragment.toList =
      ((q.filters.map FilterDraft.effective).map FilterDraft.written).flatMap ('&' :: ·) := by
    rw [hfilters, toList_join, List.map_map, List.map_map]
    exact congrArg _ (List.map_congr_left fun d _ => d.toList_compileEncoded)
  have htext : (r.filterFragment ++ r.dateRangeFragment ++ r.pagingFragment).toList =
      (q.segments now).flatMap ('&' :: ·) := by
    rw [String.toList_append, String.toList_append, hfragment, hdate, toList_join,
      (rangeTokens_ok hrange).1, toList_pagingFragment, hoffset, hlimit, ← List.flatMap_append,
      ← List.flatMap_append, ← List.map_append]
    rfl
  rw [query, String.toList_ofList, htext]
  cases q.segments now with
  | nil => rfl
  | cons l ls =>
    rw [intercalate_cons, List.flatMap_cons, List.cons_append, List.drop_one, List.tail_cons]

theorem splitOn_query (h : build namespaceName q now maxLimit = .ok r)
    (hfields : ∀ d ∈ q.filters, d.PlainField) : r.query.toList.splitOn '&' = q.segments now := by
  rw [toList_query h]
  exact List.splitOn_intercalate '&' (PageQuery.separator_not_mem_segments hfields)
    (by simp [PageQuery.segments])

/-- Split at its separators, an accepted query string has one segment for each condition and then
those of the limit and of the offset and the request for a count. Each condition is the only reading of
its segment. -/
theorem query_reads_back (hbuild : build namespaceName q now maxLimit = .ok r)
    (hfields : ∀ d ∈ q.filters, d.PlainField) :
    r.query.toList.splitOn '&' =
      (q.conditions now).map FilterDraft.written ++
        [("limit=" ++ Text.natural q.limit.toNat).toList,
          ("skip=" ++ Text.natural q.offset.toNat).toList, "count".toList] ∧
    (q.conditions now).length = q.filters.length + q.dateRange.toList.length ∧
    (∀ d ∈ q.conditions now, ∀ e : FilterDraft, e.written = d.written ↔ e = d) ∧
    ∀ namespaceName' q' now' maxLimit' r', build namespaceName' q' now' maxLimit' = .ok r' →
      (∀ d ∈ q'.filters, d.PlainField) → r'.query = r.query →
      q'.conditions now' = q.conditions now ∧ q'.limit = q.limit ∧ q'.offset = q.offset := by
  have hread : ∀ d ∈ q.conditions now, ∀ e : FilterDraft, e.written = d.written → e = d :=
    fun d hd e he => FilterDraft.eq_of_written_eq
      (PageQuery.plainField_of_mem_conditions hfields d hd).1 he
  refine ⟨splitOn_query hbuild hfields, ?_, fun d hd e => ⟨hread d hd e, congrArg _⟩, ?_⟩
  · obtain ⟨ts, hrange, -⟩ := build_ok hbuild
    obtain ⟨htexts, hlength⟩ := rangeTokens_ok hrange
    have hsame := congrArg List.length htexts
    rw [List.length_map, List.length_map, hlength] at hsame
    rw [PageQuery.conditions, List.length_append, List.length_map, hsame]
  · intro namespaceName' q' now' maxLimit' r' hbuild' hfields' hquery
    have hsegments : q'.segments now' = q.segments now := by
      rw [← splitOn_query hbuild' hfields', hquery, splitOn_query hbuild hfields]
    obtain ⟨hconditions, hpaging⟩ := List.append_inj' hsegments rfl
    injection hpaging with hlimit hpaging
    injection hpaging with hoffset
    rw [String.toList_inj, String.append_right_inj, Text.natural_injective.eq_iff,
      UInt64.toNat_inj] at hlimit hoffset
    exact ⟨eq_of_map_eq hread hconditions, hlimit, hoffset⟩

/-- A value looks like a parameter, and a flag is set that its operator does not have. -/
def narrowed : PageQuery where
  entityPath := "tokens/transfers"
  filters := [⟨"pool", .contains, "a&b=ü", true, true⟩, ⟨"amount", .gte, "5", true, false⟩]
  dateRange := some .lastHour
  offset := 20
  limit := 10

theorem narrowed_reads_back :
    ∃ r, build "default" narrowed ⟨1700000000, 0⟩ 100 = .ok r ∧
      r.query.toList.splitOn '&' =
        ["pool=!:@a%26b%3D%C3%BC".toList, "amount=>=5".toList, "created=>=1699996400".toList,
          "limit=10".toList, "skip=20".toList, "count".toList] ∧
      ∀ e : FilterDraft, e.written = "amount=>=5".toList ↔ e = ⟨"amount", .gte, "5", false, false⟩ := by
  have hbuild : ∃ r, build "default" narrowed ⟨1700000000, 0⟩ 100 = .ok r := ⟨_, rfl⟩
  have hfields : ∀ d ∈ narrowed.filters, d.PlainField := by decide
  obtain ⟨r, hr⟩ := hbuild
  obtain ⟨hsegments, -, hread, -⟩ := query_reads_back hr hfields
  have hamount : (⟨"amount", .gte, "5", false, false⟩ : FilterDraft) ∈
      narrowed.conditions ⟨1700000000, 0⟩ := by decide +kernel
  refine ⟨r, hr, hsegments.trans (by decide +kernel), fun e => ?_⟩
  rw [← hread _ hamount e]
  exact iff_of_eq (congrArg (e.written = ·) (by decide +kernel))

end PageRequest

end LedgerExplorer
