import LedgerExplorer.Proofs.Filter.Edits
import LedgerExplorer.Proofs.Filter.Tokens
import LedgerExplorer.Proofs.Page.QueryString
import LedgerExplorer.Proofs.Text.Order

/-!
# The filters of a set and of a request

The same drafts make a fragment of a filter set, with the values as they are, and one of a request, with
the values percent-encoded. Decoded, the second is the first; as they stand, they are the same exactly
if no value needs escapes.
-/

namespace LedgerExplorer

namespace FilterDraft

variable {ds : List FilterDraft}

/-- Decoding a fragment decodes its tokens one by one. -/
theorem percentDecode_fragment (h : ∀ d ∈ ds, '%' ∉ d.field.toList) :
    Text.percentDecode (ds.flatMap fun d => '&' :: d.compileEncoded.text.toList) =
      (ds.flatMap fun d => '&' :: d.compile.text.toList).flatMap String.utf8EncodeChar := by
  induction ds with
  | nil => rfl
  | cons d ds ih =>
    obtain ⟨hd, hds⟩ := List.forall_mem_cons.1 h
    rw [List.flatMap_cons, List.flatMap_cons, List.cons_append,
      Text.percentDecode_of_ne (by decide), percentDecode_compileEncoded_append hd, ih hds,
      List.cons_append, List.flatMap_cons, List.flatMap_append]

/-- No encoded token makes up for a value that was escaped before it. -/
theorem fragments_eq_iff (ds : List FilterDraft) :
    (ds.flatMap fun d => '&' :: d.compileEncoded.text.toList) =
        (ds.flatMap fun d => '&' :: d.compile.text.toList) ↔
      ∀ d ∈ ds, ∀ c ∈ d.value.toList, Text.isUnreserved c := by
  constructor
  · intro h d hd
    have hle : ∀ d ∈ ds,
        ('&' :: d.compile.text.toList).length ≤ ('&' :: d.compileEncoded.text.toList).length :=
      fun d _ => Nat.succ_le_succ d.length_compile_le
    have htoken := eq_of_flatMap_eq hle h.symm d hd
    exact d.compile_eq_compileEncoded_iff.1 (List.tail_eq_of_cons_eq htoken)
  · intro h
    refine List.flatMap_congr fun d hd => ?_
    rw [d.compile_eq_compileEncoded_iff.2 (h d hd)]

end FilterDraft

namespace PageRequest

/-- Filters only fill their fragment: whether there is a request does not depend on them. -/
theorem build_eq_map (namespaceName : String) (q : PageQuery) (now : Instant) (maxLimit : UInt64) :
    build namespaceName q now maxLimit =
      (build namespaceName { q with filters := [] } now maxLimit).map fun r =>
        { r with filterFragment := FilterToken.join (q.filters.map FilterDraft.compileEncoded) } := by
  have hrange : rangeTokens { q with filters := [] } now = rangeTokens q now := rfl
  unfold build
  rw [hrange]
  by_cases hpath : Text.trimSlashes q.entityPath = ""
  · rw [if_pos hpath, if_pos hpath]
    rfl
  by_cases hlimit : q.limit = 0 ∨ maxLimit < q.limit
  · rw [if_neg hpath, if_neg hpath, if_pos hlimit, if_pos hlimit]
    rfl
  rw [if_neg hpath, if_neg hpath, if_neg hlimit, if_neg hlimit]
  cases rangeTokens q now <;> rfl

theorem toList_filterFragment {namespaceName : String} {q : PageQuery} {now : Instant}
    {maxLimit : UInt64} {r : PageRequest} (h : build namespaceName q now maxLimit = .ok r) :
    r.filterFragment.toList = q.filters.flatMap fun d => '&' :: d.compileEncoded.text.toList := by
  obtain ⟨-, -, hfilters, -⟩ := build_ok h
  rw [hfilters, toList_join, List.map_map, List.flatMap_map]
  rfl

/-- After any edits, the fragment of a set has the tokens of the drafts that are still there, in the order
in which they were added. A query for these drafts makes a request exactly if one without filters
does. The fragment of that request stands for the bytes of the set's one if no field has a percent sign,
and is the same text exactly if every value consists of unreserved characters. -/
theorem fragments_agree (es : List FilterSet.Edit) (namespaceName : String) (q : PageQuery)
    (now : Instant) (maxLimit : UInt64) :
    let ds := FilterSet.survivors 0 es
    let set := FilterSet.ofEdits es
    set.fragment.toList = ds.flatMap (fun d => '&' :: d.compile.text.toList) ∧
    ((∃ r, build namespaceName { q with filters := ds } now maxLimit = .ok r) ↔
      ∃ r, build namespaceName { q with filters := [] } now maxLimit = .ok r) ∧
    ∀ r, build namespaceName { q with filters := ds } now maxLimit = .ok r →
      ((∀ d ∈ ds, '%' ∉ d.field.toList) →
        Text.percentDecode r.filterFragment.toList = Text.bytes set.fragment) ∧
      (r.filterFragment = set.fragment ↔
        ∀ d ∈ ds, ∀ c ∈ d.value.toList, Text.isUnreserved c) := by
  intro ds set
  have hset : set.fragment.toList = ds.flatMap (fun d => '&' :: d.compile.text.toList) :=
    FilterSet.toList_fragment_ofEdits es
  refine ⟨hset, ?_, fun r hr => ?_⟩
  · rw [build_eq_map]
    cases build namespaceName { q with filters := [] } now maxLimit <;> simp [Except.map]
  · have hrequest := toList_filterFragment hr
    constructor
    · intro hfields
      rw [hrequest, Text.bytes_eq_flatMap, hset]
      exact FilterDraft.percentDecode_fragment hfields
    · rw [← String.toList_inj, hrequest, hset]
      exact FilterDraft.fragments_eq_iff ds

/-- A filter moves up before an index that is out of range is removed, and a value has an escape. -/
def reordered : List FilterSet.Edit :=
  [.add ⟨"type", .eq, "mint", false, false⟩, .clear, .add ⟨"amount", .gte, "5", true, false⟩,
    .add ⟨"pool", .contains, "a&b=ü%41", true, true⟩, .remove 0, .remove 1,
    .add ⟨"key", .startsWith, "0x", false, false⟩]

theorem reordered_fragments_agree :
    (FilterSet.ofEdits reordered).fragment = "&pool=!:@a&b=ü%41&key=^0x" ∧
    ∃ r, build "default" { PageQuery.first "tokens/transfers" 10 with
        filters := FilterSet.survivors 0 reordered } ⟨1700000000, 0⟩ 100 = .ok r ∧
      Text.percentDecode r.filterFragment.toList = Text.bytes "&pool=!:@a&b=ü%41&key=^0x" ∧
      r.filterFragment ≠ "&pool=!:@a&b=ü%41&key=^0x" := by
  obtain ⟨hset, hsome, hagree⟩ := fragments_agree reordered "default"
    (.first "tokens/transfers" 10) ⟨1700000000, 0⟩ 100
  have hsurvivors : FilterSet.survivors 0 reordered =
      [⟨"pool", .contains, "a&b=ü%41", true, true⟩, ⟨"key", .startsWith, "0x", false, false⟩] := by
    decide
  have hfragment : (FilterSet.ofEdits reordered).fragment = "&pool=!:@a&b=ü%41&key=^0x" := by
    rw [← String.toList_inj, hset, hsurvivors]
    decide
  obtain ⟨r, hr⟩ := hsome.2 ⟨_, rfl⟩
  obtain ⟨hdecode, hsame⟩ := hagree r hr
  rw [hfragment, hsurvivors] at hdecode hsame
  refine ⟨hfragment, r, hr, hdecode (by decide), fun h => ?_⟩
  have hreserved := hsame.1 h _ List.mem_cons_self '&' (by decide)
  exact absurd hreserved (by decide)

end PageRequest

end LedgerExplorer
