import LedgerExplorer.Proofs.Histogram.Aggregation
import Mathlib.Algebra.BigOperators.Group.List.Basic
import Mathlib.Algebra.Order.BigOperators.Group.List
import Mathlib.Algebra.Order.Group.Nat

/-!
# What the sums of a histogram agree on

Counts are summed up within a category, over the categories of a row and over the rows, and each of
these sums is cut at the greatest word wherever it is made. None of the cuts in between can be seen
in the end: what is left is the exact sum, cut once. What carries this is that every addition to a
dictionary of counts adds to its exact sum (`Dict.exactSum`), up to the cut.
-/

namespace LedgerExplorer

theorem toNat_foldl_saturatingAdd (n : UInt64) (ns : List UInt64) :
    (ns.foldl saturatingAdd n).toNat =
      min (n.toNat + (ns.map UInt64.toNat).sum) Text.maxWord := by
  induction ns generalizing n with
  | nil => exact (Nat.min_eq_left (Text.toNat_le_maxWord n)).symm
  | cons x ns ih =>
    rw [List.foldl_cons, ih, toNat_saturatingAdd, List.map_cons, List.sum_cons]
    omega

/-- Cutting the parts of a sum does not show once the sum itself is cut. -/
theorem min_sum_map_min {α : Type} (f : α → Nat) (bound : Nat) (l : List α) :
    min (l.map fun x => min (f x) bound).sum bound = min (l.map f).sum bound := by
  induction l with
  | nil => rfl
  | cons x l ih =>
    simp only [List.map_cons, List.sum_cons]
    omega

/-- A sum over the parts of all items is the sum of their sums. -/
theorem sum_map_flatMap {α β : Type} (f : β → Nat) (parts : α → List β) (l : List α) :
    ((l.flatMap parts).map f).sum = (l.map fun x => ((parts x).map f).sum).sum := by
  rw [List.map_flatMap, List.flatMap_def, List.sum_flatten, List.map_map]
  rfl

namespace Dict

variable {counts : Dict UInt64}

/-- The sum of all counts, however large it is. -/
def exactSum (counts : Dict UInt64) : Nat :=
  (counts.values.map UInt64.toNat).sum

theorem exactSum_eq_sum_entries (counts : Dict UInt64) :
    counts.exactSum = (counts.entries.map fun e => e.2.toNat).sum := by
  unfold exactSum values
  rw [List.map_map]
  rfl

theorem sum_insertEntry {l : List (String × UInt64)} (h : l.Pairwise fun a b => a.1 < b.1)
    (k : String) (n : UInt64) :
    ((insertEntry k n l).map fun e => e.2.toNat).sum + ((l.lookup k).getD 0).toNat =
      (l.map fun e => e.2.toNat).sum + n.toNat := by
  induction l with
  | nil => simp [insertEntry]
  | cons e l ih =>
    obtain ⟨k', n'⟩ := e
    obtain ⟨hhead, htail⟩ := List.pairwise_cons.1 h
    have hrest := ih htail
    unfold insertEntry
    split_ifs with heq hlt
    · subst heq
      simp only [lookup_cons_eq, if_true, Option.getD_some, List.map_cons, List.sum_cons]
      omega
    · have hnone : l.lookup k = none :=
        lookup_eq_none_of_lt fun e he => String.lt_trans hlt (hhead e he)
      simp only [lookup_cons_eq, if_neg heq, hnone, Option.getD_none, List.map_cons, List.sum_cons,
        UInt64.toNat_zero]
      omega
    · simp only [lookup_cons_eq, if_neg heq, List.map_cons, List.sum_cons]
      omega

/-- An insertion puts the new count in place of the old one. -/
theorem exactSum_insert (counts : Dict UInt64) (c : String) (n : UInt64) :
    (counts.insert c n).exactSum + ((counts.get? c).getD 0).toNat =
      counts.exactSum + n.toNat := by
  rw [exactSum_eq_sum_entries, exactSum_eq_sum_entries]
  exact sum_insertEntry counts.sorted c n

theorem toNat_getD_le_exactSum (counts : Dict UInt64) (c : String) :
    ((counts.get? c).getD 0).toNat ≤ counts.exactSum := by
  have hzero := exactSum_insert counts c 0
  rw [UInt64.toNat_zero] at hzero
  omega

theorem exactSum_eq_zero_iff :
    counts.exactSum = 0 ↔ ∀ c n, counts.get? c = some n → n = 0 := by
  unfold exactSum
  rw [List.sum_eq_zero_iff, List.forall_mem_map]
  constructor
  · intro h c n hget
    apply UInt64.toNat_inj.1
    exact h n (List.mem_map.2 ⟨(c, n), mem_entries.2 hget, rfl⟩)
  · intro h n hn
    obtain ⟨e, he, rfl⟩ := List.mem_map.1 hn
    rw [h e.1 e.2 (mem_entries.1 he), UInt64.toNat_zero]

/-- Adds a count to the one under its key, up to the greatest word. -/
def addCount (counts : Dict UInt64) (e : String × UInt64) : Dict UInt64 :=
  counts.insert e.1 (saturatingAdd ((counts.get? e.1).getD 0) e.2)

/-- The sum of the counts under a key, however large it is. -/
def sumUnder (c : String) (es : List (String × UInt64)) : Nat :=
  ((es.filter fun e => e.1 = c).map fun e => e.2.toNat).sum

theorem toNat_getD_addCount (counts : Dict UInt64) (e : String × UInt64) (c : String) :
    (((counts.addCount e).get? c).getD 0).toNat =
      min (((counts.get? c).getD 0).toNat + sumUnder c [e]) Text.maxWord := by
  have hword := Text.toNat_le_maxWord ((counts.get? c).getD 0)
  unfold addCount sumUnder
  rw [get?_insert]
  by_cases hc : c = e.1
  · subst hc
    simp [toNat_saturatingAdd]
  · simpa [hc, Ne.symm hc] using hword

theorem min_exactSum_addCount (counts : Dict UInt64) (e : String × UInt64) :
    min (counts.addCount e).exactSum Text.maxWord =
      min (counts.exactSum + e.2.toNat) Text.maxWord := by
  have hinsert := exactSum_insert counts e.1 (saturatingAdd ((counts.get? e.1).getD 0) e.2)
  have hold := toNat_getD_le_exactSum counts e.1
  rw [toNat_saturatingAdd] at hinsert
  unfold addCount
  omega

theorem mem_keys_foldl_addCount {es : List (String × UInt64)} {c : String} :
    c ∈ (es.foldl addCount counts).keys ↔ c ∈ counts.keys ∨ c ∈ es.map Prod.fst := by
  induction es generalizing counts with
  | nil => simp
  | cons e es ih =>
    rw [List.foldl_cons, ih, addCount, mem_keys_insert, List.map_cons, List.mem_cons]
    tauto

theorem sumUnder_cons (c : String) (e : String × UInt64) (es : List (String × UInt64)) :
    sumUnder c (e :: es) = sumUnder c [e] + sumUnder c es := by
  unfold sumUnder
  rw [← List.sum_append, ← List.map_append, ← List.filter_append, List.singleton_append]

/-- What stands under a key after additions is the exact sum under it, cut once. -/
theorem toNat_getD_foldl_addCount (es : List (String × UInt64)) (counts : Dict UInt64)
    (c : String) :
    (((es.foldl addCount counts).get? c).getD 0).toNat =
      min (((counts.get? c).getD 0).toNat + sumUnder c es) Text.maxWord := by
  induction es generalizing counts with
  | nil => exact (Nat.min_eq_left (Text.toNat_le_maxWord _)).symm
  | cons e es ih =>
    rw [List.foldl_cons, ih, toNat_getD_addCount, sumUnder_cons c e es]
    omega

/-- Additions add to the sum of all counts, up to the cut. -/
theorem min_exactSum_foldl_addCount (es : List (String × UInt64)) (counts : Dict UInt64) :
    min (es.foldl addCount counts).exactSum Text.maxWord =
      min (counts.exactSum + (es.map fun e => e.2.toNat).sum) Text.maxWord := by
  induction es generalizing counts with
  | nil => rfl
  | cons e es ih =>
    have hadd := min_exactSum_addCount counts e
    rw [List.foldl_cons, ih, List.map_cons, List.sum_cons]
    omega

theorem sumUnder_of_nodup {es : List (String × UInt64)} (h : (es.map Prod.fst).Nodup) (c : String) :
    sumUnder c es = ((es.lookup c).getD 0).toNat := by
  induction es with
  | nil => rfl
  | cons e es ih =>
    obtain ⟨k, n⟩ := e
    obtain ⟨hk, hrest⟩ := List.nodup_cons.1 h
    rw [sumUnder_cons, ih hrest, lookup_cons_eq]
    by_cases hc : c = k
    · subst hc
      have hnone : es.lookup c = none := by
        apply Option.eq_none_iff_forall_ne_some.2
        intro n hn
        exact hk (List.mem_map.2 ⟨(c, n), mem_of_lookup hn, rfl⟩)
      simp [sumUnder, hnone]
    · simp [sumUnder, hc, Ne.symm hc]

/-- A dictionary has at most one count under a key. -/
theorem sumUnder_entries (counts : Dict UInt64) (c : String) :
    sumUnder c counts.entries = ((counts.get? c).getD 0).toNat :=
  sumUnder_of_nodup counts.nodup_keys c

end Dict

theorem BucketRow.toNat_total (r : BucketRow) :
    r.total.toNat = min r.counts.exactSum Text.maxWord := by
  unfold total Dict.exactSum
  rw [toNat_foldl_saturatingAdd, UInt64.toNat_zero, Nat.zero_add]

namespace MetricSample

variable {s : MetricSample} {m : CategoryMap} {c : String}

/-- The sum of the counts of a sample whose types are mapped, however large it is. -/
def mappedCount (s : MetricSample) (m : CategoryMap) : Nat :=
  ((s.types.filter fun t => (m.categoryOf? t.type).isSome).map fun t => t.count.toNat).sum

theorem mappedCount_eq_zero_iff :
    s.mappedCount m = 0 ↔ ∀ t ∈ s.types, (m.categoryOf? t.type).isSome → t.count = 0 := by
  unfold mappedCount
  rw [List.sum_eq_zero_iff, List.forall_mem_map]
  simp only [List.mem_filter, and_imp, ← UInt64.toNat_inj, UInt64.toNat_zero]

theorem exactCount_of_not_mem (hc : c ∉ m.categories) : s.exactCount m c = 0 := by
  have hnone : (s.types.filter fun t => m.categoryOf? t.type = some c) = [] := by
    apply List.filter_eq_nil_iff.2
    intro t _ ht
    exact hc (CategoryMap.mem_categories.2 ⟨t.type, of_decide_eq_true ht⟩)
  unfold exactCount
  rw [hnone]
  rfl

end MetricSample

namespace Histogram

variable {m : CategoryMap} {rows : List BucketRow} {c : String}

/-! ## Rows of samples -/

theorem min_exactSum_foldl_addEntry (counts : Dict UInt64) (ts : List TypeCount) :
    min (ts.foldl (addEntry m) counts).exactSum Text.maxWord =
      min (counts.exactSum + ((ts.filter fun t => (m.categoryOf? t.type).isSome).map
        fun t => t.count.toNat).sum) Text.maxWord := by
  induction ts generalizing counts with
  | nil => rfl
  | cons t ts ih =>
    rw [List.foldl_cons, ih, List.filter_cons, addEntry]
    cases m.categoryOf? t.type with
    | none => rfl
    | some c =>
      have hadd : min (counts.insert c (saturatingAdd ((counts.get? c).getD 0)
          t.count)).exactSum Text.maxWord = min (counts.exactSum + t.count.toNat) Text.maxWord :=
        Dict.min_exactSum_addCount counts (c, t.count)
      simp only [Option.isSome_some, if_true, List.map_cons, List.sum_cons]
      omega

theorem exactSum_zeros (d : Dict Unit) : (d.map fun _ => (0 : UInt64)).exactSum = 0 := by
  apply Dict.exactSum_eq_zero_iff.2
  intro c n hget
  rw [Dict.get?_map, Option.map_eq_some_iff] at hget
  obtain ⟨_, -, rfl⟩ := hget
  rfl

theorem min_exactSum_rowOf (m : CategoryMap) (s : MetricSample) :
    min (rowOf m s).counts.exactSum Text.maxWord = min (s.mappedCount m) Text.maxWord := by
  have hfold := min_exactSum_foldl_addEntry (m := m) (m.categorySet.map fun _ => 0) s.types
  rwa [exactSum_zeros, Nat.zero_add] at hfold

theorem exactSum_rowOf_eq_zero_iff {s : MetricSample} :
    (rowOf m s).counts.exactSum = 0 ↔ s.mappedCount m = 0 := by
  have hcut := min_exactSum_rowOf m s
  have hpos : 0 < Text.maxWord := by decide
  omega

theorem toNat_get_rowOf (m : CategoryMap) (s : MetricSample) (c : String) :
    ((rowOf m s).get c).toNat = min (s.exactCount m c) Text.maxWord := by
  unfold BucketRow.get
  by_cases hc : c ∈ m.categories
  · obtain ⟨n, hget, hn⟩ := Option.map_eq_some_iff.1 (count_rowOf s hc)
    rw [hget, Option.getD_some, hn, Nat.min_comm]
  · have hnone : (rowOf m s).counts.get? c = none := by
      rwa [← keys_rowOf m s, Dict.mem_keys, Option.not_isSome_iff_eq_none] at hc
    rw [hnone, MetricSample.exactCount_of_not_mem hc, Nat.zero_min]
    rfl

/-! ## Totals over rows -/

/-- The totals take the counts of all rows, one after the other. -/
theorem totals_eq_foldl (rows : List BucketRow) :
    totals rows = (rows.flatMap fun r => r.counts.entries).foldl Dict.addCount .empty :=
  List.foldl_flatMap.symm

theorem mem_keys_totals : c ∈ (totals rows).keys ↔ ∃ r ∈ rows, c ∈ r.counts.keys := by
  rw [totals_eq_foldl, Dict.mem_keys_foldl_addCount, List.map_flatMap, List.mem_flatMap]
  exact or_iff_right (by simp [Dict.keys, Dict.empty])

theorem toNat_getD_totals (rows : List BucketRow) (c : String) :
    (((totals rows).get? c).getD 0).toNat =
      min (rows.map fun r => (r.get c).toNat).sum Text.maxWord := by
  have hrows : Dict.sumUnder c (rows.flatMap fun r => r.counts.entries) =
      (rows.map fun r => (r.get c).toNat).sum := by
    unfold Dict.sumUnder
    rw [List.filter_flatMap, sum_map_flatMap]
    apply congrArg List.sum
    exact List.map_congr_left fun r _ => r.counts.sumUnder_entries c
  rw [totals_eq_foldl, Dict.toNat_getD_foldl_addCount, hrows, Dict.get?_empty, Option.getD_none,
    UInt64.toNat_zero, Nat.zero_add]

theorem min_exactSum_totals (rows : List BucketRow) :
    min (totals rows).exactSum Text.maxWord =
      min (rows.map fun r => r.counts.exactSum).sum Text.maxWord := by
  have hrows : ((rows.flatMap fun r => r.counts.entries).map fun e => e.2.toNat).sum =
      (rows.map fun r => r.counts.exactSum).sum := by
    rw [sum_map_flatMap]
    apply congrArg List.sum
    exact List.map_congr_left fun r _ => r.counts.exactSum_eq_sum_entries.symm
  have hempty : (Dict.empty : Dict UInt64).exactSum = 0 := rfl
  rw [totals_eq_foldl, Dict.min_exactSum_foldl_addCount, hrows, hempty, Nat.zero_add]

/-- It does not matter whether all is added up row by row or category by category. -/
theorem sum_totals_eq_sum_total (rows : List BucketRow) :
    (totals rows).values.foldl saturatingAdd 0 = (rows.map BucketRow.total).foldl saturatingAdd 0 := by
  apply UInt64.toNat_inj.1
  have htotals : (totals rows).exactSum = ((totals rows).values.map UInt64.toNat).sum := rfl
  have hrows : ((rows.map BucketRow.total).map UInt64.toNat).sum =
      (rows.map fun r => min r.counts.exactSum Text.maxWord).sum := by
    rw [List.map_map]
    exact congrArg List.sum (List.map_congr_left fun r _ => r.toNat_total)
  rw [toNat_foldl_saturatingAdd, toNat_foldl_saturatingAdd, UInt64.toNat_zero, Nat.zero_add,
    Nat.zero_add, ← htotals, min_exactSum_totals, hrows, min_sum_map_min]

/-! ## Histograms without counts -/

theorem isEmpty_iff_exactSum : isEmpty rows ↔ ∀ r ∈ rows, r.counts.exactSum = 0 := by
  unfold isEmpty Dict.exactSum
  simp only [List.all_eq_true, beq_iff_eq, List.sum_eq_zero_iff, List.forall_mem_map,
    ← UInt64.toNat_inj, UInt64.toNat_zero]

theorem isEmpty_iff_totals : isEmpty rows ↔ ∀ c n, (totals rows).get? c = some n → n = 0 := by
  have hcut := min_exactSum_totals rows
  have hpos : 0 < Text.maxWord := by decide
  rw [isEmpty_iff_exactSum, ← Dict.exactSum_eq_zero_iff, ← List.forall_mem_map (P := (· = 0)),
    ← List.sum_eq_zero_iff]
  omega

theorem isEmpty_iff_total : isEmpty rows ↔ ∀ r ∈ rows, r.total = 0 := by
  have hpos : 0 < Text.maxWord := by decide
  rw [isEmpty_iff_exactSum]
  apply forall₂_congr
  intro r _
  rw [← UInt64.toNat_inj, r.toNat_total, UInt64.toNat_zero]
  omega

theorem isEmpty_aggregate_iff {samples : List MetricSample} :
    isEmpty (aggregate samples m).rows ↔
      ∀ s ∈ samples, ∀ t ∈ s.types, (m.categoryOf? t.type).isSome → t.count = 0 := by
  rw [isEmpty_iff_exactSum]
  unfold aggregate
  rw [List.forall_mem_map]
  apply forall₂_congr
  intro s _
  rw [exactSum_rowOf_eq_zero_iff, MetricSample.mappedCount_eq_zero_iff]

theorem mem_keys_totals_aggregate {samples : List MetricSample} :
    c ∈ (totals (aggregate samples m).rows).keys ↔ samples ≠ [] ∧ c ∈ m.categories := by
  rw [mem_keys_totals]
  constructor
  · rintro ⟨row, hrow, hc⟩
    obtain ⟨s, hs, rfl⟩ := List.mem_map.1 hrow
    exact ⟨List.ne_nil_of_mem hs, keys_rowOf m s ▸ hc⟩
  · rintro ⟨hne, hc⟩
    obtain ⟨s, hs⟩ := List.exists_mem_of_ne_nil samples hne
    exact ⟨rowOf m s, List.mem_map_of_mem hs, (keys_rowOf m s).symm ▸ hc⟩

theorem toNat_getD_totals_aggregate (samples : List MetricSample) (m : CategoryMap) (c : String) :
    (((totals (aggregate samples m).rows).get? c).getD 0).toNat =
      min (samples.map fun s => s.exactCount m c).sum Text.maxWord := by
  have hcounts : (aggregate samples m).rows.map (fun r => (r.get c).toNat) =
      samples.map fun s => min (s.exactCount m c) Text.maxWord := by
    unfold aggregate
    rw [List.map_map]
    exact List.map_congr_left fun s _ => toNat_get_rowOf m s c
  rw [toNat_getD_totals, hcounts, min_sum_map_min]

/-- The total of every row is the sum of all mapped counts of its sample, cut once. If there are
samples, the totals have the categories of the map for their keys, and under each of them the sum of
its counts over all samples, cut once; without samples they are empty. The sum of all totals is the
sum of the totals of all rows. A histogram is empty if all totals are zero, if the totals of all
rows are zero and if the counts of all mapped types are zero, and only then. -/
theorem summaries_agree (samples : List MetricSample) (m : CategoryMap) :
    let rows := (aggregate samples m).rows
    List.Forall₂ (fun s row => row.total.toNat = min (UInt64.size - 1) (s.mappedCount m))
      samples rows ∧
    (∀ c, ((totals rows).get? c).map UInt64.toNat =
      if samples ≠ [] ∧ c ∈ m.categories then
        some (min (UInt64.size - 1) (samples.map fun s => s.exactCount m c).sum)
      else none) ∧
    (totals rows).values.foldl saturatingAdd 0 =
      (rows.map BucketRow.total).foldl saturatingAdd 0 ∧
    (isEmpty rows ↔ ∀ c n, (totals rows).get? c = some n → n = 0) ∧
    (isEmpty rows ↔ ∀ row ∈ rows, row.total = 0) ∧
    (isEmpty rows ↔
      ∀ s ∈ samples, ∀ t ∈ s.types, (m.categoryOf? t.type).isSome → t.count = 0) := by
  intro rows
  refine ⟨?_, ?_, sum_totals_eq_sum_total rows, isEmpty_iff_totals, isEmpty_iff_total,
    isEmpty_aggregate_iff⟩
  · apply List.forall₂_map_right_iff.2
    apply List.forall₂_same.2
    intro s _
    rw [BucketRow.toNat_total, min_exactSum_rowOf, Nat.min_comm]
    rfl
  · intro c
    have hkeys : c ∈ (totals rows).keys ↔ samples ≠ [] ∧ c ∈ m.categories :=
      mem_keys_totals_aggregate
    rw [Dict.mem_keys] at hkeys
    split_ifs with h
    · obtain ⟨n, hn⟩ := Option.isSome_iff_exists.1 (hkeys.2 h)
      have hsum := toNat_getD_totals_aggregate samples m c
      rw [hn, Option.getD_some, Nat.min_comm] at hsum
      rw [hn, Option.map_some, hsum]
      rfl
    · have hnone := Option.not_isSome_iff_eq_none.1 (mt hkeys.1 h)
      rw [hnone, Option.map_none]

/-- Without samples there is no row to say which categories there are. -/
theorem totals_of_no_samples :
    "Token" ∈ sharedCategories.categories ∧
    ((totals (aggregate [] sharedCategories).rows).get? "Token").map UInt64.toNat ≠
      some (min (UInt64.size - 1)
        (([] : List MetricSample).map fun s => s.exactCount sharedCategories "Token").sum) := by
  refine ⟨by decide, ?_⟩
  rintro ⟨⟩

/-- The counts of a category, of a row and of the whole fill a word, each in a different order. -/
def surplusSamples : List MetricSample :=
  [⟨"t0", [⟨"burn", 18446744073709551610⟩, ⟨"broadcast", 9⟩]⟩, ⟨"t1", [⟨"mint", 3⟩, ⟨"unknown", 7⟩]⟩]

theorem surplus_samples_summed :
    let rows := (aggregate surplusSamples sharedCategories).rows
    ((totals rows).get? "Token").map UInt64.toNat = some 18446744073709551613 ∧
    rows.map BucketRow.total = [18446744073709551615, 3] ∧
    (totals rows).values.foldl saturatingAdd 0 = 18446744073709551615 ∧ ¬ isEmpty rows := by
  intro rows
  obtain ⟨-, htotals, hsum, -, -, hempty⟩ := summaries_agree surplusSamples sharedCategories
  have hrows : rows.map BucketRow.total = [18446744073709551615, 3] := by decide
  refine ⟨(htotals "Token").trans (by decide), hrows, hsum.trans ?_, ?_⟩
  · change (rows.map BucketRow.total).foldl saturatingAdd 0 = _
    rw [hrows]
    decide
  · intro h
    have hmint := hempty.1 h ⟨"t1", [⟨"mint", 3⟩, ⟨"unknown", 7⟩]⟩ (by decide) ⟨"mint", 3⟩ (by decide)
      (by decide)
    exact absurd hmint (by decide)

end Histogram

end LedgerExplorer
