import LedgerExplorer.Histogram.Row
import LedgerExplorer.Proofs.Dictionaries
import LedgerExplorer.Proofs.Samples
import LedgerExplorer.Proofs.Session.Callers
import LedgerExplorer.Proofs.Text.Natural
import Mathlib.Algebra.Ring.Nat
import Mathlib.Data.List.Forall2

/-!
# What a histogram counts

A row has one count for every category of the map, and the count is the exact sum over the entries
of the category, cut at the greatest word. The cut can be made after every addition or once at the
end, so that neither the order of the entries nor how many types share the category matters.
-/

namespace LedgerExplorer

theorem toNat_saturatingAdd (a b : UInt64) :
    (saturatingAdd a b).toNat = min (a.toNat + b.toNat) Text.maxWord :=
  Text.toNat_ofNat_min_maxWord _

theorem CategoryMap.mem_categories {m : CategoryMap} {c : String} :
    c ∈ m.categories ↔ ∃ type, m.categoryOf? type = some c := by
  have htypes (spec : CategorySpec) :
      spec ∈ m.types.values ↔ ∃ type, m.get? type = some spec := by
    simp only [Dict.values, List.mem_map, Prod.exists, exists_eq_right, Dict.mem_entries, get?]
  unfold categories categorySet
  rw [Dict.mem_keys_ofList, List.map_map, List.mem_map]
  simp only [htypes, Function.comp_apply, categoryOf?, Option.map_eq_some_iff]
  exact ⟨fun ⟨spec, ⟨type, htype⟩, hspec⟩ => ⟨type, spec, htype, hspec⟩,
    fun ⟨type, spec, htype, hspec⟩ => ⟨spec, ⟨type, htype⟩, hspec⟩⟩

namespace MetricSample

/-- The sum of the counts of a sample under a category, however large it is. -/
def exactCount (s : MetricSample) (m : CategoryMap) (c : String) : Nat :=
  ((s.types.filter fun t => m.categoryOf? t.type = some c).map fun t => t.count.toNat).sum

end MetricSample

namespace Histogram

variable {m : CategoryMap} {c : String}

theorem keys_addEntry {counts : Dict UInt64} (h : ∀ c ∈ m.categories, c ∈ counts.keys)
    (t : TypeCount) : (addEntry m counts t).keys = counts.keys := by
  unfold addEntry
  split
  · next c hc =>
    apply Dict.keys_eq_of_mem_iff
    intro k
    rw [Dict.mem_keys_insert, or_iff_right_iff_imp]
    rintro rfl
    exact h k (CategoryMap.mem_categories.2 ⟨t.type, hc⟩)
  · rfl

theorem keys_foldl_addEntry {counts : Dict UInt64} (h : ∀ c ∈ m.categories, c ∈ counts.keys)
    (ts : List TypeCount) : (ts.foldl (addEntry m) counts).keys = counts.keys := by
  induction ts generalizing counts with
  | nil => rfl
  | cons t ts ih =>
    have hkeys := keys_addEntry h t
    rw [List.foldl_cons, ih (hkeys.symm ▸ h), hkeys]

theorem get?_addEntry {counts : Dict UInt64} {n : UInt64} (h : counts.get? c = some n)
    (t : TypeCount) :
    (addEntry m counts t).get? c =
      some (if m.categoryOf? t.type = some c then saturatingAdd n t.count else n) := by
  unfold addEntry
  split
  · next c' hc' =>
    rw [Dict.get?_insert, hc']
    by_cases hc : c = c'
    · subst hc
      simp [h]
    · simp [hc, Ne.symm hc, h]
  · next hnone => simp [hnone, h]

/-- Cutting after every addition is cutting once at the end. -/
theorem get?_foldl_addEntry {counts : Dict UInt64} {n : UInt64} (h : counts.get? c = some n)
    (ts : List TypeCount) :
    ((ts.foldl (addEntry m) counts).get? c).map UInt64.toNat = some (min Text.maxWord
      (n.toNat + ((ts.filter fun t => m.categoryOf? t.type = some c).map
        fun t => t.count.toNat).sum)) := by
  induction ts generalizing counts n with
  | nil =>
    simp [h, Text.toNat_le_maxWord n]
  | cons t ts ih =>
    rw [List.foldl_cons, ih (get?_addEntry h t), List.filter_cons]
    by_cases ht : m.categoryOf? t.type = some c
    · simp only [ht, if_true, decide_true, List.map_cons, List.sum_cons, toNat_saturatingAdd]
      congr 1
      omega
    · simp [ht]

theorem keys_rowOf (m : CategoryMap) (s : MetricSample) :
    (rowOf m s).counts.keys = m.categories := by
  unfold rowOf
  rw [keys_foldl_addEntry, Dict.keys_map]
  · rfl
  · intro c hc
    rwa [Dict.keys_map]

theorem count_rowOf (s : MetricSample) (hc : c ∈ m.categories) :
    ((rowOf m s).counts.get? c).map UInt64.toNat = some (min Text.maxWord (s.exactCount m c)) := by
  have hzero : (m.categorySet.map fun _ => (0 : UInt64)).get? c = some 0 := by
    rw [CategoryMap.categories, Dict.mem_keys, Option.isSome_iff_exists] at hc
    obtain ⟨u, hu⟩ := hc
    rw [Dict.get?_map, hu, Option.map_some]
  have hsum := get?_foldl_addEntry (m := m) hzero s.types
  rwa [UInt64.toNat_zero, Nat.zero_add] at hsum

theorem dropped_aggregate (samples : List MetricSample) (m : CategoryMap) :
    (aggregate samples m).dropped = ((samples.flatMap MetricSample.types).filter
      fun t => m.categoryOf? t.type = none).length := by
  have hfold (n : Nat) : samples.foldl (fun n s => n + droppedOf m s) n =
      n + ((samples.flatMap MetricSample.types).filter
        fun t => m.categoryOf? t.type = none).length := by
    induction samples generalizing n with
    | nil => rfl
    | cons s samples ih =>
      rw [List.foldl_cons, ih, List.flatMap_cons, List.filter_append, List.length_append,
        droppedOf, List.countP_eq_length_filter, Nat.add_assoc]
      congr 3
      refine List.filter_congr fun t _ => ?_
      cases m.categoryOf? t.type <;> rfl
  exact (hfold 0).trans (Nat.zero_add _)

end Histogram

theorem Session.receive_of_histogram {R E : Type} {s : Session R E} {n : Nat} {c : Caller R E}
    (hc : s.caller? n = some c) {path : String} {m : CategoryMap} (hjob : c.job = .histogram path m)
    {reply : Reply} {samples : List MetricSample}
    (hreply : reply.decode decode path = .ok samples) :
    s.receive n reply =
      (s.count (List.replicate (Histogram.aggregate samples m).dropped .droppedType)).finish n
        (.buckets (Histogram.aggregate samples m).rows) := by
  unfold receive
  rw [show s.callers.find? (·.number == n) = some c from hc]
  dsimp only
  rw [hjob]
  dsimp only
  rw [hreply]

namespace Histogram

/-- Aggregating samples gives one row for each of them, in order, with its timestamp. The row has
the categories of the map for its keys, and under each of them the exact sum of the counts of its
types, or the greatest word if that is less. The counter of dropped types rises by the number of
entries whose type is not mapped. -/
theorem aggregation_exact (samples : List MetricSample) (m : CategoryMap) :
    let h := aggregate samples m
    let dropped := ((samples.flatMap MetricSample.types).filter
      fun t => m.categoryOf? t.type = none).length
    m.categories.Nodup ∧ (∀ c, c ∈ m.categories ↔ ∃ type, m.categoryOf? type = some c) ∧
    List.Forall₂ (fun s row => row.timestamp = s.timestamp ∧ row.counts.keys = m.categories ∧
      ∀ c ∈ m.categories, (row.counts.get? c).map UInt64.toNat =
        some (min (UInt64.size - 1) (s.exactCount m c))) samples h.rows ∧
    h.dropped = dropped ∧
    ∀ (R E : Type) (s : Session R E) (c : Caller R E) (path : String) (reply : Reply),
      s.caller? c.number = some c → c.job = .histogram path m →
      reply.decode decode path = .ok samples →
        (s.receive c.number reply).results c.number = s.results c.number ++ [.buckets h.rows] ∧
        Counter.grown (s.receive c.number reply).counters .droppedType =
          Counter.grown s.counters .droppedType + dropped := by
  intro h dropped
  have hdropped : h.dropped = dropped := dropped_aggregate samples m
  refine ⟨m.categorySet.nodup_keys, fun c => CategoryMap.mem_categories, ?_, hdropped, ?_⟩
  · apply List.forall₂_map_right_iff.2
    apply List.forall₂_same.2
    intro s _
    exact ⟨rfl, keys_rowOf m s, fun c hc => count_rowOf s hc⟩
  · intro R E s c path reply hc hjob hreply
    rw [Session.receive_of_histogram hc hjob hreply]
    constructor
    · rw [Session.results_finish, if_pos rfl]
      rfl
    · have hcounters : ((s.count (List.replicate h.dropped .droppedType)).finish c.number
          (.buckets h.rows)).counters =
          s.log ++ List.replicate h.dropped .droppedType ++ (s.resolver.map Resolver.log).getD [] :=
        rfl
      rw [hcounters, Counter.grown_eq_count, Counter.grown_eq_count, Session.counters]
      simp only [List.count_append, List.count_replicate_self, hdropped]
      omega

/-- Two types share a category, one of them is counted twice, and the sum does not fit in a word. -/
def sharedCategories : CategoryMap :=
  .ofList [("mint", { category := "Token" }), ("burn", { category := "Token" }),
    ("broadcast", { category := "Message" })]

def crowdedSamples : List MetricSample :=
  [⟨"t0", [⟨"burn", 18446744073709551610⟩, ⟨"mint", 3⟩, ⟨"unknown", 7⟩, ⟨"mint", 9⟩]⟩, ⟨"t1", []⟩]

def crowdedBody : Json := encode crowdedSamples

theorem crowded_samples_aggregated :
    let request : HistogramRequest := ⟨"default", "tokens", 0, 3600, 2⟩
    let s : Session Unit Unit := Session.opened { namespaceName := "default" } ⟨1700000000, 0⟩ none
    let t := (s.step (.start (.histogram request sharedCategories))).receive 0 (.body crowdedBody)
    t.results 0 = [.buckets
      [⟨"t0", .ofList [("Message", 0), ("Token", 18446744073709551615)]⟩,
        ⟨"t1", .ofList [("Message", 0), ("Token", 0)]⟩]] ∧
    Counter.grown t.counters .droppedType = 1 := by
  intro request s t
  obtain ⟨-, -, -, -, hsession⟩ := aggregation_exact crowdedSamples sharedCategories
  obtain ⟨hresults, hgrown⟩ := hsession Unit Unit
    (s.step (.start (.histogram request sharedCategories)))
    { number := 0, job := .histogram request.path sharedCategories } request.path
    (.body crowdedBody) rfl rfl rfl
  refine ⟨hresults.trans ?_, hgrown.trans (by decide)⟩
  exact congrArg (fun rows => [Result.buckets rows]) (by decide)

end Histogram

end LedgerExplorer
