import LedgerExplorer.Proofs.Histogram.Aggregation
import LedgerExplorer.Proofs.Text.Order
import Mathlib.Data.List.Induction

/-!
# Legends

The legend of a category map, its set of categories and the rows of its histograms are made in three
different ways. They name the same categories in the same order, which is that of the bytes of the
names. A category map remembers of every type the specification that was given last, and nothing of
the order in which types were given.
-/

namespace LedgerExplorer

namespace Dict

universe u

variable {α : Type u}

/-- The value given last for a key. -/
def lastGiven (given : List (String × α)) (k : String) : Option α :=
  given.reverse.lookup k

theorem ofList_concat (l : List (String × α)) (k : String) (x : α) :
    ofList (l ++ [(k, x)]) = (ofList l).insert k x := by
  unfold ofList
  rw [List.foldl_concat]

/-- A dictionary made of a list holds what the list gives last. -/
theorem get?_ofList (l : List (String × α)) (k : String) : (ofList l).get? k = lastGiven l k := by
  induction l using List.reverseRecOn with
  | nil => rfl
  | append_singleton l e ih =>
    rw [ofList_concat, get?_insert, ih]
    unfold lastGiven
    rw [List.reverse_concat, lookup_cons_eq]

theorem keys_in_byte_order (d : Dict α) :
    d.keys.Pairwise fun s t => Text.bytes s < Text.bytes t := by
  apply List.pairwise_map.2
  exact d.sorted.imp Text.bytes_lt_bytes_iff.2

end Dict

/-! ## The first text that is given -/

/-- The first text of a list that is not empty, and the empty text if there is none. -/
def firstGiven (texts : List String) : String :=
  (texts.find? fun s => s ≠ "").getD ""

theorem firstGiven_concat (texts : List String) (s : String) :
    firstGiven (texts ++ [s]) = if firstGiven texts = "" then s else firstGiven texts := by
  unfold firstGiven
  rw [List.find?_append]
  cases hfound : texts.find? fun s => s ≠ "" with
  | some t =>
    have ht : t ≠ "" := by simpa using List.find?_some hfound
    simp [ht]
  | none =>
    by_cases hs : s = "" <;> simp [hs]

namespace LegendEntry

/-- The entry for a category whose types have these specifications. -/
def ofSpecs (c : String) (specs : List CategorySpec) : LegendEntry :=
  ⟨c, firstGiven (specs.map CategorySpec.color), firstGiven (specs.map CategorySpec.nicename)⟩

/-- Fills what is still empty from a specification. -/
def fill (entry : LegendEntry) (spec : CategorySpec) : LegendEntry :=
  { entry with
    color := if entry.color = "" then spec.color else entry.color
    nicename := if entry.nicename = "" then spec.nicename else entry.nicename }

theorem ofSpecs_concat (c : String) (specs : List CategorySpec) (spec : CategorySpec) :
    ofSpecs c (specs ++ [spec]) = (ofSpecs c specs).fill spec := by
  unfold ofSpecs
  rw [List.map_append, List.map_append, List.map_singleton, List.map_singleton, firstGiven_concat,
    firstGiven_concat]
  rfl

end LegendEntry

namespace CategoryMap

variable {m : CategoryMap} {c : String}

/-- The types of a category with their specifications, in the order of their names. -/
def typesOf (m : CategoryMap) (c : String) : List (String × CategorySpec) :=
  m.types.entries.filter fun t => t.2.category = c

/-- A map that was put together from pairs of a type and its specification: they were collected, or
inserted one after the other into a map that was there. -/
inductive BuiltFrom : List (String × CategorySpec) → CategoryMap → Prop
  | collect (given : List (String × CategorySpec)) : BuiltFrom given (.ofList given)
  | insert {given : List (String × CategorySpec)} {m : CategoryMap} (type : String)
      (spec : CategorySpec) (h : BuiltFrom given m) :
      BuiltFrom (given ++ [(type, spec)]) (m.insert type spec)

theorem BuiltFrom.types_eq {given : List (String × CategorySpec)} (h : BuiltFrom given m) :
    m.types = Dict.ofList given := by
  induction h with
  | collect given => rfl
  | insert type spec h ih =>
    rw [Dict.ofList_concat, ← ih]
    rfl

theorem BuiltFrom.get?_eq {given : List (String × CategorySpec)} (h : BuiltFrom given m)
    (type : String) : m.get? type = Dict.lastGiven given type := by
  unfold get?
  rw [h.types_eq, Dict.get?_ofList]

theorem ext_get? {m m' : CategoryMap} (h : ∀ type, m.get? type = m'.get? type) : m = m' :=
  congrArg CategoryMap.mk (Dict.ext_get? h)

/-! ## The entries of a legend -/

/-- Enters a specification into a legend. -/
def enter (acc : Dict LegendEntry) (spec : CategorySpec) : Dict LegendEntry :=
  acc.insert spec.category (((acc.get? spec.category).getD ⟨spec.category, "", ""⟩).fill spec)

theorem legendEntries_eq_foldl (m : CategoryMap) :
    m.legendEntries = m.types.values.foldl enter .empty := rfl

/-- The entry of a category is filled from the specifications of its types, one after the other. -/
theorem get?_foldl_enter (specs : List CategorySpec) (c : String) :
    (specs.foldl enter .empty).get? c =
      if c ∈ specs.map CategorySpec.category then
        some (.ofSpecs c (specs.filter fun spec => spec.category = c))
      else none := by
  induction specs using List.reverseRecOn with
  | nil => rfl
  | append_singleton specs spec ih =>
    rw [List.foldl_concat, enter, Dict.get?_insert, List.filter_append]
    by_cases hc : c = spec.category
    · subst hc
      have hentry : ((specs.foldl enter .empty).get? spec.category).getD ⟨spec.category, "", ""⟩ =
          .ofSpecs spec.category (specs.filter fun s => s.category = spec.category) := by
        rw [ih]
        split_ifs with hmem
        · rfl
        · have hnone : (specs.filter fun s => s.category = spec.category) = [] := by
            apply List.filter_eq_nil_iff.2
            intro s hs heq
            exact hmem (List.mem_map.2 ⟨s, hs, of_decide_eq_true heq⟩)
          rw [hnone]
          rfl
      simp [hentry, LegendEntry.ofSpecs_concat]
    · simp [hc, Ne.symm hc, ih]

theorem get?_legendEntries (m : CategoryMap) (c : String) :
    m.legendEntries.get? c =
      if c ∈ m.categories then
        some (.ofSpecs c ((m.typesOf c).map Prod.snd))
      else none := by
  have hmem : c ∈ m.types.values.map CategorySpec.category ↔ c ∈ m.categories := by
    unfold categories categorySet
    rw [Dict.mem_keys_ofList, List.map_map]
    rfl
  have hspecs : (m.types.values.filter fun spec => spec.category = c) =
      (m.typesOf c).map Prod.snd := by
    unfold Dict.values typesOf
    rw [List.filter_map]
    rfl
  rw [legendEntries_eq_foldl, get?_foldl_enter, hspecs]
  simp only [hmem]

theorem keys_legendEntries (m : CategoryMap) : m.legendEntries.keys = m.categories := by
  apply Dict.keys_eq_of_mem_iff
  intro c
  change c ∈ m.legendEntries.keys ↔ c ∈ m.categories
  rw [Dict.mem_keys, get?_legendEntries]
  split_ifs with hc
  · exact iff_of_true rfl hc
  · exact iff_of_false (by decide) hc

theorem mem_legend {e : LegendEntry} :
    e ∈ m.legend ↔
      e.category ∈ m.categories ∧ e = .ofSpecs e.category ((m.typesOf e.category).map Prod.snd) := by
  have hvalue (c : String) : (c, e) ∈ m.legendEntries.entries ↔
      c ∈ m.categories ∧ e = .ofSpecs c ((m.typesOf c).map Prod.snd) := by
    rw [Dict.mem_entries, get?_legendEntries]
    by_cases hc : c ∈ m.categories <;> simp [hc, eq_comm]
  unfold legend Dict.values
  simp only [List.mem_map, Prod.exists, exists_eq_right, hvalue]
  constructor
  · rintro ⟨c, hc, rfl⟩
    exact ⟨hc, rfl⟩
  · rintro ⟨hc, he⟩
    exact ⟨e.category, hc, he⟩

/-- Every entry of a legend stands under its category. -/
theorem categories_legend (m : CategoryMap) :
    m.legend.map LegendEntry.category = m.categories := by
  rw [← keys_legendEntries]
  unfold legend Dict.values Dict.keys
  rw [List.map_map]
  apply List.map_congr_left
  rintro ⟨c, e⟩ he
  rw [Dict.mem_entries, get?_legendEntries] at he
  split_ifs at he
  cases he
  rfl

/-- The categories of the legend are in strictly increasing order of their bytes. They are the
categories of the map and the keys, in order, of every row of every histogram made with it. The
colour of an entry is the first one that is given in the order of the names of the types of its
category, and so is, on its own, the name to show. A map that is put together from pairs holds for
every type the specification that was given last, and two maps that agree in these are equal, in
their legends and their rows as well. -/
theorem legend_describes_rows (m : CategoryMap) :
    (m.legend.map LegendEntry.category).Pairwise (fun a b => Text.bytes a < Text.bytes b) ∧
    m.legend.map LegendEntry.category = m.categories ∧
    (∀ samples, ∀ row ∈ (Histogram.aggregate samples m).rows, row.counts.keys = m.categories) ∧
    (∀ c, ((m.typesOf c).map Prod.fst).Pairwise fun a b => Text.bytes a < Text.bytes b) ∧
    (∀ e ∈ m.legend,
      e.color = firstGiven ((m.typesOf e.category).map fun t => t.2.color) ∧
      e.nicename = firstGiven ((m.typesOf e.category).map fun t => t.2.nicename)) ∧
    ∀ given, BuiltFrom given m →
      (∀ type, m.get? type = Dict.lastGiven given type) ∧
      ∀ given' m', BuiltFrom given' m' →
        (∀ type, Dict.lastGiven given' type = Dict.lastGiven given type) →
          m' = m ∧ m'.legend = m.legend ∧
          ∀ samples, Histogram.aggregate samples m' = Histogram.aggregate samples m := by
  refine ⟨?_, m.categories_legend, ?_, ?_, ?_, ?_⟩
  · rw [categories_legend]
    exact m.categorySet.keys_in_byte_order
  · intro samples row hrow
    obtain ⟨s, -, rfl⟩ := List.mem_map.1 hrow
    exact Histogram.keys_rowOf m s
  · intro c
    have hsublist : ((m.typesOf c).map Prod.fst).Sublist m.types.keys :=
      List.filter_sublist.map Prod.fst
    exact m.types.keys_in_byte_order.sublist hsublist
  · intro e he
    obtain ⟨-, hentry⟩ := mem_legend.1 he
    constructor
    · rw [hentry]
      exact congrArg firstGiven List.map_map
    · rw [hentry]
      exact congrArg firstGiven List.map_map
  · intro given h
    refine ⟨h.get?_eq, fun given' m' h' hlast => ?_⟩
    have heq : m' = m := by
      apply ext_get?
      intro type
      rw [h'.get?_eq, h.get?_eq, hlast]
    subst heq
    exact ⟨rfl, rfl, fun _ => rfl⟩

/-- One type is given twice, and the types of a category in no order. -/
def transferPairs : List (String × CategorySpec) :=
  [("token_transfer_batch", ⟨"Transfer", "#3", "Transfers"⟩), ("token_transfer", ⟨"Mint", "#9", ""⟩),
    ("token_burn", ⟨"Burn", "#2", "Burn"⟩), ("token_transfer", ⟨"Transfer", "", "Moves"⟩)]

theorem transfer_types_reordered :
    let m := ofList transferPairs
    let m' := (ofList [("token_transfer", ⟨"Transfer", "", "Moves"⟩),
      ("token_transfer_batch", ⟨"Transfer", "#3", "Transfers"⟩)]).insert "token_burn"
        ⟨"Burn", "#2", "Burn"⟩
    m.get? "token_transfer" = some ⟨"Transfer", "", "Moves"⟩ ∧
    m'.legend = [⟨"Burn", "#2", "Burn"⟩, ⟨"Transfer", "#3", "Moves"⟩] ∧
    (Histogram.rowOf m ⟨"t0", []⟩).counts.keys = ["Burn", "Transfer"] := by
  intro m m'
  obtain ⟨-, -, hrows, -, -, hgiven⟩ := legend_describes_rows m
  obtain ⟨hlast, hsame⟩ := hgiven transferPairs (.collect transferPairs)
  have hpairs (type : String) : Dict.lastGiven ([("token_transfer", ⟨"Transfer", "", "Moves"⟩),
      ("token_transfer_batch", ⟨"Transfer", "#3", "Transfers"⟩)] ++
        [("token_burn", (⟨"Burn", "#2", "Burn"⟩ : CategorySpec))]) type =
      Dict.lastGiven transferPairs type := by
    simp only [Dict.lastGiven, transferPairs, List.cons_append, List.nil_append, List.reverse_cons,
      List.reverse_nil, Dict.lookup_cons_eq, List.lookup_nil]
    split_ifs <;> simp_all
  obtain ⟨-, hlegend, -⟩ := hsame _ m' (.insert _ _ (.collect _)) hpairs
  refine ⟨(hlast "token_transfer").trans (by decide), hlegend.trans (by decide), ?_⟩
  have hrow := hrows [⟨"t0", []⟩] (Histogram.rowOf m ⟨"t0", []⟩) List.mem_cons_self
  exact hrow.trans (by decide)

end CategoryMap

end LedgerExplorer
