import LedgerExplorer.Proofs.Histogram.Aggregation
import LedgerExplorer.Proofs.Json.Printed

/-!
# Rows read back

The counts of a row stand beside its timestamp, so a category can be named like it. A row without
such a category is read back from its text; in the text of any other row the reader meets the
timestamp twice and refuses it.
-/

namespace LedgerExplorer

namespace BucketRow

/-- A count as it is met in the text of a row. -/
def reading (e : String × UInt64) : String × Reading :=
  (e.1, (encode e.2 : Json).reading)

theorem long_reading (m : Medium) (e : String × UInt64) :
    Decoder.long m (reading e).2 = .ok e.2 := by
  have hword : (e.2.toNat : Int) ≤ Unsigned.long.max :=
    Int.ofNat_le.2 (Text.toNat_le_maxWord e.2)
  have hunsigned : Decoder.unsigned .long m (reading e).2 = .ok e.2.toNat :=
    if_pos ⟨Int.natCast_nonneg _, hword⟩
  unfold Decoder.long
  rw [hunsigned, Except.map, UInt64.ofNat_toNat]

theorem collect_counts (m : Medium) {p : Partial} (hp : p.timestamp.isSome)
    (es : List (String × UInt64)) :
    collect m p (es.map fun e => (some e.1, (reading e).2)) =
      if "timestamp" ∈ es.map Prod.fst then .error (.duplicateField "timestamp")
      else .ok { p with rest := p.rest ++ es.map reading } := by
  induction es generalizing p with
  | nil => simp [collect]
  | cons e es ih =>
    have hwhole : (reading e).2.whole = .ok (encode e.2) := rfl
    rw [List.map_cons, collect, hwhole]
    by_cases hname : e.1 = "timestamp"
    · simp [hname, hp]
    · have hrest := ih (p := { p with rest := p.rest ++ [reading e] }) hp
      rw [List.append_assoc] at hrest
      simp only [if_neg hname, List.map_cons, List.mem_cons, Ne.symm hname, false_or]
      exact hrest

theorem collectCounts_map_reading (m : Medium) (acc : Dict UInt64) (es : List (String × UInt64)) :
    collectCounts m acc (es.map reading) = .ok (es.foldl (fun d e => d.insert e.1 e.2) acc) := by
  induction es generalizing acc with
  | nil => rfl
  | cons e es ih =>
    rw [List.map_cons, collectCounts, long_reading]
    exact ih _

theorem reading_encode (r : BucketRow) : (encode r : Json).reading =
    .object ((some "timestamp", .string (some r.timestamp)) ::
      r.counts.entries.map fun e => (some e.1, (reading e).2)) true := by
  have hmembers := Json.memberReadings_eq_map r.members
  unfold members Dict.map at hmembers
  rw [List.map_cons, List.map_map] at hmembers
  exact congrArg (Reading.object · true) hmembers

theorem decode_reading_encode (m : Medium) (r : BucketRow) :
    (decode m (encode r : Json).reading : Except DecodeError BucketRow) =
      if "timestamp" ∈ r.counts.keys then .error (.duplicateField "timestamp") else .ok r := by
  rw [reading_encode]
  change (collect m { timestamp := some r.timestamp }
    (r.counts.entries.map fun e => (some e.1, (reading e).2))).bind _ = _
  rw [collect_counts m rfl]
  split
  · next h => exact (if_pos h).symm
  · next h =>
    have hcounts : collectCounts m .empty (r.counts.entries.map reading) = .ok r.counts :=
      (collectCounts_map_reading m .empty _).trans (congrArg Except.ok r.counts.ofList_entries)
    simp only [Except.bind, List.nil_append, hcounts]
    exact (if_neg h).symm

theorem legible_encode (r : BucketRow) : Json.Legible Reading.maxDepth (encode r) := by
  refine ⟨by decide, Json.legibleMembers_iff.2 ?_⟩
  intro e he
  rcases List.mem_cons.1 he with rfl | he
  · trivial
  · obtain ⟨e, -, rfl⟩ := List.mem_map.1 he
    refine ⟨?_, Int.ofNat_le.2 (Text.toNat_le_maxWord e.2)⟩
    exact Int.le_trans (by decide) (Int.natCast_nonneg _)

end BucketRow

namespace Histogram

/-- The text of every row is that of an object with the timestamp and one member for every category
of the map. The row is read back from it, unless a category is named like the timestamp: then two
members have that name, and the reader refuses the second. -/
theorem row_reads_back_unless_named_timestamp (samples : List MetricSample) (m : CategoryMap) :
    ∀ row ∈ (aggregate samples m).rows,
      Json.decodeText (fun _ r => r.whole) (encode row : Json).render =
        .ok (.object row.members) ∧
      row.members.map Prod.fst = "timestamp" :: m.categories ∧
      ((row.members.map Prod.fst).Nodup ↔ "timestamp" ∉ m.categories) ∧
      Json.decodeText decode (encode row : Json).render =
        if "timestamp" ∈ m.categories then .error (.duplicateField "timestamp") else .ok row := by
  intro row hrow
  obtain ⟨s, -, rfl⟩ := List.mem_map.1 hrow
  have hkeys : (rowOf m s).counts.keys = m.categories := keys_rowOf m s
  have hnames : (rowOf m s).members.map Prod.fst = "timestamp" :: m.categories := by
    rw [← hkeys]
    exact congrArg ("timestamp" :: ·) (Dict.keys_map _ _)
  have hlegible := BucketRow.legible_encode (rowOf m s)
  refine ⟨?_, hnames, ?_, ?_⟩
  · rw [Json.decodeText_render _ hlegible, Reading.whole, Json.value?_reading]
    rfl
  · rw [hnames, List.nodup_cons]
    exact and_iff_left m.categorySet.nodup_keys
  · rw [Json.decodeText_render _ hlegible, BucketRow.decode_reading_encode, hkeys]

/-- A type is filed under the name of the timestamp. -/
def timestampCategory : CategoryMap :=
  .ofList [("a", { category := "timestamp" })]

theorem row_named_timestamp_refused :
    let row := rowOf timestampCategory ⟨"t0", [⟨"a", 2⟩]⟩
    row = ⟨"t0", .ofList [("timestamp", 2)]⟩ ∧
    (encode row : Json).render = "\x7b\"timestamp\":\"t0\",\"timestamp\":2\x7d" ∧
    Json.decodeText (decode : Decoder BucketRow) (encode row : Json).render =
      .error (.duplicateField "timestamp") := by
  intro row
  obtain ⟨-, -, -, hread⟩ := row_reads_back_unless_named_timestamp [⟨"t0", [⟨"a", 2⟩]⟩]
    timestampCategory row List.mem_cons_self
  have hmembers : encode row =
      Json.object [("timestamp", .string "t0"), ("timestamp", .number (.integer 2))] := rfl
  have hdigits : Text.digits 2 = ['2'] := by
    rw [Text.digits]
    rfl
  have hnumeral : Text.integer 2 = "2" := congrArg String.ofList hdigits
  refine ⟨rfl, ?_, hread⟩
  rw [hmembers]
  simp only [Json.render, Json.renderChars, Json.renderMembers, Json.Number.render, hnumeral]
  decide

end Histogram

end LedgerExplorer
