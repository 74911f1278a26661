import LedgerExplorer.Histogram.Sample
import LedgerExplorer.Proofs.Json.Printed
import LedgerExplorer.Proofs.Text.Numerals

/-!
# What is read as a count

A count is read from an integer, or from a text with one numeral and blanks around it, and from
nothing else. What is read is the number itself; a number that no word holds is refused, not cut.
-/

namespace LedgerExplorer

/-- The number that a value counts: an integer that is not negative, or the number of the numeral
that stands in a text with nothing but blanks before and behind it. -/
inductive Json.Counts : Json → Nat → Prop
  | integer (k : Nat) : Counts (.number (.integer k)) k
  | text {s : String} {front cs back : List Char} {k : Nat} (split : s.toList = front ++ cs ++ back)
    (blank_front : ∀ c ∈ front, Text.isBlank c) (blank_back : ∀ c ∈ back, Text.isBlank c)
    (numeral : Text.IsNumeral cs k) : Counts (.string s) k

namespace Json

theorem counts_string_iff {s : String} {k : Nat} :
    Counts (.string s) k ↔ Text.IsNumeral (Text.trim s).toList k := by
  rw [Text.isNumeral_trim_iff]
  constructor
  · intro h
    cases h with
    | text hs hfront hback hnumeral => exact ⟨_, _, _, hs, hfront, hback, hnumeral⟩
  · rintro ⟨front, cs, back, hs, hfront, hback, hnumeral⟩
    exact .text hs hfront hback hnumeral

theorem Counts.unique {v : Json} {j k : Nat} (hj : v.Counts j) (hk : v.Counts k) : j = k := by
  cases hj with
  | integer j =>
    generalize hi : (j : Int) = i at hk
    cases hk
    exact Int.ofNat.inj hi
  | text hs hfront hback hnumeral =>
    exact (counts_string_iff.1 (.text hs hfront hback hnumeral)).unique (counts_string_iff.1 hk)

/-- A text that is counted has only blanks, plus signs and digits. -/
theorem Counts.mem {s : String} {k : Nat} (h : Counts (.string s) k) :
    ∀ c ∈ s.toList, Text.isBlank c ∨ c = '+' ∨ c.isDigit := by
  cases h with
  | text hs hfront hback hnumeral =>
    simp only [hs, List.forall_mem_append]
    exact ⟨⟨fun c hc => .inl (hfront c hc), fun c hc => .inr (hnumeral.mem c hc)⟩,
      fun c hc => .inl (hback c hc)⟩

/-- An integer and its numeral count the same. -/
theorem counts_string_integer_iff {i : Int} {k : Nat} :
    Counts (.string (Text.integer i)) k ↔ Counts (.number (.integer i)) k := by
  cases i with
  | ofNat n =>
    have hnumeral : Counts (.string (Text.integer (.ofNat n))) n :=
      .text (Text.toList_natural n ▸ (List.append_nil _).symm) (List.forall_mem_nil _)
        (List.forall_mem_nil _) (Text.isNumeral_digits n)
    constructor
    · intro h
      exact h.unique hnumeral ▸ .integer n
    · intro h
      exact h.unique (.integer n) ▸ hnumeral
  | negSucc n =>
    constructor
    · intro h
      have hsign := h.mem '-' (by rw [Text.integer, String.toList_ofList]; exact List.mem_cons_self)
      exact absurd hsign (by decide)
    · intro h
      cases h

theorem counts_integer_iff {i : Int} {k : Nat} : Counts (.number (.integer i)) k ↔ i = k := by
  constructor
  · intro h
    cases h with
    | integer => rfl
  · rintro rfl
    exact .integer k

end Json

variable {m : Medium} {n : UInt64}

theorem Decoder.count_eq_ok_iff_of_value? {r : Reading} {v : Json} (h : r.value? = some v) :
    Decoder.count m r = .ok n ↔ v.Counts n.toNat := by
  have hwhole : r.whole = .ok v := by
    unfold Reading.whole
    rw [h]
  unfold Decoder.count
  rw [hwhole]
  cases v with
  | number x =>
    cases x with
    | integer i =>
      rw [Json.counts_integer_iff]
      change (if 0 ≤ i ∧ i ≤ Unsigned.long.max then Except.ok (UInt64.ofNat i.toNat)
        else .error DecodeError.noCount) = Except.ok n ↔ _
      split
      · next hi =>
        have hword : i.toNat < UInt64.size := Nat.lt_of_le_of_lt (Int.toNat_le.2 hi.2) (by decide)
        rw [Except.ok.injEq, ← UInt64.toNat_inj, UInt64.toNat_ofNat_of_lt' hword]
        omega
      · next hi =>
        refine ⟨nofun, ?_⟩
        rintro rfl
        exact absurd ⟨Int.natCast_nonneg _, Int.ofNat_le.2 (Text.toNat_le_maxWord n)⟩ hi
    | double x => exact ⟨nofun, nofun⟩
  | string s =>
    rw [Json.counts_string_iff, ← Text.readWord_eq_ok_iff]
    dsimp only [bind, Except.bind]
    cases Text.readWord (Text.trim s) with
    | error e => exact ⟨nofun, nofun⟩
    | ok k => rw [Except.mapError, Except.ok.injEq, Except.ok.injEq]
  | null => exact ⟨nofun, nofun⟩
  | bool b => exact ⟨nofun, nofun⟩
  | array items => exact ⟨nofun, nofun⟩
  | object members => exact ⟨nofun, nofun⟩

/-- What holds no value has no count. -/
theorem Decoder.count_eq_ok_iff {r : Reading} :
    Decoder.count m r = .ok n ↔ ∃ v, r.value? = some v ∧ v.Counts n.toNat := by
  cases hvalue : r.value? with
  | none =>
    have hcount : Decoder.count m r = .error .malformed := by
      unfold Decoder.count Reading.whole
      rw [hvalue]
      rfl
    rw [hcount]
    exact ⟨nofun, nofun⟩
  | some v =>
    rw [Decoder.count_eq_ok_iff_of_value? hvalue]
    exact ⟨fun h => ⟨v, rfl, h⟩, fun ⟨w, hw, h⟩ => Option.some.inj hw ▸ h⟩

theorem Decoder.count_reading_eq_ok_iff {v : Json} :
    Decoder.count m v.reading = .ok n ↔ v.Counts n.toNat :=
  Decoder.count_eq_ok_iff_of_value? v.value?_reading

/-- A count is refused only if the value counts no number that a word holds. -/
theorem Decoder.count_reading_error_iff {v : Json} :
    (∃ e, Decoder.count m v.reading = .error e) ↔ ∀ k, v.Counts k → UInt64.size ≤ k := by
  constructor
  · rintro ⟨e, he⟩ k hk
    by_contra hlt
    have hcount : Decoder.count m v.reading = .ok (UInt64.ofNat k) := by
      rw [Decoder.count_reading_eq_ok_iff, UInt64.toNat_ofNat_of_lt' (Nat.lt_of_not_le hlt)]
      exact hk
    rw [hcount] at he
    cases he
  · intro h
    cases hcount : Decoder.count m v.reading with
    | error e => exact ⟨e, rfl⟩
    | ok n =>
      have hsize := h n.toNat (Decoder.count_reading_eq_ok_iff.1 hcount)
      exact absurd n.toNat_lt (Nat.not_lt_of_le hsize)

namespace TypeCount

/-- A record is refused for its count only, and with the same report. -/
theorem decode_type_count (m : Medium) (type : String) (v : Json) :
    (decode : Decoder TypeCount) m
        (Json.object [("type", .string type), ("count", v)]).reading =
      (Decoder.count m v.reading).map (TypeCount.mk type) := by
  have hvisit : layout.visit m [] [(some "type", .string (some type)), (some "count", v.reading)] =
      ((Decoder.count m v.reading).map fun _ => ()).bind fun _ => .ok () := rfl
  have hdecode : (decode : Decoder TypeCount) m
        (Json.object [("type", .string type), ("count", v)]).reading =
      (layout.visit m [] [(some "type", .string (some type)), (some "count", v.reading)]).bind fun _ =>
        (Decoder.count m v.reading).bind fun n => .ok ⟨type, n⟩ := rfl
  rw [hdecode, hvisit]
  cases Decoder.count m v.reading with
  | error e => rfl
  | ok n => rfl

/-- A count is read as a number exactly if the value counts that number, from whatever it is read;
else it is refused. No value counts two numbers, and an integer and its decimal string are read alike.
The count of a record is the one of its member. -/
theorem counts_decoded_exactly (m : Medium) :
    (∀ (v : Json) (n : UInt64), Decoder.count m v.reading = .ok n ↔ v.Counts n.toNat) ∧
    (∀ (r : Reading) (n : UInt64),
      Decoder.count m r = .ok n ↔ ∃ v, r.value? = some v ∧ v.Counts n.toNat) ∧
    (∀ v : Json, (∃ e, Decoder.count m v.reading = .error e) ↔
      ∀ k, v.Counts k → UInt64.size ≤ k) ∧
    (∀ (v : Json) (j k : Nat), v.Counts j → v.Counts k → j = k) ∧
    (∀ (i : Int) (n : UInt64), Decoder.count m (Json.number (.integer i)).reading = .ok n ↔
      Decoder.count m (Json.string (Text.integer i)).reading = .ok n) ∧
    (∀ (type : String) (v : Json), (decode : Decoder TypeCount) m
        (Json.object [("type", .string type), ("count", v)]).reading =
      (Decoder.count m v.reading).map (TypeCount.mk type)) := by
  refine ⟨fun v n => Decoder.count_reading_eq_ok_iff, fun r n => Decoder.count_eq_ok_iff,
    fun v => Decoder.count_reading_error_iff, fun v j k hj hk => hj.unique hk, fun i n => ?_,
    decode_type_count m⟩
  rw [Decoder.count_reading_eq_ok_iff, Decoder.count_reading_eq_ok_iff,
    Json.counts_string_integer_iff]

/-- The greatest word is read from a text with blanks, a plus sign and zeros; the next number is
refused, and so counts nothing that fits in a word. -/
theorem greatest_count_decoded :
    Decoder.count .text (Json.string "\u2003+00018446744073709551615\n").reading =
        .ok 18446744073709551615 ∧
      ∀ k, (Json.string "18446744073709551616").Counts k → UInt64.size ≤ k := by
  have hgreatest : (Json.string "\u2003+00018446744073709551615\n").Counts 18446744073709551615 :=
    .text (show _ = ['\u2003'] ++ ('+' :: "00018446744073709551615".toList) ++ ['\n'] by decide)
      (List.forall_mem_singleton.2 rfl) (List.forall_mem_singleton.2 rfl)
      ⟨_, .inr rfl, by decide, List.all_eq_true.1 (by decide), by decide⟩
  exact ⟨((counts_decoded_exactly .text).1 _ _).2 hgreatest,
    ((counts_decoded_exactly .text).2.2.1 _).1 ⟨.numeral .tooLarge, rfl⟩⟩

end TypeCount

end LedgerExplorer
