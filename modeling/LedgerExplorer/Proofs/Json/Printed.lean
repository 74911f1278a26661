import LedgerExplorer.Json.Decode
import LedgerExplorer.Proofs.Json.Scalars

/-!
# Reading printed values back

A value without doubles is read back from its printed form, whatever stands behind it, as long as
that does not continue a numeral. The proof is by recursion on the parts of the value; each step of
the reader is a lemma of its own.
-/

namespace LedgerExplorer

namespace Json

mutual

/-- Whether a value has no doubles, only integers that fit in a word, and no more than `room` arrays
and objects inside one another. -/
def Legible (room : Nat) : Json → Prop
  | .number (.integer n) => IsWord n
  | .number (.double _) => False
  | .array items => 0 < room ∧ LegibleItems (room - 1) items
  | .object members => 0 < room ∧ LegibleMembers (room - 1) members
  | _ => True

def LegibleItems (room : Nat) : List Json → Prop
  | [] => True
  | v :: rest => Legible room v ∧ LegibleItems room rest

def LegibleMembers (room : Nat) : List (String × Json) → Prop
  | [] => True
  | (_, v) :: rest => Legible room v ∧ LegibleMembers room rest

end

theorem legibleMembers_iff {room : Nat} {members : List (String × Json)} :
    LegibleMembers room members ↔ ∀ m ∈ members, Legible room m.2 := by
  induction members with
  | nil => simp [LegibleMembers]
  | cons m members ih => rw [LegibleMembers, ih, List.forall_mem_cons]

theorem memberReadings_eq_map (members : List (String × Json)) :
    memberReadings members = members.map fun m => (some m.1, m.2.reading) := by
  induction members with
  | nil => rfl
  | cons m members ih => rw [memberReadings, ih, List.map_cons]

mutual

/-- The reading of a value is without faults. -/
theorem value?_reading (v : Json) : v.reading.value? = some v := by
  cases v with
  | null | bool | number | string => rfl
  | array items => simp [reading, Reading.value?, values?_readings items]
  | object members => simp [reading, Reading.value?, memberValues?_memberReadings members]

theorem values?_readings (items : List Json) : Reading.values? (readings items) = some items := by
  cases items with
  | nil => rfl
  | cons v items => rw [readings, Reading.values?, value?_reading v, values?_readings items]

theorem memberValues?_memberReadings (members : List (String × Json)) :
    Reading.memberValues? (memberReadings members) = some members := by
  cases members with
  | nil => rfl
  | cons m members =>
    simp [memberReadings, Reading.memberValues?, value?_reading m.2,
      memberValues?_memberReadings members]

end

theorem not_broken_reading (v : Json) : v.reading.broken = false := by
  cases v <;> rfl

theorem within_of_pos {room : Nat} (h : 0 < room) (r : Reading) : r.within room = r := by
  unfold Reading.within
  exact if_neg (Nat.ne_of_gt h)

theorem skipSpace_cons {c : Char} (h : Reading.isSpace c = false) (cs : List Char) :
    Reading.skipSpace (c :: cs) = c :: cs := by
  unfold Reading.skipSpace
  rw [List.dropWhile_cons, h]
  rfl

theorem exists_integer_eq_cons (n : Int) :
    ∃ c cs, (Text.integer n).toList = c :: cs ∧ (c = '-' ∨ c.isDigit) := by
  cases n with
  | ofNat n =>
    rw [Text.integer, Text.toList_natural]
    obtain ⟨c, cs, hcs, hc⟩ := Text.exists_digits_eq_cons n
    exact ⟨c, cs, hcs, .inr hc⟩
  | negSucc n =>
    rw [Text.integer, String.toList_ofList]
    exact ⟨_, _, rfl, .inl rfl⟩

theorem isSpace_of_numeral {c : Char} (hc : c = '-' ∨ c.isDigit) : Reading.isSpace c = false := by
  rw [Bool.eq_false_iff]
  intro hspace
  simp only [Reading.isSpace, Bool.or_eq_true, beq_iff_eq] at hspace
  obtain ((rfl | rfl) | rfl) | rfl := hspace <;> exact absurd hc (by decide)

/-- A printed value starts with a character that is neither a blank nor a closing bracket. -/
theorem exists_renderChars_eq_cons {room : Nat} {v : Json} (hv : Legible room v) :
    ∃ c cs, v.renderChars = c :: cs ∧ Reading.isSpace c = false ∧ c ≠ ']' := by
  cases v with
  | null => exact ⟨_, _, rfl, rfl, by decide⟩
  | bool b => cases b <;> exact ⟨_, _, rfl, rfl, by decide⟩
  | number n =>
    cases n with
    | integer n =>
      obtain ⟨c, cs, hcs, hc⟩ := exists_integer_eq_cons n
      refine ⟨c, cs, hcs, isSpace_of_numeral hc, ?_⟩
      rintro rfl
      exact absurd hc (by decide)
    | double x => exact hv.elim
  | string s => exact ⟨_, _, rfl, rfl, by decide⟩
  | array items => exact ⟨_, _, rfl, rfl, by decide⟩
  | object members => exact ⟨_, _, rfl, rfl, by decide⟩

theorem readValue_numeral (fuel room : Nat) {c : Char} (hc : c = '-' ∨ c.isDigit) {cs : List Char}
    {l : Numeral} {after : List Char} (h : readNumeral (c :: cs) = some (l, after)) :
    Reading.readValue (fuel + 1) room (c :: cs) = (.number l.value?, after) := by
  unfold Reading.readValue
  rw [skipSpace_cons (isSpace_of_numeral hc)]
  split
  case h_7 => rw [h]
  all_goals
    next heq =>
      cases heq
      exact absurd hc (by decide)

theorem readValue_quotation (fuel room : Nat) {rest after : List Char} {s : Option String}
    (h : readQuotation rest = some (s, after)) :
    Reading.readValue (fuel + 1) room ('"' :: rest) = (.string s, after) := by
  rw [Reading.readValue, skipSpace_cons rfl]
  simp only [h]

theorem readValue_bracket (fuel room : Nat) {c : Char} {cs after : List Char} {rs : List Reading}
    {closed : Bool} (hspace : Reading.isSpace c = false) (hc : c ≠ ']')
    (h : Reading.readItems fuel (room - 1) (c :: cs) = (rs, closed, after)) :
    Reading.readValue (fuel + 1) room ('[' :: c :: cs) =
      (.within room (.array rs closed), after) := by
  rw [Reading.readValue, skipSpace_cons rfl]
  simp only [skipSpace_cons hspace, h]
  split
  · next heq =>
    cases heq
    exact absurd rfl hc
  · rfl

theorem readValue_brace (fuel room : Nat) {cs after : List Char}
    {ms : List (Option String × Reading)} {closed : Bool}
    (h : Reading.readMembers fuel (room - 1) ('"' :: cs) = (ms, closed, after)) :
    Reading.readValue (fuel + 1) room ('\x7b' :: '"' :: cs) =
      (.within room (.object ms closed), after) := by
  rw [Reading.readValue, skipSpace_cons rfl]
  simp only [h]
  rfl

section Steps

variable {fuel room : Nat} {cs rest after : List Char} {r : Reading} {k : Option String}

theorem readItems_last (h : Reading.readValue fuel room cs = (r, ']' :: rest))
    (hr : r.broken = false) : Reading.readItems (fuel + 1) room cs = ([r], true, rest) := by
  rw [Reading.readItems, h]
  simp [skipSpace_cons, Reading.isSpace, hr]

theorem readItems_comma (h : Reading.readValue fuel room cs = (r, ',' :: rest))
    (hr : r.broken = false) {rs : List Reading} {closed : Bool}
    (hrest : Reading.readItems fuel room rest = (rs, closed, after)) :
    Reading.readItems (fuel + 1) room cs = (r :: rs, closed, after) := by
  rw [Reading.readItems, h]
  simp [skipSpace_cons, Reading.isSpace, hr, hrest]

theorem readMembers_last (hk : readQuotation cs = some (k, ':' :: rest))
    (h : Reading.readValue fuel room rest = (r, '\x7d' :: after)) (hr : r.broken = false) :
    Reading.readMembers (fuel + 1) room ('"' :: cs) = ([(k, r)], true, after) := by
  rw [Reading.readMembers, skipSpace_cons rfl]
  simp [hk, skipSpace_cons, Reading.isSpace, h, hr]

theorem readMembers_comma {rest' : List Char} (hk : readQuotation cs = some (k, ':' :: rest))
    (h : Reading.readValue fuel room rest = (r, ',' :: rest')) (hr : r.broken = false)
    {ms : List (Option String × Reading)} {closed : Bool}
    (hrest : Reading.readMembers fuel room rest' = (ms, closed, after)) :
    Reading.readMembers (fuel + 1) room ('"' :: cs) = ((k, r) :: ms, closed, after) := by
  rw [Reading.readMembers, skipSpace_cons rfl]
  simp [hk, skipSpace_cons, Reading.isSpace, h, hr, hrest]

end Steps

theorem exists_renderItems_cons (v : Json) (items : List Json) :
    ∃ tail, renderItems (v :: items) = v.renderChars ++ tail := by
  cases items with
  | nil => exact ⟨[], (List.append_nil _).symm⟩
  | cons v' items => exact ⟨_, rfl⟩

theorem exists_renderMembers_cons (m : String × Json) (members : List (String × Json)) :
    ∃ tail, renderMembers (m :: members) = '"' :: tail := by
  cases members with
  | nil => exact ⟨_, rfl⟩
  | cons m' members => exact ⟨_, rfl⟩

mutual

theorem readValue_renderChars (fuel : Nat) {room : Nat} (v : Json) (hv : Legible room v)
    (hfuel : 2 * v.renderChars.length ≤ fuel) (rest : List Char) (hrest : Delimits rest) :
    Reading.readValue fuel room (v.renderChars ++ rest) = (v.reading, rest) := by
  obtain ⟨c, cs, hcs, -, -⟩ := exists_renderChars_eq_cons hv
  have hpos : 0 < v.renderChars.length := by simp [hcs]
  obtain ⟨fuel, rfl⟩ : ∃ k, fuel = k + 1 := ⟨fuel - 1, by omega⟩
  cases v with
  | null => rfl
  | bool b => cases b <;> rfl
  | number n =>
    cases n with
    | integer n =>
      obtain ⟨c, cs, hcs, hc⟩ := exists_integer_eq_cons n
      have hread := readNumeral_integer n hrest
      rw [hcs, List.cons_append] at hread
      rw [renderChars, Number.render, hcs, List.cons_append, readValue_numeral fuel room hc hread,
        value?_ofInt hv]
      rfl
    | double x => exact hv.elim
  | string s =>
    rw [renderChars, renderString, List.cons_append, List.cons_append, List.append_assoc]
    exact readValue_quotation fuel room (readQuotation_renderString s rest)
  | array items =>
    obtain ⟨hroom, hitems⟩ := hv
    cases items with
    | nil => exact congrArg (·, rest) (within_of_pos hroom _)
    | cons v items =>
      have hread := readItems_renderItems fuel (v :: items) hitems (by simp)
        (by simp [renderChars] at hfuel; omega) rest
      obtain ⟨tail, htail⟩ := exists_renderItems_cons v items
      obtain ⟨c, cs, hcs, hspace, hc⟩ := exists_renderChars_eq_cons hitems.1
      have hbracket : (array (v :: items)).renderChars ++ rest =
          '[' :: (renderItems (v :: items) ++ ']' :: rest) := by simp [renderChars]
      rw [hbracket]
      rw [htail, hcs, List.append_assoc, List.cons_append] at hread ⊢
      rw [readValue_bracket fuel room hspace hc hread]
      exact congrArg (·, rest) (within_of_pos hroom _)
  | object members =>
    obtain ⟨hroom, hmembers⟩ := hv
    cases members with
    | nil => exact congrArg (·, rest) (within_of_pos hroom _)
    | cons m members =>
      have hread := readMembers_renderMembers fuel (m :: members) hmembers (by simp)
        (by simp [renderChars] at hfuel; omega) rest
      obtain ⟨tail, htail⟩ := exists_renderMembers_cons m members
      have hbrace : (object (m :: members)).renderChars ++ rest =
          '\x7b' :: (renderMembers (m :: members) ++ '\x7d' :: rest) := by simp [renderChars]
      rw [hbrace]
      rw [htail, List.cons_append] at hread ⊢
      rw [readValue_brace fuel room hread]
      exact congrArg (·, rest) (within_of_pos hroom _)

theorem readItems_renderItems (fuel : Nat) {room : Nat} (items : List Json)
    (hitems : LegibleItems room items) (hne : items ≠ [])
    (hfuel : 2 * (renderItems items).length < fuel) (rest : List Char) :
    Reading.readItems fuel room (renderItems items ++ ']' :: rest) =
      (readings items, true, rest) := by
  obtain ⟨fuel, rfl⟩ : ∃ k, fuel = k + 1 := ⟨fuel - 1, by omega⟩
  match items with
  | [] => exact absurd rfl hne
  | [v] =>
    rw [renderItems] at hfuel ⊢
    apply readItems_last _ (not_broken_reading v)
    exact readValue_renderChars fuel v hitems.1 (by omega) _ (by simp [Delimits])
  | v :: v' :: items =>
    have hcomma : renderItems (v :: v' :: items) =
        v.renderChars ++ ',' :: renderItems (v' :: items) := rfl
    rw [hcomma, List.length_append, List.length_cons] at hfuel
    rw [hcomma, List.append_assoc, List.cons_append]
    apply readItems_comma _ (not_broken_reading v)
    · exact readItems_renderItems fuel (v' :: items) hitems.2 (by simp) (by omega) rest
    · exact readValue_renderChars fuel v hitems.1 (by omega) _ (by simp [Delimits])

theorem readMembers_renderMembers (fuel : Nat) {room : Nat} (members : List (String × Json))
    (hmembers : LegibleMembers room members) (hne : members ≠ [])
    (hfuel : 2 * (renderMembers members).length < fuel) (rest : List Char) :
    Reading.readMembers fuel room (renderMembers members ++ '\x7d' :: rest) =
      (memberReadings members, true, rest) := by
  obtain ⟨fuel, rfl⟩ : ∃ k, fuel = k + 1 := ⟨fuel - 1, by omega⟩
  match members with
  | [] => exact absurd rfl hne
  | [(k, v)] =>
    have hcolon : renderMembers [(k, v)] =
        '"' :: (k.toList.flatMap escapedChar ++ '"' :: ':' :: v.renderChars) := by
      simp [renderMembers, renderString]
    rw [hcolon] at hfuel ⊢
    simp only [List.length_append, List.length_cons] at hfuel
    rw [List.cons_append, List.append_assoc, List.cons_append, List.cons_append]
    apply readMembers_last (readQuotation_renderString k _) _ (not_broken_reading v)
    exact readValue_renderChars fuel v hmembers.1 (by omega) _ (by simp [Delimits])
  | (k, v) :: m :: members =>
    have hcomma : renderMembers ((k, v) :: m :: members) =
        '"' :: (k.toList.flatMap escapedChar ++
          '"' :: ':' :: (v.renderChars ++ ',' :: renderMembers (m :: members))) := by
      simp [renderMembers, renderString]
    rw [hcomma] at hfuel ⊢
    simp only [List.length_append, List.length_cons] at hfuel
    rw [List.cons_append, List.append_assoc, List.cons_append, List.cons_append, List.append_assoc,
      List.cons_append]
    apply readMembers_comma (readQuotation_renderString k _) _ (not_broken_reading v)
    · exact readMembers_renderMembers fuel (m :: members) hmembers.2 (by simp) (by omega) rest
    · exact readValue_renderChars fuel v hmembers.1 (by omega) _ (by simp [Delimits])

end

/-- A printed value is read back whole. -/
theorem ofText_render {v : Json} (hv : Legible Reading.maxDepth v) :
    Reading.ofText v.render = (v.reading, true) := by
  have hread := readValue_renderChars (2 * v.renderChars.length + 1) v hv (by omega) [] nofun
  unfold Reading.ofText render
  rw [String.toList_ofList]
  rw [List.append_nil] at hread
  simp only [hread]
  rfl

theorem ofText?_render {v : Json} (hv : Legible Reading.maxDepth v) :
    ofText? v.render = some v.canonical := by
  unfold ofText?
  rw [ofText_render hv]
  dsimp only
  rw [value?_reading, Option.map_some]

theorem decodeText_render {α : Type} (d : Decoder α) {v : Json}
    (hv : Legible Reading.maxDepth v) :
    decodeText d v.render = d .text v.reading := by
  unfold decodeText
  rw [ofText_render hv]
  dsimp only
  cases d .text v.reading <;> rfl

end Json

end LedgerExplorer
