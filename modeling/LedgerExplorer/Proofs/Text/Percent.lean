import LedgerExplorer.Json.Quotation
import LedgerExplorer.Proofs.Lists
import LedgerExplorer.Text.Percent
import Mathlib.Logic.Function.Basic

/-!
# Reading percent-encoding back

An encoded text consists of unreserved characters and percent signs. Decoding it (`percentDecode`) gives
the bytes of the original text, so no two texts are encoded alike. A text is its own encoding only if
it holds nothing that is escaped.

A text that nobody encoded can be decoded as well, where a percent sign without digits behind it
stands for itself. It stands for its own bytes only if it holds no escape: every escape makes it
shorter.
-/

namespace LedgerExplorer.Text

variable {keep : Char → Bool} {c : Char} {cs : List Char}

/-- The characters of an encoded text. -/
def isEscaped (c : Char) : Bool := isUnreserved c || c == '%'

theorem isEscaped_of_isUnreserved (h : isUnreserved c) : isEscaped c := by
  rw [isEscaped, h, Bool.true_or]

theorem isUnreserved_hexDigit : ∀ n < 16, isUnreserved (hexDigit n) := by decide

theorem hexValue?_hexDigit : ∀ n < 16, Json.hexValue? (hexDigit n) = some n := by decide

theorem isEscaped_of_mem_percentByte {b : UInt8} (h : c ∈ percentByte b) : isEscaped c := by
  have hhigh : b.toNat / 16 < 16 := Nat.div_lt_of_lt_mul b.toNat_lt
  have hlow : b.toNat % 16 < 16 := Nat.mod_lt _ (by decide)
  simp only [percentByte, List.mem_cons, List.not_mem_nil, or_false] at h
  rcases h with rfl | rfl | rfl
  · decide
  · exact isEscaped_of_isUnreserved (isUnreserved_hexDigit _ hhigh)
  · exact isEscaped_of_isUnreserved (isUnreserved_hexDigit _ hlow)

theorem isEscaped_of_mem_percentEncodeWith (h : c ∈ percentEncodeWith isUnreserved cs) :
    isEscaped c := by
  obtain ⟨a, -, ha⟩ := List.mem_flatMap.1 h
  unfold percentChar at ha
  split at ha
  · next hkeep =>
    cases List.mem_singleton.1 ha
    exact isEscaped_of_isUnreserved hkeep
  · obtain ⟨b, -, hb⟩ := List.mem_flatMap.1 ha
    exact isEscaped_of_mem_percentByte hb

theorem percentEncodeWith_eq_self (h : ∀ c ∈ cs, keep c) : percentEncodeWith keep cs = cs := by
  induction cs with
  | nil => rfl
  | cons c cs ih =>
    obtain ⟨hc, hcs⟩ := List.forall_mem_cons.1 h
    rw [percentEncodeWith, List.flatMap_cons, percentChar, if_pos hc]
    exact congrArg (c :: ·) (ih hcs)

/-- The bytes that a text stands for: a percent sign with two digits behind it is one byte. -/
def percentDecode : List Char → List UInt8
  | '%' :: high :: low :: cs =>
    match Json.hexValue? high, Json.hexValue? low with
    | some h, some l => UInt8.ofNat (h * 16 + l) :: percentDecode cs
    | _, _ => String.utf8EncodeChar '%' ++ percentDecode (high :: low :: cs)
  | c :: cs => String.utf8EncodeChar c ++ percentDecode cs
  | [] => []

/-! ## Encoded texts -/

theorem percentDecode_of_ne (h : c ≠ '%') (cs : List Char) :
    percentDecode (c :: cs) = String.utf8EncodeChar c ++ percentDecode cs := by
  rw [percentDecode]
  intro high low rest hc
  exact absurd hc h

theorem percentDecode_percentByte (b : UInt8) (cs : List Char) :
    percentDecode (percentByte b ++ cs) = b :: percentDecode cs := by
  have hhigh : b.toNat / 16 < 16 := Nat.div_lt_of_lt_mul b.toNat_lt
  have hlow : b.toNat % 16 < 16 := Nat.mod_lt _ (by decide)
  simp only [percentByte, List.cons_append, List.nil_append, percentDecode,
    hexValue?_hexDigit _ hhigh, hexValue?_hexDigit _ hlow, Nat.div_add_mod', UInt8.ofNat_toNat]

theorem percentDecode_flatMap_percentByte (bs : List UInt8) (cs : List Char) :
    percentDecode (bs.flatMap percentByte ++ cs) = bs ++ percentDecode cs := by
  induction bs with
  | nil => rfl
  | cons b bs ih =>
    rw [List.flatMap_cons, List.append_assoc, percentDecode_percentByte, ih, List.cons_append]

theorem percentDecode_percentChar (hkeep : keep '%' = false) (c : Char) (cs : List Char) :
    percentDecode (percentChar keep c ++ cs) = String.utf8EncodeChar c ++ percentDecode cs := by
  unfold percentChar
  split
  · next hc =>
    apply percentDecode_of_ne
    rintro rfl
    cases hkeep.symm.trans hc
  · exact percentDecode_flatMap_percentByte _ cs

/-- An encoded text stands for the bytes of the original, whatever follows it. -/
theorem percentDecode_percentEncodeWith_append (hkeep : keep '%' = false) (cs rest : List Char) :
    percentDecode (percentEncodeWith keep cs ++ rest) =
      cs.flatMap String.utf8EncodeChar ++ percentDecode rest := by
  induction cs with
  | nil => rfl
  | cons c cs ih =>
    calc
      percentDecode (percentEncodeWith keep (c :: cs) ++ rest)
        = percentDecode (percentChar keep c ++ (percentEncodeWith keep cs ++ rest)) := by
          rw [percentEncodeWith, List.flatMap_cons, List.append_assoc, percentEncodeWith]
      _ = String.utf8EncodeChar c ++ (cs.flatMap String.utf8EncodeChar ++ percentDecode rest) := by
          rw [percentDecode_percentChar hkeep, ih]
      _ = (c :: cs).flatMap String.utf8EncodeChar ++ percentDecode rest := by
          rw [List.flatMap_cons, List.append_assoc]

/-- A text without percent signs stands for itself: it is encoded where only these are escaped. -/
theorem percentDecode_append (h : '%' ∉ cs) (rest : List Char) :
    percentDecode (cs ++ rest) = cs.flatMap String.utf8EncodeChar ++ percentDecode rest := by
  have hself : percentEncodeWith (fun c => c != '%') cs = cs :=
    percentEncodeWith_eq_self fun c hc => bne_iff_ne.2 fun heq => h (heq ▸ hc)
  calc
    percentDecode (cs ++ rest)
      = percentDecode (percentEncodeWith (fun c => c != '%') cs ++ rest) := by rw [hself]
    _ = cs.flatMap String.utf8EncodeChar ++ percentDecode rest :=
        percentDecode_percentEncodeWith_append rfl cs rest

theorem flatMap_utf8EncodeChar_injective :
    Function.Injective (List.flatMap String.utf8EncodeChar) := by
  intro cs cs' h
  have hstring : String.ofList cs = String.ofList cs' := by
    rw [← String.toByteArray_inj, String.toByteArray_ofList, String.toByteArray_ofList]
    exact congrArg List.toByteArray h
  exact String.ofList_injective hstring

theorem percentEncodeWith_injective (hkeep : keep '%' = false) :
    Function.Injective (percentEncodeWith keep) := by
  intro cs cs' h
  have hbytes (cs : List Char) :
      percentDecode (percentEncodeWith keep cs) = cs.flatMap String.utf8EncodeChar := by
    simpa [percentDecode] using percentDecode_percentEncodeWith_append hkeep cs []
  apply flatMap_utf8EncodeChar_injective
  calc
    cs.flatMap String.utf8EncodeChar
      = percentDecode (percentEncodeWith keep cs) := (hbytes cs).symm
    _ = percentDecode (percentEncodeWith keep cs') := congrArg percentDecode h
    _ = cs'.flatMap String.utf8EncodeChar := hbytes cs'

/-! ## Texts that are their own encoding -/

theorem length_percentChar (keep : Char → Bool) (c : Char) :
    (percentChar keep c).length = if keep c then 1 else 3 * c.utf8Size := by
  unfold percentChar
  split
  · rfl
  · simp [List.length_flatMap, percentByte, Nat.mul_comm, String.length_utf8EncodeChar]

theorem length_percentChar_pos (keep : Char → Bool) (c : Char) :
    0 < (percentChar keep c).length := by
  have hsize := c.utf8Size_pos
  rw [length_percentChar]
  split <;> omega

theorem length_le_length_percentEncodeWith (keep : Char → Bool) (cs : List Char) :
    cs.length ≤ (percentEncodeWith keep cs).length := by
  calc
    cs.length = (cs.flatMap fun c => [c]).length := by rw [List.flatMap_singleton']
    _ ≤ (cs.flatMap (percentChar keep)).length :=
        length_flatMap_le fun c _ => length_percentChar_pos keep c

theorem percentChar_eq_singleton_iff : percentChar keep c = [c] ↔ keep c := by
  constructor
  · intro h
    have hlength := congrArg List.length h
    rw [length_percentChar, List.length_singleton] at hlength
    split at hlength
    · assumption
    · omega
  · exact fun h => if_pos h

/-- Escapes make a text longer, so a text is its own encoding only if it needs none. -/
theorem percentEncodeWith_eq_self_iff : percentEncodeWith keep cs = cs ↔ ∀ c ∈ cs, keep c := by
  constructor
  · intro h c hc
    have hle : ∀ c ∈ cs, [c].length ≤ (percentChar keep c).length :=
      fun c _ => length_percentChar_pos keep c
    have hflat : cs.flatMap (fun c => [c]) = cs.flatMap (percentChar keep) := by
      rw [List.flatMap_singleton']
      exact h.symm
    exact percentChar_eq_singleton_iff.1 (eq_of_flatMap_eq hle hflat c hc).symm
  · exact percentEncodeWith_eq_self

/-! ## Texts that nobody encoded -/

/-- Whether there is a percent sign with two digits behind it. -/
def hasEscape : List Char → Bool
  | '%' :: high :: low :: cs =>
    (Json.hexValue? high).isSome && (Json.hexValue? low).isSome || hasEscape (high :: low :: cs)
  | _ :: cs => hasEscape cs
  | [] => false

/-- A character that begins no escape stands for its own bytes. -/
theorem percentDecode_cons
    (h : percentDecode (c :: cs) = String.utf8EncodeChar c ++ percentDecode cs) :
    (percentDecode (c :: cs) = (c :: cs).flatMap String.utf8EncodeChar ↔
      percentDecode cs = cs.flatMap String.utf8EncodeChar) ∧
    ((percentDecode (c :: cs)).length < ((c :: cs).flatMap String.utf8EncodeChar).length ↔
      (percentDecode cs).length < (cs.flatMap String.utf8EncodeChar).length) := by
  rw [h, List.flatMap_cons, List.append_cancel_left_eq, List.length_append, List.length_append,
    Nat.add_lt_add_iff_left]
  exact ⟨.rfl, .rfl⟩

/-- A text without escapes stands for its own bytes, one with an escape for fewer. -/
theorem percentDecode_spec (cs : List Char) :
    (hasEscape cs = false ∧ percentDecode cs = cs.flatMap String.utf8EncodeChar) ∨
      (hasEscape cs = true ∧
        (percentDecode cs).length < (cs.flatMap String.utf8EncodeChar).length) := by
  induction cs using percentDecode.induct with
  | case1 high low cs h l hl hh ih =>
    have hfewer : (percentDecode cs).length ≤ (cs.flatMap String.utf8EncodeChar).length := by
      rcases ih with ⟨-, heq⟩ | ⟨-, hlt⟩
      · exact Nat.le_of_eq (congrArg List.length heq)
      · exact Nat.le_of_lt hlt
    have hpercent : String.utf8EncodeChar '%' = [0x25] := by decide
    have hhigh : 0 < (String.utf8EncodeChar high).length := by
      rw [String.length_utf8EncodeChar]
      exact high.utf8Size_pos
    refine .inr ⟨?_, ?_⟩
    · simp [hasEscape, hh, hl]
    · simp only [percentDecode, hh, hl, hpercent, List.flatMap_cons, List.length_append,
        List.length_cons, List.length_nil]
      omega
  | case2 high low cs hnone ih =>
    have hescape : hasEscape ('%' :: high :: low :: cs) = hasEscape (high :: low :: cs) := by
      cases hh : Json.hexValue? high with
      | none => simp [hasEscape, hh]
      | some h =>
        cases hl : Json.hexValue? low with
        | none => simp [hasEscape, hl]
        | some l => exact (hnone h l hh hl).elim
    have hdecode : percentDecode ('%' :: high :: low :: cs) =
        String.utf8EncodeChar '%' ++ percentDecode (high :: low :: cs) := by
      rw [percentDecode]
      split
      · next h l hh hl => exact (hnone h l hh hl).elim
      · rfl
    rw [hescape, (percentDecode_cons hdecode).1, (percentDecode_cons hdecode).2]
    exact ih
  | case3 c cs hc ih =>
    have hescape : hasEscape (c :: cs) = hasEscape cs := by
      rw [hasEscape]
      exact hc
    have hdecode : percentDecode (c :: cs) = String.utf8EncodeChar c ++ percentDecode cs := by
      rw [percentDecode]
      exact hc
    rw [hescape, (percentDecode_cons hdecode).1, (percentDecode_cons hdecode).2]
    exact ih
  | case4 => exact .inl ⟨rfl, rfl⟩

theorem length_percentDecode_le (cs : List Char) :
    (percentDecode cs).length ≤ (cs.flatMap String.utf8EncodeChar).length := by
  rcases percentDecode_spec cs with ⟨-, heq⟩ | ⟨-, hlt⟩
  · exact Nat.le_of_eq (congrArg List.length heq)
  · exact Nat.le_of_lt hlt

theorem toList_percentEncode (s : String) :
    (percentEncode s).toList = percentEncodeWith isUnreserved s.toList := String.toList_ofList

end LedgerExplorer.Text
