import LedgerExplorer.Json.Numeral
import LedgerExplorer.Json.Printer
import LedgerExplorer.Json.Quotation
import LedgerExplorer.Proofs.Text.Natural
import Mathlib.Data.List.TakeWhile

/-!
# Reading printed strings and numerals back

A printed string is read back whatever stands behind it, a printed integer if nothing, a comma or a
closing bracket does. The numeral of an integer that fits in a word has that integer for its value.
-/

namespace LedgerExplorer

namespace Json

/-! ### Strings -/

/-- What is read of a character in a printed string. -/
def pieceOf (c : Char) : Piece :=
  if c.toNat < 0x20 && c != '\n' && c != '\r' && c != '\t' && c.toNat != 8 && c.toNat != 12 then
    .unit c.toNat
  else .plain c

theorem hexUnit?_lowerHexDigit : ∀ n < 0x20,
    hexUnit? '0' '0' (Text.lowerHexDigit (n / 16)) (Text.lowerHexDigit (n % 16)) = some n := by
  decide

theorem readPieces_short {c e : Char} (h : shortEscape? c = some e) (rest : List Char) :
    readPieces ('\\' :: c :: rest) =
      (readPieces rest).map fun (ps, after) => (.plain e :: ps, after) := by
  have hu : c ≠ 'u' := by
    rintro rfl
    cases h
  rw [readPieces, h]
  · cases readPieces rest <;> rfl
  · intro _ _ _ _ _ hc
    exact absurd hc hu

theorem readPieces_unit {a b c d : Char} {n : Nat} (h : hexUnit? a b c d = some n)
    (rest : List Char) : readPieces ('\\' :: 'u' :: a :: b :: c :: d :: rest) =
      (readPieces rest).map fun (ps, after) => (.unit n :: ps, after) := by
  rw [readPieces, h]
  cases readPieces rest <;> rfl

theorem readPieces_plain {c : Char} (hquote : c ≠ '"') (hslash : c ≠ '\\')
    (hcontrol : ¬ c.toNat < 0x20) (rest : List Char) :
    readPieces (c :: rest) =
      (readPieces rest).map fun (ps, after) => (.plain c :: ps, after) := by
  rw [readPieces, if_neg hcontrol]
  · cases readPieces rest <;> rfl
  · exact hquote
  · exact fun _ _ _ _ _ h _ => hslash h
  · exact fun _ _ h _ => hslash h
  · exact fun h _ => hslash h

theorem readPieces_escapedChar (c : Char) (rest : List Char) :
    readPieces (escapedChar c ++ rest) =
      (readPieces rest).map fun (ps, after) => (pieceOf c :: ps, after) := by
  unfold escapedChar
  split
  · exact readPieces_short rfl rest
  · exact readPieces_short rfl rest
  · exact readPieces_short rfl rest
  · exact readPieces_short rfl rest
  · exact readPieces_short rfl rest
  · next hquote hslash hn hr ht =>
    split_ifs with h8 h12 hcontrol
    · obtain rfl : c = '\x08' := Char.toNat_inj.1 h8
      exact readPieces_short rfl rest
    · obtain rfl : c = '\x0c' := Char.toNat_inj.1 h12
      exact readPieces_short rfl rest
    · have hpiece : pieceOf c = .unit c.toNat := by simp_all [pieceOf]
      rw [hpiece]
      exact readPieces_unit (hexUnit?_lowerHexDigit _ hcontrol) rest
    · have hpiece : pieceOf c = .plain c := by simp_all [pieceOf]
      rw [hpiece]
      exact readPieces_plain hquote hslash hcontrol rest

theorem readPieces_flatMap_escapedChar (cs rest : List Char) :
    readPieces (cs.flatMap escapedChar ++ '"' :: rest) = some (cs.map pieceOf, rest) := by
  induction cs with
  | nil => rfl
  | cons c cs ih =>
    rw [List.flatMap_cons, List.append_assoc, readPieces_escapedChar, ih]
    rfl

/-- An escape below the surrogates is a character, whatever stands behind it. -/
theorem joinPieces_unit {n : Nat} (h : n < 0xD800) (ps : List Piece) :
    joinPieces (.unit n :: ps) = (joinPieces ps).map (Char.ofNat n :: ·) := by
  cases ps with
  | nil => simp [joinPieces, h]
  | cons p ps => cases p <;> simp [joinPieces, h]

theorem joinPieces_map_pieceOf (cs : List Char) : joinPieces (cs.map pieceOf) = some cs := by
  induction cs with
  | nil => rfl
  | cons c cs ih =>
    rw [List.map_cons, pieceOf]
    split
    · next h =>
      have hcontrol : c.toNat < 0x20 := by simp_all
      rw [joinPieces_unit (by omega), ih, Option.map_some, Char.ofNat_toNat]
    · rw [joinPieces, ih, Option.map_some]

/-- A printed string is read back. -/
theorem readQuotation_renderString (s : String) (rest : List Char) :
    readQuotation (s.toList.flatMap escapedChar ++ '"' :: rest) = some (some s, rest) := by
  unfold readQuotation
  rw [readPieces_flatMap_escapedChar, Option.map_some]
  dsimp only
  rw [joinPieces_map_pieceOf, Option.map_some, String.ofList_toList]

/-! ### Numerals -/

/-- What stands behind a printed value: nothing, a comma or a closing bracket. -/
def Delimits (rest : List Char) : Prop :=
  ∀ c ∈ rest.head?, c = ',' ∨ c = ']' ∨ c = '\x7d'

theorem digitsValue_concat (ds : List Char) (c : Char) :
    digitsValue (ds ++ [c]) = digitsValue ds * 10 + (c.toNat - 48) := by
  unfold digitsValue
  rw [List.foldl_append]
  rfl

theorem digitsValue_digits (n : Nat) : digitsValue (Text.digits n) = n := by
  induction n using Text.digits.induct with
  | case1 n hn =>
    rw [Text.digits, if_pos hn]
    exact (Nat.zero_add _).trans (Text.toNat_digitChar n hn)
  | case2 n hn ih =>
    rw [Text.digits, if_neg hn, digitsValue_concat, ih,
      Text.toNat_digitChar _ (Nat.mod_lt n (by decide)), Nat.div_add_mod']

theorem spanDigits_digits (n : Nat) {rest : List Char} (h : Delimits rest) :
    spanDigits (Text.digits n ++ rest) = (Text.digits n, rest) := by
  have hdigits : ∀ c ∈ Text.digits n, c.isDigit := fun c hc => Text.isDigit_of_mem_digits hc
  unfold spanDigits
  rw [List.takeWhile_append_of_pos hdigits, List.dropWhile_append_of_pos hdigits]
  cases rest with
  | nil => simp
  | cons c rest =>
    obtain rfl | rfl | rfl := h c rfl <;> simp

theorem readWhole_digits (n : Nat) {rest : List Char} (h : Delimits rest) :
    readWhole (Text.digits n ++ rest) = some (Text.digits n, rest) := by
  unfold readWhole
  rw [spanDigits_digits n h]
  rcases Nat.eq_zero_or_pos n with rfl | hn
  · rw [Text.digits]
    rfl
  · obtain ⟨c, cs, hcs, hc⟩ := Text.digits_eq_cons hn
    rw [hcs]
    split <;> simp_all

theorem readFraction_of_delimits {rest : List Char} (h : Delimits rest) :
    readFraction rest = some ([], rest) := by
  unfold readFraction
  split
  · simp [Delimits] at h
  · rfl

theorem readExponent_of_delimits {rest : List Char} (h : Delimits rest) :
    readExponent rest = some (none, rest) := by
  cases rest with
  | nil => rfl
  | cons c rest => obtain rfl | rfl | rfl := h c rfl <;> rfl

/-- The numeral that an integer is printed as. -/
def Numeral.ofInt (n : Int) : Numeral := ⟨n < 0, Text.digits n.natAbs, [], none⟩

theorem readNumeral_integer (n : Int) {rest : List Char} (h : Delimits rest) :
    readNumeral ((Text.integer n).toList ++ rest) = some (.ofInt n, rest) := by
  cases n with
  | ofNat n =>
    rw [Text.integer, Text.toList_natural]
    have hsign (rest' : List Char) : Text.digits n ++ rest ≠ '-' :: rest' := by
      obtain ⟨c, cs, hcs, hc⟩ := Text.exists_digits_eq_cons n
      rw [hcs]
      rintro ⟨⟩
      cases hc
    unfold readNumeral
    split
    next hcs =>
      split at hcs
      · next heq => exact absurd heq (hsign _)
      · cases hcs
        simp [readWhole_digits n h, readFraction_of_delimits h, readExponent_of_delimits h,
          Numeral.ofInt]
  | negSucc n =>
    rw [Text.integer, String.toList_ofList]
    unfold readNumeral
    simp [readWhole_digits (n + 1) h, readFraction_of_delimits h, readExponent_of_delimits h,
      Numeral.ofInt]

/-- The integers that a numeral can have for its value. -/
def IsWord (n : Int) : Prop := Int64.minValue.toInt ≤ n ∧ n ≤ Text.maxWord

theorem value?_ofInt {n : Int} (h : IsWord n) : (Numeral.ofInt n).value? = some (.integer n) := by
  have hvalue : digitsValue (Text.digits n.natAbs) = n.natAbs := digitsValue_digits _
  obtain ⟨hmin, hmax⟩ := h
  unfold Numeral.value? Numeral.ofInt
  simp only [hvalue]
  rcases Int.lt_or_le n 0 with hneg | hpos
  · have habs : -(n.natAbs : Int) = n := by omega
    have hpos : 0 < n.natAbs := by omega
    rw [habs]
    simpa [hneg, hpos] using hmin
  · have habs : (n.natAbs : Int) = n := by omega
    have hword : n.natAbs ≤ Text.maxWord := by omega
    rw [habs]
    simp [Int.not_lt.2 hpos, hword]

end Json

end LedgerExplorer
