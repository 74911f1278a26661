import LedgerExplorer.Json.Numeral
import LedgerExplorer.Proofs.Text.Natural
import LedgerExplorer.Text.Blank
import Mathlib.Data.List.TakeWhile

/-!
# Which texts are numerals

A row of digits, perhaps behind a plus sign, is read as the number that it denotes, as long as this
number is within the bound, and no other text is read. Trimming takes off what stands around a
numeral and nothing of the numeral itself.
-/

namespace LedgerExplorer

namespace Text

section Numerals

variable {bound n k : Nat} {cs : List Char}

theorem isDigit_iff {c : Char} : c.isDigit ↔ 48 ≤ c.toNat ∧ c.toNat ≤ 57 := by
  simp [Char.isDigit, UInt32.le_iff_toNat_le, ← Char.toNat_val]

theorem digitValue?_eq_some_iff {c : Char} {d : Nat} :
    digitValue? c = some d ↔ c.isDigit ∧ c.toNat - 48 = d := by
  rw [digitValue?, isDigit_iff]
  exact Option.ite_none_right_eq_some.trans (and_congr_right fun _ => Option.some_inj)

theorem not_isBlank_of_isDigit {c : Char} (h : c.isDigit) : isBlank c = false := by
  rw [isDigit_iff] at h
  simp only [isBlank, Bool.or_eq_false_iff, Bool.and_eq_false_iff, decide_eq_false_iff_not,
    beq_eq_false_iff_ne]
  omega

/-- The number that a row of digits denotes behind digits that denote `n`. -/
def valueOnto (n : Nat) (ds : List Char) : Nat :=
  ds.foldl (fun n c => n * 10 + (c.toNat - 48)) n

theorem le_valueOnto (n : Nat) (ds : List Char) : n ≤ valueOnto n ds := by
  induction ds generalizing n with
  | nil => exact Nat.le_refl n
  | cons c ds ih =>
    calc n ≤ n * 10 + (c.toNat - 48) := by omega
      _ ≤ valueOnto n (c :: ds) := ih _

/-- Digits are read onto a number as long as the number they denote behind it is within the bound. -/
theorem readDigits_eq_ok_iff (hn : n ≤ bound) :
    readDigits bound n cs = .ok k ↔
      (∀ c ∈ cs, c.isDigit) ∧ valueOnto n cs = k ∧ k ≤ bound := by
  induction cs generalizing n with
  | nil =>
    rw [readDigits, Except.ok.injEq]
    refine ⟨?_, fun h => h.2.1⟩
    rintro rfl
    exact ⟨List.forall_mem_nil _, rfl, hn⟩
  | cons c cs ih =>
    rw [List.forall_mem_cons, readDigits]
    split
    · next hc =>
      constructor
      · intro h
        cases h
      · rintro ⟨⟨hdigit, -⟩, -⟩
        rw [digitValue?_eq_some_iff.2 ⟨hdigit, rfl⟩] at hc
        cases hc
    · next d hd =>
      obtain ⟨hdigit, rfl⟩ := digitValue?_eq_some_iff.1 hd
      have hvalue : valueOnto n (c :: cs) = valueOnto (n * 10 + (c.toNat - 48)) cs := rfl
      have hgrows := le_valueOnto (n * 10 + (c.toNat - 48)) cs
      split
      · next hfits =>
        rw [ih hfits, hvalue]
        simp only [hdigit, true_and]
      · next hlarge =>
        constructor
        · intro h
          cases h
        · rintro ⟨-, rfl, hbound⟩
          omega

/-- One or more digits that denote `k`, perhaps behind one plus sign. -/
def IsNumeral (cs : List Char) (k : Nat) : Prop :=
  ∃ ds, (cs = ds ∨ cs = '+' :: ds) ∧ ds ≠ [] ∧ (∀ c ∈ ds, c.isDigit) ∧ Json.digitsValue ds = k

theorem IsNumeral.ne_nil (h : IsNumeral cs k) : cs ≠ [] := by
  obtain ⟨ds, rfl | rfl, hne, -⟩ := h
  · exact hne
  · exact List.cons_ne_nil _ _

/-- A numeral is a row of digits or starts with a plus sign, not both. -/
theorem isNumeral_plus_iff {ds : List Char} :
    IsNumeral ('+' :: ds) k ↔ ds ≠ [] ∧ (∀ c ∈ ds, c.isDigit) ∧ Json.digitsValue ds = k := by
  constructor
  · rintro ⟨ds', rfl | heq, hne, hdigits, hvalue⟩
    · exact absurd (hdigits '+' List.mem_cons_self) (by decide)
    · cases heq
      exact ⟨hne, hdigits, hvalue⟩
  · rintro ⟨hne, hdigits, hvalue⟩
    exact ⟨ds, .inr rfl, hne, hdigits, hvalue⟩

theorem isNumeral_iff_of_plus (hplus : ∀ ds, cs ≠ '+' :: ds) :
    IsNumeral cs k ↔ cs ≠ [] ∧ (∀ c ∈ cs, c.isDigit) ∧ Json.digitsValue cs = k := by
  constructor
  · rintro ⟨ds, rfl | rfl, h⟩
    · exact h
    · exact absurd rfl (hplus ds)
  · intro h
    exact ⟨cs, .inl rfl, h⟩

theorem readNumeral_eq_ok_iff :
    readNumeral bound cs = .ok k ↔ IsNumeral cs k ∧ k ≤ bound := by
  have hread (ds : List Char) : readDigits bound 0 ds = .ok k ↔
      (∀ c ∈ ds, c.isDigit) ∧ Json.digitsValue ds = k ∧ k ≤ bound :=
    readDigits_eq_ok_iff (Nat.zero_le bound)
  unfold readNumeral
  split
  · exact ⟨nofun, fun h => absurd rfl h.1.ne_nil⟩
  · rw [isNumeral_plus_iff]
    exact ⟨nofun, fun h => absurd rfl h.1.1⟩
  · next rest hrest =>
    have hne : rest ≠ [] := fun h => hrest (by rw [h])
    rw [isNumeral_plus_iff, hread, and_assoc, and_assoc, and_iff_right hne]
  · next hne hsign hplus =>
    rw [isNumeral_iff_of_plus hplus, hread, and_assoc, and_assoc, and_iff_right hne]

/-- No two numbers share a numeral. -/
theorem IsNumeral.unique {j : Nat} (hj : IsNumeral cs j) (hk : IsNumeral cs k) : j = k := by
  have hj := readNumeral_eq_ok_iff.2 ⟨hj, Nat.le_max_left j k⟩
  have hk := readNumeral_eq_ok_iff.2 ⟨hk, Nat.le_max_right j k⟩
  rw [hj] at hk
  exact Except.ok.inj hk

theorem isNumeral_digits (n : Nat) : IsNumeral (digits n) n :=
  (readNumeral_eq_ok_iff.1 (readNumeral_digits (Nat.le_refl n))).1

theorem IsNumeral.mem (h : IsNumeral cs k) : ∀ c ∈ cs, c = '+' ∨ c.isDigit := by
  obtain ⟨ds, rfl | rfl, -, hdigits, -⟩ := h
  · exact fun c hc => .inr (hdigits c hc)
  · rw [List.forall_mem_cons]
    exact ⟨.inl rfl, fun c hc => .inr (hdigits c hc)⟩

theorem IsNumeral.not_isBlank (h : IsNumeral cs k) : ∀ c ∈ cs, isBlank c = false := by
  intro c hc
  rcases h.mem c hc with rfl | hdigit
  · rfl
  · exact not_isBlank_of_isDigit hdigit

/-- A word is read exactly from its numerals. -/
theorem readWord_eq_ok_iff {s : String} {n : UInt64} :
    readWord s = .ok n ↔ IsNumeral s.toList n.toNat := by
  unfold readWord
  constructor
  · intro h
    cases hread : readNumeral maxWord s.toList with
    | error e =>
      rw [hread] at h
      cases h
    | ok k =>
      obtain ⟨hnumeral, hbound⟩ := readNumeral_eq_ok_iff.1 hread
      rw [hread] at h
      obtain rfl : UInt64.ofNat k = n := Except.ok.inj h
      rw [UInt64.toNat_ofNat_of_lt' (Nat.lt_of_le_of_lt hbound (by decide))]
      exact hnumeral
  · intro h
    rw [readNumeral_eq_ok_iff.2 ⟨h, toNat_le_maxWord n⟩, Except.map, UInt64.ofNat_toNat]

end Numerals

section Trimming

variable {p : Char → Bool} {front mid back : List Char}

theorem exists_dropWhile (p : Char → Bool) (cs : List Char) :
    ∃ front, cs = front ++ cs.dropWhile p ∧ ∀ c ∈ front, p c :=
  ⟨cs.takeWhile p, List.takeWhile_append_dropWhile.symm, fun _ => List.mem_takeWhile_imp⟩

/-- Trimming takes a front and a back off a text. -/
theorem exists_trimWhile (p : Char → Bool) (cs : List Char) :
    ∃ front back, cs = front ++ trimWhile p cs ++ back ∧ (∀ c ∈ front, p c) ∧ ∀ c ∈ back, p c := by
  obtain ⟨front, hcs, hfront⟩ := exists_dropWhile p cs
  obtain ⟨back, hrest, hback⟩ := exists_dropWhile p (cs.dropWhile p).reverse
  refine ⟨front, back.reverse, ?_, hfront, fun c hc => hback c (List.mem_reverse.1 hc)⟩
  rw [List.append_assoc, trimWhile, dropEndWhile, ← List.reverse_append, ← hrest,
    List.reverse_reverse]
  exact hcs

theorem dropWhile_append_of_forall (hfront : ∀ c ∈ front, p c) (hmid : ∀ c ∈ mid, p c = false)
    (hne : mid ≠ []) : (front ++ (mid ++ back)).dropWhile p = mid ++ back := by
  obtain ⟨c, mid, rfl⟩ := List.exists_cons_of_ne_nil hne
  rw [List.dropWhile_append_of_pos hfront, List.cons_append,
    List.dropWhile_cons_of_neg (by rw [hmid c List.mem_cons_self]; exact Bool.false_ne_true)]

/-- What is trimmed is all that stands before and behind a text in which nothing is to be dropped. -/
theorem trimWhile_append (hfront : ∀ c ∈ front, p c) (hmid : ∀ c ∈ mid, p c = false)
    (hback : ∀ c ∈ back, p c) (hne : mid ≠ []) : trimWhile p (front ++ mid ++ back) = mid := by
  have hend : (back.reverse ++ (mid.reverse ++ [])).dropWhile p = mid.reverse ++ [] :=
    dropWhile_append_of_forall (fun c hc => hback c (List.mem_reverse.1 hc))
      (fun c hc => hmid c (List.mem_reverse.1 hc)) (fun h => hne (List.reverse_eq_nil_iff.1 h))
  rw [List.append_nil] at hend
  rw [trimWhile, dropEndWhile, List.append_assoc, dropWhile_append_of_forall hfront hmid hne,
    List.reverse_append, hend, List.reverse_reverse]

/-- A text is a numeral without its blanks if there are only blanks before and behind a numeral. -/
theorem isNumeral_trim_iff {s : String} {k : Nat} :
    IsNumeral (trim s).toList k ↔
      ∃ front cs back, s.toList = front ++ cs ++ back ∧ (∀ c ∈ front, isBlank c) ∧
        (∀ c ∈ back, isBlank c) ∧ IsNumeral cs k := by
  rw [trim, String.toList_ofList]
  constructor
  · intro h
    obtain ⟨front, back, hs, hfront, hback⟩ := exists_trimWhile isBlank s.toList
    exact ⟨front, _, back, hs, hfront, hback, h⟩
  · rintro ⟨front, cs, back, hs, hfront, hback, h⟩
    rw [hs, trimWhile_append hfront h.not_isBlank hback h.ne_nil]
    exact h

end Trimming

end Text

end LedgerExplorer
