import LedgerExplorer.Proofs.Text.Percent
import LedgerExplorer.Text.Natural

/-!
# Reading numerals back

What is read of the digits of a number is that number, so different numbers have different numerals.
The characters of a numeral are unreserved.
-/

namespace LedgerExplorer.Text

variable {c : Char}

theorem isUnreserved_digitChar : ∀ d < 10, isUnreserved (digitChar d) := by decide

theorem digitValue?_digitChar : ∀ d < 10, digitValue? (digitChar d) = some d := by decide

theorem isDigit_digitChar : ∀ d < 10, (digitChar d).isDigit := by decide

theorem toNat_digitChar : ∀ d < 10, (digitChar d).toNat - 48 = d := by decide

theorem digitChar_ne_zero : ∀ d < 10, 0 < d → digitChar d ≠ '0' := by decide

theorem exists_of_mem_digits {n : Nat} (h : c ∈ digits n) : ∃ d < 10, c = digitChar d := by
  induction n using digits.induct with
  | case1 n hn =>
    rw [digits, if_pos hn] at h
    exact ⟨n, hn, List.mem_singleton.1 h⟩
  | case2 n hn ih =>
    rw [digits, if_neg hn, List.mem_append, List.mem_singleton] at h
    rcases h with h | rfl
    · exact ih h
    · exact ⟨n % 10, Nat.mod_lt _ (by decide), rfl⟩

theorem isUnreserved_of_mem_digits {n : Nat} (h : c ∈ digits n) : isUnreserved c := by
  obtain ⟨d, hd, rfl⟩ := exists_of_mem_digits h
  exact isUnreserved_digitChar d hd

theorem isDigit_of_mem_digits {n : Nat} (h : c ∈ digits n) : c.isDigit := by
  obtain ⟨d, hd, rfl⟩ := exists_of_mem_digits h
  exact isDigit_digitChar d hd

theorem exists_digits_eq_cons (n : Nat) : ∃ c cs, digits n = c :: cs ∧ c.isDigit := by
  have hne : digits n ≠ [] := by
    rw [digits]
    split <;> simp
  obtain ⟨c, cs, hcs⟩ := List.exists_cons_of_ne_nil hne
  exact ⟨c, cs, hcs, isDigit_of_mem_digits (hcs ▸ List.mem_cons_self)⟩

/-- Only zero has a numeral that starts with a zero. -/
theorem digits_eq_cons {n : Nat} (h : 0 < n) : ∃ c cs, digits n = c :: cs ∧ c ≠ '0' := by
  induction n using digits.induct with
  | case1 n hn =>
    rw [digits, if_pos hn]
    exact ⟨_, _, rfl, digitChar_ne_zero n hn h⟩
  | case2 n hn ih =>
    obtain ⟨c, cs, hcs, hc⟩ := ih (by omega)
    rw [digits, if_neg hn, hcs]
    exact ⟨c, _, rfl, hc⟩

theorem readDigits_digitChar {bound m d : Nat} (hd : d < 10) (hle : m * 10 + d ≤ bound)
    (cs : List Char) :
    readDigits bound m (digitChar d :: cs) = readDigits bound (m * 10 + d) cs := by
  rw [readDigits, digitValue?_digitChar d hd]
  exact if_pos hle

theorem readDigits_digits {bound n : Nat} (h : n ≤ bound) (cs : List Char) :
    readDigits bound 0 (digits n ++ cs) = readDigits bound n cs := by
  induction n using digits.induct generalizing cs with
  | case1 n hn =>
    rw [digits, if_pos hn, List.singleton_append, readDigits_digitChar hn (by omega), Nat.zero_mul,
      Nat.zero_add]
  | case2 n hn ih =>
    have hmod : n % 10 < 10 := Nat.mod_lt _ (by decide)
    rw [digits, if_neg hn, List.append_assoc, ih (by omega), List.singleton_append,
      readDigits_digitChar hmod (by omega), Nat.div_add_mod']

theorem toList_natural (n : Nat) : (natural n).toList = digits n := String.toList_ofList

theorem natural_injective : Function.Injective natural := by
  intro n m h
  have hdigits : digits n = digits m := by rw [← toList_natural, h, toList_natural]
  have hn := readDigits_digits (Nat.le_max_left n m) []
  have hm := readDigits_digits (Nat.le_max_right n m) []
  rw [hdigits, hm] at hn
  exact (Except.ok.inj hn).symm

theorem readNumeral_digits {bound n : Nat} (h : n ≤ bound) :
    readNumeral bound (digits n) = .ok n := by
  obtain ⟨c, cs, hcs, hc⟩ := exists_digits_eq_cons n
  have hplus : c ≠ '+' := by
    rintro rfl
    cases hc
  have hread := readDigits_digits h []
  rw [List.append_nil, hcs] at hread
  rw [hcs]
  unfold readNumeral
  split
  · next heq => cases heq
  · next heq => exact absurd (List.cons.inj heq).1 hplus
  · next heq => exact absurd (List.cons.inj heq).1 hplus
  · exact hread

theorem toNat_le_maxWord (n : UInt64) : n.toNat ≤ maxWord := Nat.le_of_lt_succ n.toNat_lt

/-- A number that is cut at the greatest word fits in a word. -/
theorem toNat_ofNat_min_maxWord (n : Nat) : (UInt64.ofNat (min n maxWord)).toNat = min n maxWord :=
  UInt64.toNat_ofNat_of_lt' (Nat.lt_of_le_of_lt (Nat.min_le_right _ _) (by decide))

theorem readWord_natural (n : UInt64) : readWord (natural n.toNat) = .ok n := by
  rw [readWord, toList_natural, readNumeral_digits (toNat_le_maxWord n), Except.map,
    UInt64.ofNat_toNat]

theorem isUnreserved_of_mem_integer {i : Int} (h : c ∈ (integer i).toList) : isUnreserved c := by
  cases i with
  | ofNat n =>
    rw [integer, toList_natural] at h
    exact isUnreserved_of_mem_digits h
  | negSucc n =>
    rw [integer, String.toList_ofList] at h
    rcases List.mem_cons.1 h with rfl | h
    · decide
    · exact isUnreserved_of_mem_digits h

end LedgerExplorer.Text
