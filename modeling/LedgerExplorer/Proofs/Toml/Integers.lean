import LedgerExplorer.Proofs.Json.Scalars
import LedgerExplorer.Toml.Numeral
import Mathlib.Algebra.Ring.Int.Defs
import Mathlib.Algebra.Ring.Nat

/-!
# Integers of TOML read back

The digits of a number that 64 bits with a sign hold are read as that number. They are taken for
nothing else: a date has hyphens, a time colons, and a float a point or an exponent.
-/

namespace LedgerExplorer.Toml

theorem isWordChar_of_isDigit {c : Char} (h : c.isDigit) : isWordChar c := by
  unfold isWordChar Char.isAlphanum
  simp [h]

section Digits

variable {ds : List Char} (hds : ∀ c ∈ ds, c.isDigit)
include hds

theorem not_mem_of_isDigit {d : Char} (hd : d.isDigit = false) : d ∉ ds := by
  intro hmem
  rw [hds d hmem] at hd
  cases hd

/-- A row of digits is no date, for a date has a hyphen. -/
theorem readDate?_digits : readDate? ds = none := by
  unfold readDate?
  split
  · exact absurd (by simp) (not_mem_of_isDigit hds (d := '-') rfl)
  · rfl

theorem twoDigits?_digits {max n : Nat} {rest : List Char} (h : twoDigits? max ds = some (n, rest)) :
    ∀ c ∈ rest, c.isDigit := by
  unfold twoDigits? at h
  split at h
  · next a b rest' =>
    dsimp only at h
    split at h
    · cases h
      exact fun c hc => hds c (List.mem_cons_of_mem _ (List.mem_cons_of_mem _ hc))
    · cases h
  · cases h

/-- A row of digits is no time, for a time has a colon. -/
theorem readTime?_digits : readTime? ds = none := by
  unfold readTime?
  cases h : twoDigits? 23 ds with
  | none => rfl
  | some r =>
    obtain ⟨n, rest⟩ := r
    have hcolon := not_mem_of_isDigit (twoDigits?_digits hds h) (d := ':') rfl
    rw [Option.bind_eq_bind, Option.bind_some]
    dsimp only
    split
    · exact absurd (by simp) hcolon
    · rfl

theorem isDatetime_digits : isDatetime ds = false := by
  unfold isDatetime
  rw [readDate?_digits hds, readTime?_digits hds]
  rfl

theorem plainDigits?_digits (hne : ds ≠ []) : plainDigits? Char.isDigit ds = some ds := by
  induction ds with
  | nil => exact absurd rfl hne
  | cons c ds ih =>
    rw [List.forall_mem_cons] at hds
    cases ds with
    | nil => simp [plainDigits?, hds.1]
    | cons d ds =>
      have hgap : d ≠ '_' := by
        rintro rfl
        exact absurd (hds.2 '_' List.mem_cons_self) (by decide)
      rw [plainDigits?, if_pos hds.1, ih hds.2 (List.cons_ne_nil _ _)]
      · rfl
      · rintro ⟨⟩
      · rintro rest ⟨⟩
        exact hgap rfl

theorem splitSign_digits : splitSign ds = (false, ds) := by
  unfold splitSign
  split
  · exact absurd List.mem_cons_self (not_mem_of_isDigit hds (d := '-') rfl)
  · exact absurd List.mem_cons_self (not_mem_of_isDigit hds (d := '+') rfl)
  · rfl


theorem isFloat_digits : isFloat ds = false := by
  have hgap : ∀ c ∈ ds, isDigitOrGap c := fun c hc => by simp [isDigitOrGap, hds c hc]
  unfold isFloat
  rw [splitSign_digits hds]
  dsimp only
  rw [List.takeWhile_eq_self_iff.2 hgap, List.dropWhile_eq_nil_iff.2 hgap]
  have hinf : ds ≠ ['i', 'n', 'f'] := by
    rintro rfl
    exact not_mem_of_isDigit hds (d := 'i') rfl List.mem_cons_self
  have hnan : ds ≠ ['n', 'a', 'n'] := by
    rintro rfl
    exact not_mem_of_isDigit hds (d := 'n') rfl List.mem_cons_self
  rw [decide_eq_false hinf, decide_eq_false hnan]
  cases decimalDigits? ds <;> rfl

end Digits

section Number

variable (n : Nat)

theorem isDigit_digits : ∀ c ∈ Text.digits n, c.isDigit :=
  fun _ => Text.isDigit_of_mem_digits

/-- No zero is superfluous in the digits of a number. -/
theorem decimalDigits?_digits : decimalDigits? (Text.digits n) = some (Text.digits n) := by
  obtain ⟨c, cs, hcs, -⟩ := Text.exists_digits_eq_cons n
  unfold decimalDigits?
  rw [plainDigits?_digits (isDigit_digits n) (by simp [hcs])]
  rcases Nat.eq_zero_or_pos n with rfl | hn
  · rw [Text.digits]
    rfl
  · obtain ⟨c, cs, hcs, hc⟩ := Text.digits_eq_cons hn
    rw [hcs]
    split
    · next heq =>
      cases heq
      exact absurd rfl hc
    · rfl

theorem readInteger?_digits : readInteger? (Text.digits n) = integer? n := by
  have hds := isDigit_digits n
  unfold readInteger?
  split
  · next heq => exact absurd (by simp [heq]) (not_mem_of_isDigit hds (d := 'x') rfl)
  · next heq => exact absurd (by simp [heq]) (not_mem_of_isDigit hds (d := 'o') rfl)
  · next heq => exact absurd (by simp [heq]) (not_mem_of_isDigit hds (d := 'b') rfl)
  · rw [splitSign_digits hds]
    dsimp only
    rw [decimalDigits?_digits]
    exact congrArg (fun k : Nat => integer? k) (Json.digitsValue_digits n)

theorem ofWord?_digits : ofWord? (Text.digits n) = integer? n := by
  have hds := isDigit_digits n
  have htrue : Text.digits n ≠ ['t', 'r', 'u', 'e'] := fun heq =>
    not_mem_of_isDigit hds (d := 't') rfl (heq ▸ List.mem_cons_self)
  have hfalse : Text.digits n ≠ ['f', 'a', 'l', 's', 'e'] := fun heq =>
    not_mem_of_isDigit hds (d := 'f') rfl (heq ▸ List.mem_cons_self)
  unfold ofWord?
  rw [if_neg htrue, if_neg hfalse, isDatetime_digits hds, isFloat_digits hds]
  exact readInteger?_digits n

end Number

theorem readWord?_digits {n : Nat} (h : n ≤ 2 ^ 63 - 1) (rest : List Char) :
    readWord? (Text.digits n ++ '\n' :: rest) = some (.integer n, '\n' :: rest) := by
  have hds := isDigit_digits n
  have hword : ∀ c ∈ Text.digits n, isWordChar c := fun c hc => isWordChar_of_isDigit (hds c hc)
  have htake : (Text.digits n ++ '\n' :: rest).takeWhile isWordChar = Text.digits n := by
    rw [List.takeWhile_append_of_pos hword]
    simp [isWordChar]
  have hdrop : (Text.digits n ++ '\n' :: rest).dropWhile isWordChar = '\n' :: rest := by
    rw [List.dropWhile_append_of_pos hword]
    rfl
  unfold readWord?
  dsimp only
  have hfits : Int64.minValue.toInt ≤ (n : Int) ∧ (n : Int) ≤ Int64.maxValue.toInt := by
    have hmin : Int64.minValue.toInt ≤ 0 := by decide
    have hmax : Int64.maxValue.toInt = 2 ^ 63 - 1 := by decide
    omega
  rw [htake, hdrop, readDate?_digits hds, ofWord?_digits, integer?, if_neg (by simp), if_pos hfits]
  rfl

end LedgerExplorer.Toml
