import LedgerExplorer.Proofs.Text.Percent
import LedgerExplorer.Toml.StringStyle
import Mathlib.Tactic.SplitIfs

/-!
# Strings of TOML read back

Whatever form a text is written in, it is read back from it. In a string of several lines the closing
quotes are found although quotes may stand before them: no more than two do so in a row.
-/

namespace LedgerExplorer.Toml

/-! ### Escapes -/

theorem hexUnit?_hexDigit : ∀ n < 0x80,
    Json.hexUnit? '0' '0' (Text.hexDigit (n / 16)) (Text.hexDigit (n % 16)) = some n := by
  decide

theorem scalar?_toNat {c : Char} (h : c.toNat < 0x80) : scalar? c.toNat = some c := by
  unfold scalar?
  rw [if_pos (by omega), Char.ofNat_toNat]

/-- A character is written by a letter behind a backslash, by its number, or as it is. -/
theorem escapedChar_cases (c : Char) :
    (∃ e, escapedChar c = ['\\', e] ∧ shortEscape? e = some c) ∨
    (c.toNat < 0x80 ∧ escapedChar c =
      ['\\', 'u', '0', '0', Text.hexDigit (c.toNat / 16), Text.hexDigit (c.toNat % 16)]) ∨
    (escapedChar c = [c] ∧ isPlain c ∧ c ≠ '"' ∧ c ≠ '\\') := by
  unfold escapedChar
  split
  · exact .inl ⟨_, rfl, rfl⟩
  · exact .inl ⟨_, rfl, rfl⟩
  · exact .inl ⟨_, rfl, rfl⟩
  · exact .inl ⟨_, rfl, rfl⟩
  · exact .inl ⟨_, rfl, rfl⟩
  · next hquote hslash _ _ _ =>
    split_ifs with h8 h12 hcontrol
    · obtain rfl : c = '\x08' := Char.toNat_inj.1 h8
      exact .inl ⟨_, rfl, rfl⟩
    · obtain rfl : c = '\x0c' := Char.toNat_inj.1 h12
      exact .inl ⟨_, rfl, rfl⟩
    · simp only [Bool.or_eq_true, decide_eq_true_eq] at hcontrol
      exact .inr (.inl ⟨by omega, rfl⟩)
    · simp only [Bool.or_eq_true, decide_eq_true_eq, not_or, Nat.not_lt] at hcontrol
      have hplain : isPlain c := by simp [isPlain, hcontrol]
      exact .inr (.inr ⟨rfl, hplain, hquote, hslash⟩)


/-! ### Strings on one line -/

theorem readBasic_short {c e : Char} (h : shortEscape? e = some c) (rest : List Char) :
    readBasic ('\\' :: e :: rest) = prepend (some c) (readBasic rest) := by
  rw [readBasic, h]
  · rintro a b c' d rest' rfl
    cases h
  · rintro a b c' d e' f g h' rest' rfl
    cases h

theorem readBasic_unit {a b c d : Char} {n : Nat} (h : Json.hexUnit? a b c d = some n)
    (rest : List Char) :
    readBasic ('\\' :: 'u' :: a :: b :: c :: d :: rest) =
      prepend (scalar? n) (readBasic rest) := by
  rw [readBasic, h]
  rfl

theorem readBasic_plain {c : Char} (hplain : isPlain c) (hquote : c ≠ '"') (hslash : c ≠ '\\')
    (rest : List Char) : readBasic (c :: rest) = prepend (some c) (readBasic rest) := by
  rw [readBasic]
  · simp [hplain, hslash]
  · exact hquote
  · exact fun _ _ _ _ _ h _ => hslash h
  · exact fun _ _ _ _ _ _ _ _ _ h _ => hslash h
  · exact fun _ _ h _ => hslash h

theorem readBasic_escapedChar (c : Char) (rest : List Char) :
    readBasic (escapedChar c ++ rest) = prepend (some c) (readBasic rest) := by
  rcases escapedChar_cases c with ⟨e, hc, he⟩ | ⟨hlt, hc⟩ | ⟨hc, hplain, hquote, hslash⟩
  · rw [hc]
    exact readBasic_short he rest
  · rw [hc, ← scalar?_toNat hlt]
    exact readBasic_unit (hexUnit?_hexDigit _ hlt) rest
  · rw [hc]
    exact readBasic_plain hplain hquote hslash rest

theorem readBasic_flatMap_escapedChar (cs rest : List Char) :
    readBasic (cs.flatMap escapedChar ++ '"' :: rest) = some (cs, rest) := by
  induction cs with
  | nil => rfl
  | cons c cs ih =>
    rw [List.flatMap_cons, List.append_assoc, readBasic_escapedChar, ih]
    rfl

theorem readLiteral_append {cs : List Char} (hplain : ∀ c ∈ cs, isPlain c) (hquote : '\'' ∉ cs)
    (rest : List Char) : readLiteral (cs ++ '\'' :: rest) = some (cs, rest) := by
  induction cs with
  | nil => rfl
  | cons c cs ih =>
    rw [List.forall_mem_cons] at hplain
    rw [List.mem_cons, not_or] at hquote
    rw [List.cons_append, readLiteral, if_pos hplain.1, ih hplain.2 hquote.2]
    · rfl
    · exact Ne.symm hquote.1

/-! ### Closing quotes -/

/-- The number of characters `q` at the start of a text. -/
def run (q : Char) (cs : List Char) : Nat := (cs.takeWhile (· == q)).length

section Run

variable {q c : Char} {cs rest : List Char}

theorem run_cons_self (cs : List Char) : run q (q :: cs) = run q cs + 1 := by
  simp [run]

theorem run_cons_of_ne (h : c ≠ q) (cs : List Char) : run q (c :: cs) = 0 := by
  simp [run, h]

theorem run_of_head?_ne (h : rest.head? ≠ some q) : run q rest = 0 := by
  cases rest with
  | nil => rfl
  | cons c rest => exact run_cons_of_ne (by simpa using h) rest

theorem run_replicate_append (n : Nat) (h : rest.head? ≠ some q) :
    run q (List.replicate n q ++ rest) = n := by
  induction n with
  | zero => exact run_of_head?_ne h
  | succ n ih => rw [List.replicate_succ, List.cons_append, run_cons_self, ih]

theorem closing?_of_run_lt (h : run q cs < 3) : closing? q cs = none := if_pos h

theorem closing?_replicate {n : Nat} (hn : n ≤ 2) (h : rest.head? ≠ some q) :
    closing? q (List.replicate n q ++ q :: q :: q :: rest) = some (List.replicate n q, rest) := by
  have hquotes : List.replicate n q ++ q :: q :: q :: rest = List.replicate (n + 3) q ++ rest := by
    rw [← List.replicate_append_replicate, List.append_assoc]
    rfl
  have hrun : run q (List.replicate (n + 3) q ++ rest) = n + 3 := run_replicate_append _ h
  rw [hquotes]
  unfold run at hrun
  unfold closing?
  simp only [hrun, Nat.add_sub_cancel, Nat.min_eq_left hn]
  rw [if_neg (by omega), List.drop_left' List.length_replicate]

end Run

/-! ### Literal strings of several lines -/

/-- The characters of a string of several lines that stand for themselves. -/
def StandsForItself (c : Char) : Prop := isPlain c ∨ c = '\n'

theorem StandsForItself.ne_return {c : Char} (h : StandsForItself c) : c ≠ '\r' := by
  rintro rfl
  revert h
  unfold StandsForItself
  decide

theorem readLiteralLines_cons {c : Char} {rest : List Char} (hc : StandsForItself c)
    (hrun : run '\'' (c :: rest) < 3) :
    readLiteralLines (c :: rest) = prepend (some c) (readLiteralLines rest) := by
  rw [readLiteralLines, closing?_of_run_lt hrun]
  · refine if_pos ?_
    unfold StandsForItself at hc
    simpa [or_comm] using hc
  · exact fun _ h _ => hc.ne_return h

theorem hasRun_replicate_append (q : Char) (m : Nat) {n : Nat} (h : m ≤ n) (cs : List Char) :
    hasRun q m (List.replicate n q ++ cs) := by
  have hprefix : (List.replicate m q).isPrefixOf (List.replicate n q ++ cs) := by
    rw [List.isPrefixOf_iff_prefix]
    refine ⟨List.replicate (n - m) q ++ cs, ?_⟩
    rw [← List.append_assoc, List.replicate_append_replicate, Nat.add_sub_cancel' h]
  cases hcs : List.replicate n q ++ cs with
  | nil =>
    rw [hcs] at hprefix
    cases m with
    | zero => rfl
    | succ m => cases hprefix
  | cons c cs' =>
    rw [hcs] at hprefix
    rw [hasRun, hprefix, Bool.true_or]

/-- A text is a row of quotes and what is behind it. -/
theorem exists_eq_replicate_append (q : Char) (cs : List Char) :
    ∃ n tail, cs = List.replicate n q ++ tail ∧ tail.head? ≠ some q := by
  induction cs with
  | nil => exact ⟨0, [], rfl, nofun⟩
  | cons c cs ih =>
    by_cases hc : c = q
    · obtain ⟨n, tail, rfl, htail⟩ := ih
      exact ⟨n + 1, tail, by rw [hc]; rfl, htail⟩
    · exact ⟨0, c :: cs, rfl, by simpa using hc⟩

theorem run_append_lt {q : Char} {n : Nat} {tail rest : List Char} (hn : n < 3)
    (hne : tail ≠ []) (htail : tail.head? ≠ some q) :
    run q (List.replicate n q ++ tail ++ rest) < 3 := by
  have hhead : (tail ++ rest).head? ≠ some q := by
    cases tail with
    | nil => exact absurd rfl hne
    | cons c tail => exact htail
  rw [List.append_assoc, run_replicate_append n hhead]
  exact hn

theorem hasRun_of_cons {q : Char} {n : Nat} {c : Char} {cs : List Char}
    (h : hasRun q n (c :: cs) = false) : hasRun q n cs = false := by
  rw [hasRun, Bool.or_eq_false_iff] at h
  exact h.2

theorem readLiteralLines_append {cs rest : List Char} (hcs : ∀ c ∈ cs, StandsForItself c)
    (hrun : hasRun '\'' 3 cs = false) (hrest : rest.head? ≠ some '\'') :
    readLiteralLines (cs ++ '\'' :: '\'' :: '\'' :: rest) = some (cs, rest) := by
  induction cs with
  | nil =>
    have hclosing := closing?_replicate (Nat.zero_le 2) hrest
    change closing? _ (_ :: _) = _ at hclosing
    rw [List.nil_append, readLiteralLines, hclosing]
    · rfl
    · exact fun _ h => nomatch h
  | cons c cs ih =>
    rw [List.forall_mem_cons] at hcs
    obtain ⟨n, tail, heq, htail⟩ := exists_eq_replicate_append '\'' (c :: cs)
    have hn : n < 3 := by
      by_contra hn
      rw [heq, hasRun_replicate_append _ _ (Nat.not_lt.1 hn)] at hrun
      cases hrun
    by_cases hnil : tail = []
    · -- only quotes are left, and the closing ones follow them
      rw [hnil, List.append_nil] at heq
      have hclosing := closing?_replicate (Nat.le_of_lt_succ hn) hrest
      rw [← heq] at hclosing
      rw [List.cons_append] at hclosing ⊢
      rw [readLiteralLines, hclosing]
      exact fun _ h _ => hcs.1.ne_return h
    · have hrun' : run '\'' (c :: cs ++ '\'' :: '\'' :: '\'' :: rest) < 3 :=
        heq ▸ run_append_lt hn hnil htail
      rw [List.cons_append] at hrun' ⊢
      rw [readLiteralLines_cons hcs.1 hrun', ih hcs.2 (hasRun_of_cons hrun)]
      rfl

/-! ### Basic strings of several lines -/

theorem isSpace_of_shortEscape? {c e : Char} (h : shortEscape? e = some c) :
    (isSpace e || e = '\n' || e = '\r') = false := by
  unfold shortEscape? at h
  split at h <;> first | rfl | cases h

theorem readBasicLines_short {c e : Char} (h : shortEscape? e = some c) (rest : List Char) :
    readBasicLines false ('\\' :: e :: rest) = prepend (some c) (readBasicLines false rest) := by
  have hspace := isSpace_of_shortEscape? h
  rw [readBasicLines, h]
  · simp [hspace]
  · rintro a b c' d rest' rfl
    cases h
  · rintro a b c' d e' f g h' rest' rfl
    cases h

theorem readBasicLines_unit {a b c d : Char} {n : Nat} (h : Json.hexUnit? a b c d = some n)
    (rest : List Char) :
    readBasicLines false ('\\' :: 'u' :: a :: b :: c :: d :: rest) =
      prepend (scalar? n) (readBasicLines false rest) := by
  rw [readBasicLines, h]
  rfl

theorem readBasicLines_cons {c : Char} {rest : List Char} (hc : StandsForItself c)
    (hslash : c ≠ '\\') (hrun : run '"' (c :: rest) < 3) :
    readBasicLines false (c :: rest) = prepend (some c) (readBasicLines false rest) := by
  rw [readBasicLines, closing?_of_run_lt hrun]
  · simp only [Bool.false_and, Bool.false_eq_true, if_false]
    refine if_pos ?_
    rcases hc with hc | hc <;> simp [hc, hslash]
  · exact fun _ h _ => hc.ne_return h
  · exact fun _ _ _ _ _ h _ => hslash h
  · exact fun _ _ _ _ _ _ _ _ _ h _ => hslash h
  · exact fun _ _ h _ => hslash h

theorem readBasicLines_escapedChar {c : Char} (hquote : c ≠ '"') (rest : List Char) :
    readBasicLines false (escapedChar c ++ rest) = prepend (some c) (readBasicLines false rest) := by
  rcases escapedChar_cases c with ⟨e, hc, he⟩ | ⟨hlt, hc⟩ | ⟨hc, hplain, -, hslash⟩
  · rw [hc]
    exact readBasicLines_short he rest
  · rw [hc, ← scalar?_toNat hlt]
    exact readBasicLines_unit (hexUnit?_hexDigit _ hlt) rest
  · rw [hc]
    refine readBasicLines_cons (.inl hplain) hslash ?_
    rw [run_cons_of_ne hquote]
    decide

theorem readBasicLines_closing {cs : List Char} {r : List Char × List Char}
    (h : closing? '"' ('"' :: cs) = some r) : readBasicLines false ('"' :: cs) = some r := by
  rw [readBasicLines, h]
  all_goals simp

theorem head?_escapedChar_ne (c : Char) (rest : List Char) :
    (escapedChar c ++ rest).head? ≠ some '"' := by
  rcases escapedChar_cases c with ⟨e, hc, -⟩ | ⟨-, hc⟩ | ⟨hc, -, hquote, -⟩
  · simp [hc]
  · simp [hc]
  · simpa [hc] using hquote

/-- What is written of a text behind `k` quotes starts with so few quotes that there are no three in a
row; if nothing else is written, the text was these quotes. -/
theorem escapedLines_starts {k : Nat} (hk : k ≤ 2) (cs : List Char) :
    ∃ n tail, n + k ≤ 2 ∧ escapedLines k cs = List.replicate n '"' ++ tail ∧
      tail.head? ≠ some '"' ∧ (tail = [] → cs = List.replicate n '"') := by
  induction cs generalizing k with
  | nil => exact ⟨0, [], by omega, rfl, nofun, fun _ => rfl⟩
  | cons c cs ih =>
    unfold escapedLines
    split_ifs with hquote hfew hbreak
    · obtain ⟨n, tail, hn, hwritten, htail, hall⟩ := ih (k := k + 1) (by omega)
      refine ⟨n + 1, tail, by omega, ?_, htail, fun hnil => ?_⟩
      · rw [hwritten]
        rfl
      · rw [hall hnil, hquote]
        rfl
    · exact ⟨0, _, by omega, rfl, by simp, nofun⟩
    · exact ⟨0, _, by omega, rfl, by simp, nofun⟩
    · refine ⟨0, _, by omega, rfl, head?_escapedChar_ne c _, fun hnil => ?_⟩
      have hempty : escapedChar c = [] := (List.append_eq_nil_iff.1 hnil).1
      rcases escapedChar_cases c with ⟨e, hc, -⟩ | ⟨-, hc⟩ | ⟨hc, -⟩ <;> rw [hc] at hempty <;>
        cases hempty

theorem readBasicLines_escapedLines {k : Nat} (hk : k ≤ 2) {rest : List Char}
    (hrest : rest.head? ≠ some '"') (cs : List Char) :
    readBasicLines false (escapedLines k cs ++ '"' :: '"' :: '"' :: rest) = some (cs, rest) := by
  induction cs generalizing k with
  | nil => exact readBasicLines_closing (closing?_replicate (Nat.zero_le 2) hrest)
  | cons c cs ih =>
    obtain ⟨n, tail, hn, hwritten, htail, hall⟩ := escapedLines_starts hk (c :: cs)
    by_cases hnil : tail = []
    · have hclosing := closing?_replicate (n := n) (by omega) hrest
      rw [hwritten, hnil, List.append_nil, hall hnil]
      cases n with
      | zero => cases hall hnil
      | succ n => exact readBasicLines_closing hclosing
    · have hrun : run '"' (escapedLines k (c :: cs) ++ '"' :: '"' :: '"' :: rest) < 3 :=
        hwritten ▸ run_append_lt (by omega) hnil htail
      unfold escapedLines at hrun ⊢
      split_ifs at hrun ⊢ with hquote hfew hbreak
      · rw [List.cons_append] at hrun ⊢
        rw [readBasicLines_cons (.inl rfl) (by decide) hrun, ih (by omega), hquote]
        rfl
      · change readBasicLines false ('\\' :: '"' :: (escapedLines 0 cs ++ _)) = _
        rw [readBasicLines_short rfl, ih (by omega), hquote]
        rfl
      · rw [List.cons_append] at hrun ⊢
        rw [readBasicLines_cons (.inr rfl) (by decide) hrun, ih (by omega), hbreak]
        rfl
      · rw [List.append_assoc, readBasicLines_escapedChar hquote, ih (by omega)]
        rfl

/-! ### Any form -/

theorem plain_of_ofText_literal {cs : List Char} (h : StringStyle.ofText cs = .literal) :
    (∀ c ∈ cs, isPlain c) ∧ '\'' ∉ cs := by
  unfold StringStyle.ofText at h
  dsimp only at h
  split_ifs at h with h₁ h₂
  simp only [Bool.and_eq_true, Bool.not_eq_true', List.any_eq_false, List.contains_eq_mem,
    decide_eq_false_iff_not] at h₂
  obtain ⟨⟨hcontrols, hlines⟩, hquote⟩ := h₂
  refine ⟨fun c hc => ?_, hquote⟩
  have hbreak : c ≠ '\n' := fun heq => hlines (heq ▸ hc)
  simpa [hbreak] using hcontrols c hc

theorem stands_of_ofText_literalLines {cs : List Char}
    (h : StringStyle.ofText cs = .literalLines) :
    (∀ c ∈ cs, StandsForItself c) ∧ hasRun '\'' 3 cs = false := by
  unfold StringStyle.ofText at h
  dsimp only at h
  split_ifs at h with h₁ h₂ h₃ h₄
  simp only [Bool.and_eq_true, Bool.not_eq_true', List.any_eq_false] at h₄
  obtain ⟨hcontrols, hrun⟩ := h₄
  refine ⟨fun c hc => ?_, hrun⟩
  have hplain := hcontrols c hc
  unfold StandsForItself
  by_contra hnot
  simp_all

/-- The line break after the opening quotes is dropped, and no other is there to be dropped. -/
theorem skipFirstBreak_append {text tail : List Char}
    (h : '\n' ∉ text → ∀ c ∈ tail.head?, c ≠ '\n' ∧ c ≠ '\r') :
    skipFirstBreak ((if text.contains '\n' then ['\n'] else []) ++ tail) = tail := by
  split
  · rfl
  · next hbreak =>
    have hhead := h (by simpa using hbreak)
    rw [List.nil_append]
    unfold skipFirstBreak newline?
    split
    · exact absurd rfl (hhead _ rfl).1
    · exact absurd rfl (hhead _ rfl).2
    · rfl

theorem ne_break_of_isPlain {c : Char} (h : isPlain c) : c ≠ '\n' ∧ c ≠ '\r' := by
  constructor <;> rintro rfl <;> cases h

theorem head_escapedLines {cs : List Char} (h : '\n' ∉ cs) (rest : List Char) :
    ∀ c ∈ (escapedLines 0 cs ++ '"' :: rest).head?, c ≠ '\n' ∧ c ≠ '\r' := by
  cases cs with
  | nil => simp [escapedLines]
  | cons c cs =>
    have hc : c ≠ '\n' := fun heq => h (heq ▸ List.mem_cons_self)
    unfold escapedLines
    split_ifs with hquote hfew
    · simp
    · cases hfew (by decide)
    · rcases escapedChar_cases c with ⟨e, hwritten, -⟩ | ⟨-, hwritten⟩ | ⟨hwritten, hplain, -⟩ <;>
        rw [hwritten]
      · simp
      · simp
      · simpa using ne_break_of_isPlain hplain

theorem head_literal {cs : List Char} (hcs : ∀ c ∈ cs, StandsForItself c) (h : '\n' ∉ cs)
    (rest : List Char) : ∀ c ∈ (cs ++ '\'' :: rest).head?, c ≠ '\n' ∧ c ≠ '\r' := by
  cases cs with
  | nil => simp
  | cons c cs =>
    rw [List.forall_mem_cons] at hcs
    have hc : c ≠ '\n' := fun heq => h (heq ▸ List.mem_cons_self)
    simpa using ⟨hc, hcs.1.ne_return⟩

/-- A string on one line is not taken for the start of one of several. -/
theorem readString_of_line {q : Char} {cs : List Char}
    (h : ∀ rest, cs ≠ q :: q :: rest) : readString (q :: cs) = readLineString (q :: cs) := by
  rw [readString]
  · rintro rest ⟨⟩
    exact h rest rfl
  · rintro rest ⟨⟩
    exact h rest rfl

theorem readString_basic (cs : List Char) {rest : List Char} (hrest : rest.head? ≠ some '"') :
    readString ('"' :: (cs.flatMap escapedChar ++ '"' :: rest)) = some (String.ofList cs, rest) := by
  rw [readString_of_line, readLineString, readBasic_flatMap_escapedChar]
  · rfl
  intro rest' heq
  cases cs with
  | nil =>
    cases heq
    exact hrest rfl
  | cons c cs =>
    rw [List.flatMap_cons, List.append_assoc] at heq
    exact head?_escapedChar_ne c _ (congrArg List.head? heq)

theorem readString_literal {cs : List Char} (hplain : ∀ c ∈ cs, isPlain c) (hquote : '\'' ∉ cs)
    {rest : List Char} (hrest : rest.head? ≠ some '\'') :
    readString ('\'' :: (cs ++ '\'' :: rest)) = some (String.ofList cs, rest) := by
  rw [readString_of_line, readLineString, readLiteral_append hplain hquote]
  · rfl
  intro rest' heq
  cases cs with
  | nil =>
    cases heq
    exact hrest rfl
  | cons c cs =>
    have hc : c = '\'' := (List.cons.inj heq).1
    exact hquote (hc ▸ List.mem_cons_self)

theorem readString_basicLines (cs : List Char) {rest : List Char}
    (hrest : rest.head? ≠ some '"') :
    readString (StringStyle.render cs .basicLines ++ rest) = some (String.ofList cs, rest) := by
  have htail : StringStyle.render cs .basicLines ++ rest = '"' :: '"' :: '"' ::
      ((if cs.contains '\n' then ['\n'] else []) ++
        (escapedLines 0 cs ++ '"' :: '"' :: '"' :: rest)) := by
    simp [StringStyle.render, StringStyle.betweenLines]
  rw [htail, readString, skipFirstBreak_append fun h => head_escapedLines h _,
    readBasicLines_escapedLines (Nat.zero_le 2) hrest]
  rfl

theorem readString_literalLines {cs : List Char} (hcs : ∀ c ∈ cs, StandsForItself c)
    (hrun : hasRun '\'' 3 cs = false) {rest : List Char} (hrest : rest.head? ≠ some '\'') :
    readString (StringStyle.render cs .literalLines ++ rest) = some (String.ofList cs, rest) := by
  have htail : StringStyle.render cs .literalLines ++ rest = '\'' :: '\'' :: '\'' ::
      ((if cs.contains '\n' then ['\n'] else []) ++ (cs ++ '\'' :: '\'' :: '\'' :: rest)) := by
    simp [StringStyle.render, StringStyle.betweenLines]
  rw [htail, readString, skipFirstBreak_append fun h => head_literal hcs h _,
    readLiteralLines_append hcs hrun hrest]
  rfl

/-- A text is read back from its written form, behind which no quote stands. -/
theorem readString_renderString (s : String) {rest : List Char}
    (hbasic : rest.head? ≠ some '"') (hliteral : rest.head? ≠ some '\'') :
    readString (renderString s ++ rest) = some (s, rest) := by
  unfold renderString
  cases hstyle : StringStyle.ofText s.toList with
  | basic =>
    have hread := readString_basic s.toList hbasic
    rw [String.ofList_toList] at hread
    rw [StringStyle.render, List.append_assoc, List.singleton_append]
    exact hread
  | literal =>
    obtain ⟨hplain, hquote⟩ := plain_of_ofText_literal hstyle
    have hread := readString_literal hplain hquote hliteral
    rw [String.ofList_toList] at hread
    rw [StringStyle.render, List.append_assoc, List.singleton_append]
    exact hread
  | basicLines =>
    rw [readString_basicLines _ hbasic, String.ofList_toList]
  | literalLines =>
    obtain ⟨hstands, hrun⟩ := stands_of_ofText_literalLines hstyle
    rw [readString_literalLines hstands hrun hliteral, String.ofList_toList]

end LedgerExplorer.Toml
