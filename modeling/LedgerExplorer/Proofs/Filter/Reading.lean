import LedgerExplorer.Filter.Draft
import LedgerExplorer.Proofs.Text.Percent

/-!
# Reading tokens back

A draft is a reading of a text if the text is its field, an equals sign, the marks of the flags that
are set, the symbol of its operator and its percent-encoded value, one after the other. The symbols
share characters with each other and with the equals sign, but a text with a field that has no equals
sign has no second reading.
-/

namespace LedgerExplorer

namespace Operator

theorem not_isEscaped_of_mem_symbol {op : Operator} : ∀ c ∈ op.symbol.toList, ¬ Text.isEscaped c := by
  have hall : op.symbol.toList.all fun c => !Text.isEscaped c := by
    cases op <;> decide
  simpa using hall

theorem symbol_ne_nil (op : Operator) : op.symbol.toList ≠ [] := by
  cases op <;> decide

theorem mark_not_mem_symbol {op : Operator} :
    '!' ∉ op.symbol.toList ∧ ':' ∉ op.symbol.toList ∧ '&' ∉ op.symbol.toList := by
  cases op <;> decide

/-- No symbol is the beginning of another one. -/
theorem symbol_prefixFree {op op' : Operator} (h : op.symbol.toList <+: op'.symbol.toList) :
    op = op' := by
  cases op <;> cases op' <;> first | rfl | exact absurd h (by decide)

theorem symbol_append_inj {op op' : Operator} {cs cs' : List Char}
    (h : op.symbol.toList ++ cs = op'.symbol.toList ++ cs') : op = op' ∧ cs = cs' := by
  have hop : op = op' := by
    have hfirst : op.symbol.toList <+: op'.symbol.toList ++ cs' := ⟨cs, h⟩
    rcases List.prefix_or_prefix_of_prefix hfirst (List.prefix_append _ _) with hpre | hpre
    · exact symbol_prefixFree hpre
    · exact (symbol_prefixFree hpre).symm
  subst hop
  exact ⟨rfl, List.append_cancel_left h⟩

theorem head?_symbol_append (op : Operator) (cs : List Char) :
    ∃ c ∈ op.symbol.toList, (op.symbol.toList ++ cs).head? = some c := by
  obtain ⟨c, rest, hsymbol⟩ := List.exists_cons_of_ne_nil op.symbol_ne_nil
  exact ⟨c, by simp [hsymbol], by simp [hsymbol]⟩

end Operator

namespace FilterDraft

variable {d e : FilterDraft} {cs cs' : List Char}

/-- Flags take effect only if the operator has modifiers. -/
def effective (d : FilterDraft) : FilterDraft :=
  { d with
    negate := d.operator.hasModifiers && d.negate
    caseInsensitive := d.operator.hasModifiers && d.caseInsensitive }

/-- A text behind a mark, if the mark is set. -/
def marked (mark : Char) (set : Bool) (cs : List Char) : List Char := if set then mark :: cs else cs

def comparison (d : FilterDraft) : List Char :=
  d.operator.symbol.toList ++ Text.percentEncodeWith Text.isUnreserved d.value.toList

/-- The comparison behind the marks of all flags that are set. -/
def condition (d : FilterDraft) : List Char :=
  marked '!' d.negate (marked ':' d.caseInsensitive d.comparison)

/-- The text that a draft is a reading of. -/
def written (d : FilterDraft) : List Char := d.field.toList ++ '=' :: d.condition

/-! ## Comparisons and their marks -/

theorem marked_inj {mark : Char} {set set' : Bool} (hcs : cs.head? ≠ some mark)
    (hcs' : cs'.head? ≠ some mark) (h : marked mark set cs = marked mark set' cs') :
    set = set' ∧ cs = cs' := by
  unfold marked at h
  cases set <;> cases set'
  · exact ⟨rfl, h⟩
  · exact absurd (congrArg List.head? h) hcs
  · exact absurd (congrArg List.head? h).symm hcs'
  · exact ⟨rfl, List.tail_eq_of_cons_eq h⟩

/-- Marks and a symbol can be read off a text, whatever stands behind them. -/
theorem marks_inj {op op' : Operator} {negate negate' blind blind' : Bool}
    (h : marked '!' negate (marked ':' blind (op.symbol.toList ++ cs)) =
      marked '!' negate' (marked ':' blind' (op'.symbol.toList ++ cs'))) :
    negate = negate' ∧ blind = blind' ∧ op = op' ∧ cs = cs' := by
  have hcolon (op : Operator) (cs : List Char) : (op.symbol.toList ++ cs).head? ≠ some ':' := by
    obtain ⟨c, hc, hhead⟩ := op.head?_symbol_append cs
    rw [hhead]
    exact fun heq => Operator.mark_not_mem_symbol.2.1 (Option.some.inj heq ▸ hc)
  have hbang (op : Operator) (blind : Bool) (cs : List Char) :
      (marked ':' blind (op.symbol.toList ++ cs)).head? ≠ some '!' := by
    unfold marked
    split
    · exact fun heq => absurd (Option.some.inj heq) (by decide)
    · obtain ⟨c, hc, hhead⟩ := op.head?_symbol_append cs
      rw [hhead]
      exact fun heq => Operator.mark_not_mem_symbol.1 (Option.some.inj heq ▸ hc)
  obtain ⟨hnegate, hrest⟩ := marked_inj (hbang op blind cs) (hbang op' blind' cs') h
  obtain ⟨hblind, hcomparison⟩ := marked_inj (hcolon op cs) (hcolon op' cs') hrest
  exact ⟨hnegate, hblind, Operator.symbol_append_inj hcomparison⟩

/-! ## The equals sign behind the field -/

/-- Nothing but an encoded text follows an equals sign. -/
def EscapedAfterEquals (cs : List Char) : Prop :=
  ∀ rest, '=' :: rest <:+ cs → ∀ c ∈ rest, Text.isEscaped c

theorem escapedAfterEquals_cons (h : ∀ c ∈ cs, Text.isEscaped c) (a : Char) :
    EscapedAfterEquals (a :: cs) := by
  intro rest hrest c hc
  rcases List.suffix_cons_iff.1 hrest with heq | hsuffix
  · exact h c (List.tail_eq_of_cons_eq heq ▸ hc)
  · exact h c (hsuffix.subset (List.mem_cons_of_mem _ hc))

theorem EscapedAfterEquals.cons (h : EscapedAfterEquals cs) {a : Char} (ha : a ≠ '=') :
    EscapedAfterEquals (a :: cs) := by
  intro rest hrest
  rcases List.suffix_cons_iff.1 hrest with heq | hsuffix
  · exact absurd (List.head_eq_of_cons_eq heq).symm ha
  · exact h rest hsuffix

theorem EscapedAfterEquals.marked (h : EscapedAfterEquals cs) {mark : Char} (hmark : mark ≠ '=')
    (set : Bool) : EscapedAfterEquals (marked mark set cs) := by
  unfold FilterDraft.marked
  split
  · exact h.cons hmark
  · exact h

/-- An equals sign can only be the last character of a symbol. -/
theorem escapedAfterEquals_comparison (d : FilterDraft) : EscapedAfterEquals d.comparison := by
  have hvalue : ∀ c ∈ Text.percentEncodeWith Text.isUnreserved d.value.toList, Text.isEscaped c :=
    fun c hc => Text.isEscaped_of_mem_percentEncodeWith hc
  unfold comparison
  cases d.operator with
  | eq | contains | startsWith | endsWith => exact escapedAfterEquals_cons hvalue _
  | gt | gte | lt | lte => exact (escapedAfterEquals_cons hvalue _).cons (by decide)

theorem escapedAfterEquals_condition (d : FilterDraft) : EscapedAfterEquals d.condition :=
  (d.escapedAfterEquals_comparison.marked (by decide) _).marked (by decide) _

/-- Every condition has a character that no encoded text has. -/
theorem exists_mem_condition (d : FilterDraft) : ∃ c ∈ d.condition, ¬ Text.isEscaped c := by
  obtain ⟨c, hc⟩ := List.exists_mem_of_ne_nil _ d.operator.symbol_ne_nil
  refine ⟨c, ?_, Operator.not_isEscaped_of_mem_symbol c hc⟩
  have hcomparison : c ∈ d.comparison := List.mem_append_left _ hc
  unfold condition marked
  split <;> split <;> simp [hcomparison]

/-- A text has at most one reading, if it has one whose field is free of equals signs. -/
theorem eq_of_written_eq (hfield : '=' ∉ d.field.toList) (h : e.written = d.written) : e = d := by
  have hparts : e.field.toList = d.field.toList ∧ e.condition = d.condition := by
    rcases List.append_eq_append_iff.1 h with ⟨more, hd, hrest⟩ | ⟨more, he, hrest⟩
    · cases more with
      | nil =>
        rw [List.append_nil] at hd
        exact ⟨hd.symm, List.tail_eq_of_cons_eq hrest⟩
      | cons a more =>
        cases List.head_eq_of_cons_eq hrest
        exact absurd (hd ▸ List.mem_append_right _ List.mem_cons_self) hfield
    · cases more with
      | nil =>
        rw [List.append_nil] at he
        exact ⟨he, (List.tail_eq_of_cons_eq hrest).symm⟩
      | cons a more =>
        -- the other reading would start its condition behind the equals sign of this one's symbol
        have hsuffix : '=' :: e.condition <:+ d.condition :=
          ⟨more, (List.tail_eq_of_cons_eq hrest).symm⟩
        obtain ⟨c, hc, hescaped⟩ := e.exists_mem_condition
        exact absurd (d.escapedAfterEquals_condition _ hsuffix c hc) hescaped
  obtain ⟨hfields, hcondition⟩ := hparts
  obtain ⟨hnegate, hcase, hoperator, hencoded⟩ := marks_inj hcondition
  have hvalue := Text.percentEncodeWith_injective rfl hencoded
  cases e
  cases d
  simp_all [String.toList_inj]

/-! ## Tokens -/

theorem toList_tokenWith (d : FilterDraft) (value : String) :
    (d.tokenWith value).text.toList = d.field.toList ++ '=' :: marked '!' d.effective.negate
      (marked ':' d.effective.caseInsensitive (d.operator.symbol.toList ++ value.toList)) := by
  unfold tokenWith marks effective marked
  cases d.operator.hasModifiers <;> cases d.negate <;> cases d.caseInsensitive <;> simp

/-- The token of a draft is the text of what takes effect of it. -/
theorem toList_compileEncoded (d : FilterDraft) :
    d.compileEncoded.text.toList = d.effective.written := by
  rw [compileEncoded, toList_tokenWith, Text.toList_percentEncode]
  rfl

theorem separator_not_mem_written (hfield : '&' ∉ d.field.toList) : '&' ∉ d.written := by
  have hcomparison : '&' ∉ d.comparison := by
    intro hmem
    rcases List.mem_append.1 hmem with hsymbol | hvalue
    · exact Operator.mark_not_mem_symbol.2.2 hsymbol
    · exact absurd (Text.isEscaped_of_mem_percentEncodeWith hvalue) (by decide)
  unfold written condition marked
  split <;> split <;> simp [hfield, hcomparison]

end FilterDraft

end LedgerExplorer
