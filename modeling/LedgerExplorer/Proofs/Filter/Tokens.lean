import LedgerExplorer.Proofs.Filter.Reading
import LedgerExplorer.Proofs.Lists

/-!
# What tokens tell

A token with the value as it is tells which condition it stands for, although a value may begin with
what looks like marks or like the rest of a longer symbol: marks and symbols end where they end,
whatever follows. Only the field has to be free of equals signs. Flags that an operator does not have
leave no trace.

The token with the value percent-encoded has the same text in front of the value. It is never shorter,
and it is the same token exactly if the value needs no escapes.
-/

namespace LedgerExplorer

namespace FilterDraft

variable {d e : FilterDraft} {value value' : String}

/-! ## Conditions of tokens -/

theorem tokenWith_inj (hd : '=' ∉ d.field.toList) (he : '=' ∉ e.field.toList)
    (h : d.tokenWith value = e.tokenWith value') :
    d.field = e.field ∧ d.effective.negate = e.effective.negate ∧
      d.effective.caseInsensitive = e.effective.caseInsensitive ∧ d.operator = e.operator ∧
      value = value' := by
  have htext := congrArg (·.text.toList) h
  simp only [toList_tokenWith] at htext
  obtain ⟨hfield, hcondition⟩ := append_cons_inj hd he htext
  obtain ⟨hnegate, hblind, hoperator, hvalue⟩ := marks_inj hcondition
  exact ⟨String.toList_inj.1 hfield, hnegate, hblind, hoperator, String.toList_inj.1 hvalue⟩

/-- Flags take the same effect exactly if they are the same or the operator has none. -/
theorem effective_flags_eq_iff (hoperator : d.operator = e.operator) :
    d.effective.negate = e.effective.negate ∧
        d.effective.caseInsensitive = e.effective.caseInsensitive ↔
      (d.operator.hasModifiers → d.negate = e.negate ∧ d.caseInsensitive = e.caseInsensitive) := by
  unfold effective
  rw [← hoperator]
  cases d.operator.hasModifiers <;> simp

/-- Tokens of drafts whose fields are free of equals signs are the same exactly if the drafts have the
same field, operator and value, and the same flags if the operator has modifiers. -/
theorem plain_token_determines_condition (hd : '=' ∉ d.field.toList) (he : '=' ∉ e.field.toList) :
    d.compile = e.compile ↔
      d.field = e.field ∧ d.operator = e.operator ∧ d.value = e.value ∧
        (d.operator.hasModifiers →
          d.negate = e.negate ∧ d.caseInsensitive = e.caseInsensitive) := by
  constructor
  · intro h
    obtain ⟨hfield, hnegate, hblind, hoperator, hvalue⟩ := tokenWith_inj hd he h
    exact ⟨hfield, hoperator, hvalue, (effective_flags_eq_iff hoperator).1 ⟨hnegate, hblind⟩⟩
  · rintro ⟨hfield, hoperator, hvalue, hflags⟩
    obtain ⟨hnegate, hblind⟩ := (effective_flags_eq_iff hoperator).2 hflags
    have htext : d.compile.text.toList = e.compile.text.toList := by
      unfold compile
      rw [toList_tokenWith, toList_tokenWith, hfield, hnegate, hblind, hoperator, hvalue]
    exact congrArg FilterToken.mk (String.toList_inj.1 htext)

/-- The value goes on like a longer symbol, and flags are set that the operator does not have. -/
def misleading : FilterDraft :=
  { field := "amount", operator := .gt, value := "=5", negate := true }

theorem misleading_token_determines_condition :
    misleading.compile = ⟨"amount=>>=5"⟩ ∧
    (∀ d : FilterDraft, '=' ∉ d.field.toList → d.compile = ⟨"amount=>>=5"⟩ →
      d.operator = .gt ∧ d.value = "=5") ∧
    misleading.compile = { misleading with negate := false, caseInsensitive := true }.compile ∧
    misleading.compile ≠ { misleading with operator := .eq, value := ">>=5" }.compile := by
  have hfield : '=' ∉ misleading.field.toList := by decide
  have htoken : misleading.compile = ⟨"amount=>>=5"⟩ := by decide
  refine ⟨htoken, fun d hd h => ?_, ?_, fun h => ?_⟩
  · obtain ⟨-, hoperator, hvalue, -⟩ :=
      (plain_token_determines_condition hd hfield).1 (h.trans htoken.symm)
    exact ⟨hoperator, hvalue⟩
  · exact (plain_token_determines_condition hfield hfield).2
      ⟨rfl, rfl, rfl, fun h => absurd h (by decide)⟩
  · have hother : '=' ∉ { misleading with operator := .eq, value := ">>=5" }.field.toList := hfield
    obtain ⟨-, hoperator, -⟩ := (plain_token_determines_condition hfield hother).1 h
    exact absurd hoperator (by decide)

/-- A field that ends in an equals sign can pass for a shorter one. -/
example : compile ⟨"pool=", .eq, "p1", false, false⟩ = compile ⟨"pool", .eq, "=p1", false, false⟩ := by
  decide

/-! ## Plain and encoded tokens -/

/-- What the tokens of a draft have in front of its value. -/
def lead (d : FilterDraft) : List Char :=
  (d.field ++ "=" ++ d.marks ++ d.operator.symbol).toList

theorem toList_tokenWith_eq_lead (d : FilterDraft) (value : String) :
    (d.tokenWith value).text.toList = d.lead ++ value.toList := by
  rw [tokenWith, String.toList_append, lead]

theorem toList_compile (d : FilterDraft) : d.compile.text.toList = d.lead ++ d.value.toList :=
  d.toList_tokenWith_eq_lead d.value

theorem toList_compileEncoded_eq_lead (d : FilterDraft) :
    d.compileEncoded.text.toList =
      d.lead ++ Text.percentEncodeWith Text.isUnreserved d.value.toList := by
  rw [compileEncoded, toList_tokenWith_eq_lead, Text.toList_percentEncode]

theorem percent_not_mem_lead (h : '%' ∉ d.field.toList) : '%' ∉ d.lead := by
  have hmarks : '%' ∉ d.marks.toList := by
    unfold marks
    cases d.operator.hasModifiers <;> cases d.negate <;> cases d.caseInsensitive <;> decide
  have hsymbol : '%' ∉ d.operator.symbol.toList :=
    fun hmem => Operator.not_isEscaped_of_mem_symbol '%' hmem (by decide)
  simp [lead, h, hmarks, hsymbol]

theorem length_compile_le (d : FilterDraft) :
    d.compile.text.toList.length ≤ d.compileEncoded.text.toList.length := by
  rw [toList_compile, toList_compileEncoded_eq_lead, List.length_append, List.length_append]
  exact Nat.add_le_add_left (Text.length_le_length_percentEncodeWith _ _) _

theorem compile_eq_compileEncoded_iff (d : FilterDraft) :
    d.compile.text.toList = d.compileEncoded.text.toList ↔
      ∀ c ∈ d.value.toList, Text.isUnreserved c := by
  rw [toList_compile, toList_compileEncoded_eq_lead, List.append_cancel_left_eq, eq_comm,
    Text.percentEncodeWith_eq_self_iff]

/-- Decoding an encoded token gives the plain one, whatever follows it. -/
theorem percentDecode_compileEncoded_append (h : '%' ∉ d.field.toList) (rest : List Char) :
    Text.percentDecode (d.compileEncoded.text.toList ++ rest) =
      d.compile.text.toList.flatMap String.utf8EncodeChar ++ Text.percentDecode rest := by
  rw [toList_compileEncoded_eq_lead, toList_compile, List.append_assoc,
    Text.percentDecode_append (percent_not_mem_lead h),
    Text.percentDecode_percentEncodeWith_append rfl, List.flatMap_append, List.append_assoc]

end FilterDraft

end LedgerExplorer
