import LedgerExplorer.Filter.Typed
import LedgerExplorer.Proofs.Filter.Reading

/-!
# Reading typed filters

A typed filter is cut at its first two colons, and its operator is freed from a mark on either side.
Neither the fields of a collection nor the names of operators have anything in them that could be
taken for a colon or for a mark, so the draft of a typed filter is the only one that is typed like
this.
-/

namespace LedgerExplorer

theorem Operator.ofName?_eq_some_iff {name : String} {op : Operator} :
    ofName? name = some op ↔ op.name = name := by
  constructor
  · intro h
    simpa using List.find?_some h
  · rintro rfl
    cases op <;> rfl

theorem Collection.colon_not_mem_field {c : Collection} {field : String}
    (h : field ∈ c.filterFields) : ':' ∉ field.toList := by
  have hall : c.filterFields.all fun field => !field.toList.contains ':' := by
    cases c <;> decide
  simpa using List.all_eq_true.1 hall field h

namespace FilterDraft

variable {cs front back : List Char}

/-! ## The colons -/

theorem eq_of_splitColon (h : splitColon cs = some (front, back)) : cs = front ++ ':' :: back := by
  induction cs generalizing front with
  | nil => cases h
  | cons c cs ih =>
    unfold splitColon at h
    split at h
    · next hc =>
      cases h
      rw [hc, List.nil_append]
    · obtain ⟨⟨front', back'⟩, hrest, heq⟩ := Option.map_eq_some_iff.1 h
      cases heq
      rw [ih hrest, List.cons_append]

theorem splitColon_append (h : ':' ∉ front) (back : List Char) :
    splitColon (front ++ ':' :: back) = some (front, back) := by
  induction front with
  | nil => exact if_pos rfl
  | cons c front ih =>
    obtain ⟨hc, hfront⟩ := List.ne_and_not_mem_of_not_mem_cons h
    rw [List.cons_append, splitColon, if_neg (Ne.symm hc), ih hfront]
    rfl

/-! ## The marks of an operator -/

/-- A text before the mark of blindness, if the mark is set. -/
def ended (set : Bool) (cs : List Char) : List Char := if set then cs ++ ['/', 'i'] else cs

theorem marked_splitNegation (cs : List Char) :
    marked '!' (splitNegation cs).1 (splitNegation cs).2 = cs := by
  unfold splitNegation
  split <;> rfl

theorem splitNegation_marked (h : cs.head? ≠ some '!') (set : Bool) :
    splitNegation (marked '!' set cs) = (set, cs) := by
  cases set with
  | true => rfl
  | false =>
    change splitNegation cs = (false, cs)
    unfold splitNegation
    split
    · exact absurd rfl h
    · rfl

theorem ended_splitBlindness (cs : List Char) :
    ended (splitBlindness cs).1 (splitBlindness cs).2 = cs := by
  unfold splitBlindness
  split
  · next front hfront =>
    have hcs := congrArg List.reverse hfront
    simpa [ended] using hcs.symm
  · rfl

theorem splitBlindness_ended (h : ¬ ['/', 'i'] <:+ cs) (set : Bool) :
    splitBlindness (ended set cs) = (set, cs) := by
  cases set with
  | true => simp [splitBlindness, ended]
  | false =>
    change splitBlindness cs = (false, cs)
    unfold splitBlindness
    split
    · next front hfront =>
      have hcs := congrArg List.reverse hfront
      rw [List.reverse_reverse, List.reverse_cons, List.reverse_cons, List.append_assoc] at hcs
      exact absurd ⟨front.reverse, hcs.symm⟩ h
    · rfl

/-! ## Drafts as they are typed -/

/-- No name of an operator has a mark of its own or a colon. -/
theorem name_unmarked (op : Operator) :
    (∀ set, (ended set op.name.toList).head? ≠ some '!') ∧ ¬ ['/', 'i'] <:+ op.name.toList ∧
      ':' ∉ op.name.toList := by
  cases op <;> decide

/-- The operator of a draft with its marks. -/
def typedOperator (d : FilterDraft) : List Char :=
  marked '!' d.negate (ended d.caseInsensitive d.operator.name.toList)

theorem toList_typed (d : FilterDraft) :
    d.typed.toList = d.field.toList ++ ':' :: (d.typedOperator ++ ':' :: d.value.toList) := by
  unfold typed typedOperator marked ended
  cases d.negate <;> cases d.caseInsensitive <;> simp

theorem colon_not_mem_typedOperator (d : FilterDraft) : ':' ∉ d.typedOperator := by
  obtain ⟨-, -, hcolon⟩ := name_unmarked d.operator
  unfold typedOperator marked ended
  split <;> split <;> simp [hcolon]

theorem ofTyped_typed {c : Collection} {d : FilterDraft} (h : d.field ∈ c.filterFields) :
    ofTyped c d.typed = .ok d := by
  obtain ⟨hbang, hslash, -⟩ := name_unmarked d.operator
  have hallowed : c.allowsField d.field := List.contains_iff_mem.2 h
  unfold ofTyped
  simp only [toList_typed, splitColon_append (Collection.colon_not_mem_field h),
    splitColon_append d.colon_not_mem_typedOperator, String.ofList_toList, hallowed, if_true]
  unfold typedOperator
  simp only [splitNegation_marked (hbang _), splitBlindness_ended hslash, String.ofList_toList,
    Operator.ofName?_eq_some_iff.2 rfl]

theorem of_ofTyped {c : Collection} {spec : String} {d : FilterDraft}
    (h : ofTyped c spec = .ok d) : d.field ∈ c.filterFields ∧ spec = d.typed := by
  unfold ofTyped at h
  split at h
  · cases h
  next field rest hfield =>
  split at h
  · cases h
  next op value hop =>
  dsimp only at h
  split at h
  case isFalse => cases h
  next hallowed =>
  split at h
  · cases h
  next operator hname =>
  cases h
  refine ⟨List.contains_iff_mem.1 hallowed, ?_⟩
  have hop' : marked '!' (splitNegation op).1
      (ended (splitBlindness (splitNegation op).2).1 operator.name.toList) = op := by
    rw [Operator.ofName?_eq_some_iff.1 hname, String.toList_ofList, ended_splitBlindness,
      marked_splitNegation]
  apply String.toList_inj.1
  rw [toList_typed, eq_of_splitColon hfield, eq_of_splitColon hop, typedOperator, hop',
    String.toList_ofList, String.toList_ofList]

/-- A text has the form of a filter on a collection, and the draft has its parts: a field of the
collection, an operator behind `!` if it is negated and before `/i` if it is blind to case, and any
value, with a colon after each of the first two. -/
def IsReading (c : Collection) (spec : String) (d : FilterDraft) : Prop :=
  ∃ bang slash : String,
    d.field ∈ c.filterFields ∧ (d.negate ∧ bang = "!" ∨ ¬ d.negate ∧ bang = "") ∧
    (d.caseInsensitive ∧ slash = "/i" ∨ ¬ d.caseInsensitive ∧ slash = "") ∧
    spec = d.field ++ ":" ++ bang ++ d.operator.name ++ slash ++ ":" ++ d.value

theorem isReading_iff {c : Collection} {spec : String} {d : FilterDraft} :
    IsReading c spec d ↔ d.field ∈ c.filterFields ∧ spec = d.typed := by
  unfold IsReading typed
  constructor
  · rintro ⟨bang, slash, hfield, ⟨hnegate, rfl⟩ | ⟨hnegate, rfl⟩, ⟨hcase, rfl⟩ | ⟨hcase, rfl⟩, hspec⟩ <;>
      simpa [hnegate, hcase, hfield] using hspec
  · rintro ⟨hfield, hspec⟩
    refine ⟨_, _, hfield, ?_, ?_, hspec⟩
    · cases d.negate <;> simp
    · cases d.caseInsensitive <;> simp

/-- A typed filter is accepted exactly if it has the form of a filter on the collection, and the
draft is its reading, of which there is only one. Every draft with a field of the collection comes
back from the text that it is typed as, and every text that is accepted is that of its draft. -/
theorem typed_filters_read_exactly (c : Collection) (spec : String) :
    ((∃ d, ofTyped c spec = .ok d) ↔ ∃ d, IsReading c spec d) ∧
    (∀ d, ofTyped c spec = .ok d ↔ IsReading c spec d) ∧
    (∀ d e, IsReading c spec d → IsReading c spec e → d = e) ∧
    (∀ d, d.field ∈ c.filterFields → ofTyped c d.typed = .ok d) ∧
    ∀ d, ofTyped c spec = .ok d → d.typed = spec := by
  have hreading (d : FilterDraft) : ofTyped c spec = .ok d ↔ IsReading c spec d := by
    rw [isReading_iff]
    constructor
    · exact of_ofTyped
    · rintro ⟨hfield, rfl⟩
      exact ofTyped_typed hfield
  refine ⟨exists_congr hreading, hreading, ?_, fun d => ofTyped_typed, ?_⟩
  · intro d e hd he
    have hsame := ((hreading d).2 hd).symm.trans ((hreading e).2 he)
    exact Except.ok.inj hsame
  · intro d hd
    obtain ⟨-, hspec⟩ := of_ofTyped hd
    exact hspec.symm

/-- A value that itself looks like the end of a filter. -/
def awkwardDraft : FilterDraft :=
  { field := "topic", operator := .contains, value := ":!eq/i:", negate := true,
    caseInsensitive := true }

theorem awkward_draft_read_back :
    awkwardDraft.typed = "topic:!contains/i::!eq/i:" ∧
    ofTyped .events "topic:!contains/i::!eq/i:" = .ok awkwardDraft ∧
    ∀ d, ofTyped .events "topic:!contains/i::!eq/i:" = .ok d → d = awkwardDraft := by
  obtain ⟨-, hreading, hunique, hback, -⟩ :=
    typed_filters_read_exactly .events "topic:!contains/i::!eq/i:"
  have htyped : awkwardDraft.typed = "topic:!contains/i::!eq/i:" := by decide
  have hread := hback awkwardDraft (by decide)
  rw [htyped] at hread
  exact ⟨htyped, hread, fun d hd => hunique d awkwardDraft ((hreading d).1 hd)
    ((hreading awkwardDraft).1 hread)⟩

end FilterDraft

end LedgerExplorer
