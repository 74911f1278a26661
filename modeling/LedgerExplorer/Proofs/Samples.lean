import LedgerExplorer.Metrics
import Mathlib.Data.List.Basic

/-!
# A sample for every count

A name ends at the first brace, and the value of a label at the first quote, since quotes inside it stand
behind a backslash. So the name of a sample tells what it counts (`Counter.sampleName_injective`), and
the sample grew as often as that happened (`Counter.grown_eq_count`).
-/

namespace LedgerExplorer

namespace Counter

theorem labelChar_append_inj {c c' : Char} {x y : List Char}
    (h : labelChar c ++ x = labelChar c' ++ y) : c = c' ∧ x = y := by
  unfold labelChar at h
  split at h <;> split at h <;> grind

theorem quote_ne_labelChar_append (c : Char) (x y : List Char) : '"' :: y ≠ labelChar c ++ x := by
  unfold labelChar
  split <;> grind

theorem labelText_append_inj {v v' rest rest' : List Char}
    (h : v.flatMap labelChar ++ '"' :: rest = v'.flatMap labelChar ++ '"' :: rest') :
    v = v' ∧ rest = rest' := by
  induction v generalizing v' with
  | nil =>
    cases v' with
    | nil => simpa using h
    | cons c v' =>
      rw [List.flatMap_cons, List.append_assoc] at h
      exact absurd h (quote_ne_labelChar_append c _ _)
  | cons c v ih =>
    cases v' with
    | nil =>
      rw [List.flatMap_cons, List.append_assoc] at h
      exact absurd h.symm (quote_ne_labelChar_append c _ _)
    | cons c' v' =>
      rw [List.flatMap_cons, List.flatMap_cons, List.append_assoc, List.append_assoc] at h
      obtain ⟨rfl, htail⟩ := labelChar_append_inj h
      obtain ⟨rfl, hrest⟩ := ih htail
      exact ⟨rfl, hrest⟩

theorem label_append_inj {name v v' x x' : String} (h : label name v ++ x = label name v' ++ x') :
    v = v' ∧ x = x' := by
  have hquote : "\"".toList = ['"'] := by decide
  simp only [label, String.append_assoc, String.append_right_inj] at h
  replace h := congrArg String.toList h
  simp only [String.toList_append, String.toList_ofList, hquote, List.singleton_append] at h
  obtain ⟨hv, hx⟩ := labelText_append_inj h
  exact ⟨String.toList_injective hv, String.toList_injective hx⟩

theorem sample_singleton_inj {name l v v' : String}
    (h : sample name [(l, v)] = sample name [(l, v')]) : v = v' := by
  simp only [sample, List.map_cons, List.map_nil, String.append_assoc, String.append_right_inj] at h
  have happend : label l v ++ "\x7d" = label l v' ++ "\x7d" := h
  exact (label_append_inj happend).1

theorem sample_pair_inj {name l l' v v' w w' : String}
    (h : sample name [(l, v), (l', w)] = sample name [(l, v'), (l', w')]) : v = v' ∧ w = w' := by
  have hpair (a b : String) : String.intercalate "," [a, b] = a ++ ("," ++ b) := by
    rw [← String.append_assoc]
    rfl
  simp only [sample, List.map_cons, List.map_nil, hpair, String.append_assoc,
    String.append_right_inj] at h
  obtain ⟨hv, hrest⟩ := label_append_inj h
  exact ⟨hv, (label_append_inj ((String.append_right_inj _).1 hrest)).1⟩

/-- The name of a sample without its labels. -/
def stem : Counter → String
  | pageFetch _ _ => "page_fetches_total"
  | pageDuration _ => "page_fetch_duration_seconds_count"
  | stalePage _ => "stale_pages_discarded_total"
  | lookup _ _ => "resolution_lookups_total"
  | resolution _ _ => "resolution_fetches_total"
  | droppedType => "histogram_types_dropped_total"

theorem brace_not_mem_stem (c : Counter) : '\x7b' ∉ c.stem.toList := by
  cases c <;> simp only [stem] <;> decide

theorem toList_sampleName (c : Counter) : ∃ labels, (∀ x ∈ labels.head?, x = '\x7b') ∧
    c.sampleName.toList = "ledgerscope_".toList ++ (c.stem.toList ++ labels) := by
  have hbrace : "\x7b".toList = ['\x7b'] := by decide
  have hsample (name : String) (ls : List (String × String)) : ∃ labels,
      (∀ x ∈ labels.head?, x = '\x7b') ∧
        (sample name ls).toList = "ledgerscope_".toList ++ (name.toList ++ labels) := by
    simp only [sample, String.toList_append, List.append_assoc, hbrace]
    refine ⟨_, ?_, rfl⟩
    rintro x ⟨⟩
    rfl
  cases c with
  | droppedType =>
    refine ⟨[], nofun, ?_⟩
    rw [List.append_nil, ← String.toList_append]
    rfl
  | pageFetch | pageDuration | stalePage | lookup | resolution => exact hsample _ _

theorem takeWhile_stem (c : Counter) {labels : List Char} (h : ∀ x ∈ labels.head?, x = '\x7b') :
    (c.stem.toList ++ labels).takeWhile (· ≠ '\x7b') = c.stem.toList := by
  have hstem : ∀ x ∈ c.stem.toList, decide (x ≠ '\x7b') = true := by
    intro x hx
    apply decide_eq_true
    rintro rfl
    exact c.brace_not_mem_stem hx
  rw [List.takeWhile_append_of_pos hstem]
  cases labels with
  | nil => simp
  | cons x rest => simp [h x rfl]

theorem stem_eq_of_sampleName_eq {c c' : Counter} (h : c.sampleName = c'.sampleName) :
    c.stem = c'.stem := by
  obtain ⟨labels, hlabels, hname⟩ := c.toList_sampleName
  obtain ⟨labels', hlabels', hname'⟩ := c'.toList_sampleName
  have happend := (hname.symm.trans (congrArg String.toList h)).trans hname'
  have hstems := congrArg (List.takeWhile (· ≠ '\x7b')) (List.append_cancel_left happend)
  rw [takeWhile_stem c hlabels, takeWhile_stem c' hlabels'] at hstems
  exact String.toList_injective hstems

theorem sampleName_injective : Function.Injective sampleName := by
  intro c c' h
  have hstem := stem_eq_of_sampleName_eq h
  cases c <;> cases c' <;> simp [stem] at hstem
  case pageFetch.pageFetch p b p' b' =>
    obtain ⟨rfl, hb⟩ := sample_pair_inj h
    cases b <;> cases b' <;> simp at hb ⊢
  case pageDuration.pageDuration p p' =>
    rw [sample_singleton_inj h]
  case stalePage.stalePage r r' =>
    have hr := sample_singleton_inj h
    cases r <;> cases r' <;> simp [StaleReason.name] at hr ⊢
  case lookup.lookup name r name' r' =>
    obtain ⟨rfl, hr⟩ := sample_pair_inj h
    cases r <;> cases r' <;> simp [LookupResult.name] at hr ⊢
  case resolution.resolution name r name' r' =>
    obtain ⟨rfl, hr⟩ := sample_pair_inj h
    cases r <;> cases r' <;> simp [FetchResult.name] at hr ⊢
  case droppedType.droppedType => rfl

/-- By how much the sample of a count grew. -/
def grown (log : List Counter) (c : Counter) : Nat := ((growth log).get? c.sampleName).getD 0

theorem grown_eq_count (log : List Counter) (c : Counter) : grown log c = log.count c := by
  have hfold (acc : Dict Nat) : ((log.foldl (fun acc c => acc.insert c.sampleName
      ((acc.get? c.sampleName).getD 0 + 1)) acc).get? c.sampleName).getD 0 =
        (acc.get? c.sampleName).getD 0 + log.count c := by
    induction log generalizing acc with
    | nil => rfl
    | cons first log ih =>
      rw [List.foldl_cons, ih, Dict.get?_insert]
      by_cases hfirst : c = first
      · subst hfirst
        simp [Nat.add_assoc, Nat.add_comm]
      · have hname : c.sampleName ≠ first.sampleName := by
          intro heq
          exact hfirst (sampleName_injective heq)
        simp [hname, Ne.symm hfirst]
  exact (hfold .empty).trans (Nat.zero_add _)

end Counter

end LedgerExplorer
