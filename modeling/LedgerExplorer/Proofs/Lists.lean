import Mathlib.Data.List.Forall2
import Mathlib.Data.List.Nodup

/-!
# Lists and folds

What the proofs about runs need to know of lists. A run is a fold over a list of events.
-/

namespace LedgerExplorer

universe u v

variable {α β σ ε : Type}

/-- If every step adds to a record what it sees of its event, a fold records what is seen of them all. -/
theorem foldl_record (record : σ → List β) {step : σ → ε → σ} {seen : ε → Option β}
    (hstep : ∀ s e, record (step s e) = record s ++ (seen e).toList) (s : σ) (es : List ε) :
    record (es.foldl step s) = record s ++ es.filterMap seen := by
  induction es generalizing s with
  | nil => simp
  | cons e es ih =>
    rw [List.foldl_cons, ih, hstep, List.append_assoc, List.filterMap_cons]
    cases seen e <;> rfl

theorem count_singleton_eq [DecidableEq α] (x y : α) : [x].count y = if y = x then 1 else 0 := by
  simp only [List.count_singleton, beq_iff_eq, @eq_comm _ x y]

theorem getElem?_concat_eq_some_iff {l : List α} {x y : α} {n : Nat} :
    (l ++ [x])[n]? = some y ↔ l[n]? = some y ∨ n = l.length ∧ x = y := by
  rcases Nat.lt_trichotomy n l.length with hlt | rfl | hgt
  · simp [List.getElem?_append_left hlt, Nat.ne_of_lt hlt]
  · simp
  · have hlen : (l ++ [x]).length ≤ n := by
      rw [List.length_append]
      exact hgt
    simp [List.getElem?_eq_none (Nat.le_of_lt hgt), List.getElem?_eq_none hlen, Nat.ne_of_gt hgt]

/-- Taking an element out of a list takes its image out of the images, if these differ. -/
theorem map_erase_of_nodup [DecidableEq α] [DecidableEq β] {g : α → β} {l : List α} {a : α}
    (hl : (l.map g).Nodup) (ha : a ∈ l) : (l.map g).erase (g a) = (l.erase a).map g := by
  induction l with
  | nil => cases ha
  | cons x xs ih =>
    obtain ⟨hx, hxs⟩ := List.nodup_cons.1 hl
    by_cases hxa : x = a
    · simp [hxa]
    · have hmem : a ∈ xs := (List.mem_cons.1 ha).resolve_left (Ne.symm hxa)
      have hg : g x ≠ g a := fun heq => hx (heq ▸ List.mem_map_of_mem hmem)
      simp [List.erase_cons_tail, hxa, hg, ih hxs hmem]

theorem intercalate_cons (sep : α) (l : List α) (ls : List (List α)) :
    [sep].intercalate (l :: ls) = l ++ ls.flatMap (sep :: ·) := by
  induction ls generalizing l with
  | nil => simp [List.intercalate]
  | cons l' ls ih => rw [List.intercalate_cons_cons, ih, List.flatMap_cons, List.append_assoc,
      List.singleton_append, List.cons_append]

theorem splitOn_append_flatMap [DecidableEq α] {sep : α} {ls : List (List α)}
    (h : ∀ l ∈ ls, sep ∉ l) (xs : List α) :
    (xs ++ ls.flatMap (sep :: ·)).splitOn sep = xs.splitOn sep ++ ls := by
  induction ls generalizing xs with
  | nil => simp
  | cons l ls ih =>
    obtain ⟨hl, hls⟩ := List.forall_mem_cons.1 h
    rw [List.flatMap_cons, List.cons_append, List.splitOn_append_cons_self, ih hls,
      List.splitOn_eq_singleton hl, List.singleton_append]

theorem map_eq_map_of_forall₂ {β : Type u} {γ : Type v} {R : β → γ → Prop} {f : β → α} {g : γ → α}
    (hR : ∀ x y, R x y → f x = g y) {xs : List β} {ys : List γ} (h : List.Forall₂ R xs ys) :
    xs.map f = ys.map g := by
  induction h with
  | nil => rfl
  | cons h _ ih => rw [List.map_cons, List.map_cons, ih, hR _ _ h]

theorem exists_of_mem_of_forall₂ {β : Type u} {γ : Type v} {R : β → γ → Prop} {xs : List β}
    {ys : List γ} (h : List.Forall₂ R xs ys) {x : β} (hx : x ∈ xs) : ∃ y ∈ ys, R x y := by
  induction h with
  | nil => cases hx
  | @cons a b xs ys hfirst _ ih =>
    rcases List.mem_cons.1 hx with rfl | hx
    · exact ⟨b, List.mem_cons_self, hfirst⟩
    · obtain ⟨y, hy, hrel⟩ := ih hx
      exact ⟨y, List.mem_cons_of_mem _ hy, hrel⟩

theorem forall₂_replace {R : α → β → Prop} {xs : List α} {l₁ l₂ : List β} {y y' : β}
    (h : List.Forall₂ R xs (l₁ ++ y :: l₂)) (hy : ∀ x, R x y → R x y') :
    List.Forall₂ R xs (l₁ ++ y' :: l₂) := by
  induction l₁ generalizing xs with
  | nil =>
    cases h with
    | cons hfirst hrest => exact .cons (hy _ hfirst) hrest
  | cons z l₁ ih =>
    cases h with
    | cons hfirst hrest => exact .cons hfirst (ih hrest)

theorem eq_of_map_eq {f : α → β} {l l' : List α} (hf : ∀ b ∈ l, ∀ a, f a = f b → a = b)
    (h : l'.map f = l.map f) : l' = l := by
  induction l generalizing l' with
  | nil => exact List.map_eq_nil_iff.1 h
  | cons b l ih =>
    obtain ⟨a, rest, rfl, hfirst, hrest⟩ := List.map_eq_cons_iff.1 h
    obtain ⟨hb, hl⟩ := List.forall_mem_cons.1 hf
    rw [hb a hfirst, ih hl hrest]

/-! ## Lists put together from parts -/

theorem length_flatMap_le {f g : α → List β} {xs : List α}
    (h : ∀ x ∈ xs, (f x).length ≤ (g x).length) :
    (xs.flatMap f).length ≤ (xs.flatMap g).length := by
  induction xs with
  | nil => exact Nat.le_refl _
  | cons x xs ih =>
    obtain ⟨hx, hxs⟩ := List.forall_mem_cons.1 h
    rw [List.flatMap_cons, List.flatMap_cons, List.length_append, List.length_append]
    exact Nat.add_le_add hx (ih hxs)

/-- No part of the one list can make up for a shorter part before it. -/
theorem eq_of_flatMap_eq {f g : α → List β} {xs : List α}
    (hle : ∀ x ∈ xs, (f x).length ≤ (g x).length) (h : xs.flatMap f = xs.flatMap g) :
    ∀ x ∈ xs, f x = g x := by
  induction xs with
  | nil => exact List.forall_mem_nil _
  | cons x xs ih =>
    obtain ⟨hx, hxs⟩ := List.forall_mem_cons.1 hle
    have hrest := length_flatMap_le hxs
    have htotal := congrArg List.length h
    rw [List.flatMap_cons, List.flatMap_cons, List.length_append, List.length_append] at htotal
    have hfirst : (f x).length = (g x).length := by omega
    obtain ⟨hparts, hflat⟩ := List.append_inj h hfirst
    exact List.forall_mem_cons.2 ⟨hparts, ih hxs hflat⟩

/-- Two texts that are cut at the same place if each is cut at its first separator. -/
theorem append_cons_inj {sep : α} {xs ys rest rest' : List α} (hx : sep ∉ xs) (hy : sep ∉ ys)
    (h : xs ++ sep :: rest = ys ++ sep :: rest') : xs = ys ∧ rest = rest' := by
  induction xs generalizing ys with
  | nil =>
    cases ys with
    | nil => exact ⟨rfl, List.tail_eq_of_cons_eq h⟩
    | cons y ys => exact absurd (List.head_eq_of_cons_eq h) (List.ne_of_not_mem_cons hy)
  | cons x xs ih =>
    cases ys with
    | nil => exact absurd (List.head_eq_of_cons_eq h).symm (List.ne_of_not_mem_cons hx)
    | cons y ys =>
      obtain ⟨rfl, hrest⟩ := List.cons.inj h
      obtain ⟨rfl, hsame⟩ :=
        ih (List.not_mem_of_not_mem_cons hx) (List.not_mem_of_not_mem_cons hy) hrest
      exact ⟨rfl, hsame⟩

end LedgerExplorer
