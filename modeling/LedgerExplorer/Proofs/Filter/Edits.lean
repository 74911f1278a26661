import LedgerExplorer.Filter.Draft
import Mathlib.Data.List.Basic

/-!
# Edited filter sets

A filter set is edited by adding a draft, by removing the filter at an index and by clearing it. What
becomes of one filter is told by its place alone (`stays`): it moves up when a filter in front of it is
removed, and ends when it is removed itself or the set is cleared. The set holds the tokens of exactly
the drafts whose filters stay until the end (`survivors`), in the order in which they were added.
-/

namespace LedgerExplorer

namespace FilterSet

inductive Edit
  | add (draft : FilterDraft)
  | remove (index : Nat)
  | clear
  deriving DecidableEq, Repr

variable {α : Type} {p i : Nat} {es : List Edit} {xs : List α}

def edit (s : FilterSet) : Edit → FilterSet
  | .add d => s.add d
  | .remove i => (s.remove i).2
  | .clear => s.clear

/-- The filters after edits of an empty set. -/
def ofEdits (es : List Edit) : FilterSet := es.foldl edit {}

/-! ## The fate of a filter -/

/-- Whether the filter at a place is still there after edits. -/
def stays (p : Nat) : List Edit → Bool
  | [] => true
  | .add _ :: es => stays p es
  | .remove i :: es => if i = p then false else stays (if i < p then p - 1 else p) es
  | .clear :: _ => false

/-- The drafts that edits of a set with `n` filters add and that are still there after the last edit. -/
def survivors (n : Nat) : List Edit → List FilterDraft
  | [] => []
  | .add d :: es => if stays n es then d :: survivors (n + 1) es else survivors (n + 1) es
  | .remove i :: es => survivors (if i < n then n - 1 else n) es
  | .clear :: es => survivors 0 es

/-- What is still there after edits of a list whose first place is `p`. -/
def kept (p : Nat) (es : List Edit) (xs : List α) : List α :=
  ((xs.zipIdx p).filter fun x => stays x.2 es).map Prod.fst

theorem kept_cons (p : Nat) (es : List Edit) (x : α) (xs : List α) :
    kept p es (x :: xs) = if stays p es then x :: kept (p + 1) es xs else kept (p + 1) es xs := by
  unfold kept
  rw [List.zipIdx_cons, List.filter_cons]
  split <;> rfl

theorem kept_nil (p : Nat) (xs : List α) : kept p [] xs = xs := by
  simp [kept, stays]

theorem kept_clear (p : Nat) (es : List Edit) (xs : List α) : kept p (.clear :: es) xs = [] := by
  simp [kept, stays]

theorem kept_append (p : Nat) (es : List Edit) (xs ys : List α) :
    kept p es (xs ++ ys) = kept p es xs ++ kept (p + xs.length) es ys := by
  simp [kept, List.zipIdx_append]

/-- Every filter behind the one that is removed moves up. -/
theorem kept_remove_of_lt (h : i < p) (xs : List α) :
    kept p (.remove i :: es) xs = kept (p - 1) es xs := by
  induction xs generalizing p with
  | nil => rfl
  | cons x xs ih =>
    have hstays : stays p (.remove i :: es) = stays (p - 1) es := by
      rw [stays, if_neg (Nat.ne_of_lt h), if_pos h]
    have hnext : p + 1 - 1 = p - 1 + 1 := by omega
    rw [kept_cons, kept_cons, hstays, ih (Nat.lt_succ_of_lt h), hnext]

theorem kept_remove (h : p ≤ i) (xs : List α) :
    kept p (.remove i :: es) xs = kept p es (xs.eraseIdx (i - p)) := by
  induction xs generalizing p with
  | nil => rfl
  | cons x xs ih =>
    rw [kept_cons]
    rcases Nat.eq_or_lt_of_le h with rfl | hlt
    · rw [stays, if_pos rfl, kept_remove_of_lt (Nat.lt_succ_self p)]
      simp
    · have hstays : stays p (.remove i :: es) = stays p es := by
        rw [stays, if_neg (Nat.ne_of_gt hlt), if_neg (Nat.lt_asymm hlt)]
      have hindex : i - p = i - (p + 1) + 1 := by omega
      rw [hstays, ih hlt, hindex, List.eraseIdx_cons_succ, kept_cons]

/-! ## The set after all edits -/

/-- Edits leave the filters that stay, and behind them those that they add and that stay. -/
theorem tokens_foldl_edit (es : List Edit) (s : FilterSet) :
    (es.foldl edit s).tokens = kept 0 es s.tokens ++ (survivors s.size es).map FilterDraft.compile := by
  induction es generalizing s with
  | nil => simp [kept_nil, survivors]
  | cons e es ih =>
    rw [List.foldl_cons, ih]
    cases e with
    | add d =>
      have hkept : kept 0 (.add d :: es) s.tokens = kept 0 es s.tokens := rfl
      have hsize : (s.edit (.add d)).size = s.size + 1 := List.length_append
      have hlast : kept 0 es (s.edit (.add d)).tokens =
          kept 0 es s.tokens ++ kept s.size es [d.compile] := by
        have happend := kept_append 0 es s.tokens [d.compile]
        rwa [Nat.zero_add] at happend
      rw [hkept, hsize, hlast, survivors, List.append_assoc, kept_cons]
      split <;> simp [kept]
    | remove i =>
      have hsize : (s.edit (.remove i)).size = if i < s.size then s.size - 1 else s.size :=
        List.length_eraseIdx ..
      rw [hsize, kept_remove (Nat.zero_le i), survivors]
      rfl
    | clear =>
      rw [kept_clear, survivors]
      rfl

theorem tokens_ofEdits (es : List Edit) :
    (ofEdits es).tokens = (survivors 0 es).map FilterDraft.compile :=
  tokens_foldl_edit es {}

/-- The tokens of the filters that stay, each behind a separator. -/
theorem toList_fragment_ofEdits (es : List Edit) :
    (ofEdits es).fragment.toList =
      (survivors 0 es).flatMap fun d => '&' :: d.compile.text.toList := by
  rw [fragment, FilterToken.join, String.toList_ofList, tokens_ofEdits, List.flatMap_map]
  rfl

end FilterSet

end LedgerExplorer
