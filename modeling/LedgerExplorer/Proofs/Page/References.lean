import LedgerExplorer.Page.Fetch
import Mathlib.Data.List.Basic

/-!
# The references of a page

A page refers to an id if one of its records does. What is known of the ids that it refers to settles
what the page shows, and what is known of other ids does not matter.
-/

namespace LedgerExplorer

variable {R E : Type}

theorem mem_distinct {ids : List String} {id : String} : id ∈ distinct ids ↔ id ∈ ids := by
  induction ids with
  | nil => rfl
  | cons first ids ih =>
    rw [distinct, List.mem_cons, List.mem_filter, ih, List.mem_cons]
    by_cases hid : id = first <;> simp [hid]

theorem nodup_distinct (ids : List String) : (distinct ids).Nodup := by
  induction ids with
  | nil => exact .nil
  | cons first ids ih => exact List.nodup_cons.2 ⟨by simp, ih.filter _⟩

/-- Each id comes in the place of its first occurrence. -/
theorem pairwise_idxOf_distinct (ids : List String) :
    (distinct ids).Pairwise (fun a b => ids.idxOf a < ids.idxOf b) := by
  induction ids with
  | nil => exact .nil
  | cons first ids ih =>
    refine List.pairwise_cons.2 ⟨fun b hb => ?_, ?_⟩
    · have hne : b ≠ first := of_decide_eq_true (List.mem_filter.1 hb).2
      rw [List.idxOf_cons_self, List.idxOf_cons_ne _ (Ne.symm hne)]
      exact Nat.succ_pos _
    · refine (ih.filter _).imp_of_mem fun {a b} ha hb hlt => ?_
      have hane : a ≠ first := of_decide_eq_true (List.mem_filter.1 ha).2
      have hbne : b ≠ first := of_decide_eq_true (List.mem_filter.1 hb).2
      rw [List.idxOf_cons_ne _ (Ne.symm hane), List.idxOf_cons_ne _ (Ne.symm hbne)]
      exact Nat.succ_lt_succ hlt

/-- A page whose records refer to the entities that are known. -/
def RawPage.enriched (page : RawPage R) (reference? : R → Option String) (offset limit : UInt64)
    (answer : String → Option (Option E)) : Page R E where
  rows := page.items.map fun record => {
    record
    reference := (reference? record).map fun id =>
      match answer id with
      | some (some e) => .resolved e
      | _ => .unresolved id }
  total := page.total
  offset
  limit

/-- A caller whose page has come and whose references are looked up. -/
structure Visit (R : Type) where
  caller : Nat
  token : Option String
  fetch : PageFetch R
  page : RawPage R

namespace Visit

def references (v : Visit R) : List String := v.fetch.references v.page

def enriched (v : Visit R) (known : String → Option (Option E)) : Page R E :=
  v.page.enriched v.fetch.rows.reference? v.fetch.request.offset v.fetch.request.limit known

/-- What the fetch of the page ends with. -/
def outcome (v : Visit R) (cancelled : Bool) (known : String → Option (Option E)) :
    Except Failure (Page R E) :=
  if cancelled then .error (.fault .cancelled) else .ok (v.enriched known)

variable {v : Visit R} {known known' : String → Option (Option E)}

theorem mem_references {id : String} :
    id ∈ v.references ↔ ∃ record ∈ v.page.items, v.fetch.rows.reference? record = some id := by
  rw [references, PageFetch.references, mem_distinct, List.mem_filterMap]

theorem enriched_congr (hsame : ∀ id ∈ v.references, known' id = known id) :
    v.enriched known' = v.enriched known := by
  unfold enriched RawPage.enriched
  congr 1
  refine List.map_congr_left fun record hrecord => ?_
  cases hid : v.fetch.rows.reference? record with
  | none => rfl
  | some id =>
    have hmem : id ∈ v.references := mem_references.2 ⟨record, hrecord, hid⟩
    simp only [Option.map_some, hsame id hmem]

theorem outcome_congr (hsame : ∀ id ∈ v.references, known' id = known id) (cancelled : Bool) :
    v.outcome cancelled known' = v.outcome cancelled known := by
  rw [outcome, enriched_congr hsame, outcome]

theorem assemble_eq (v : Visit R) {answers : Dict (Option E)}
    (h : ∀ id ∈ v.references, answers.get? id = known id) (cancelled : Bool) :
    v.fetch.assemble v.page cancelled answers = v.outcome cancelled known := by
  rw [← outcome_congr h]
  rfl

end Visit

end LedgerExplorer
