import LedgerExplorer.Dict
import Mathlib.Data.List.Nodup

/-!
# Keys and entries

A dictionary is settled by its keys and by what stands under each of them. One that is made of a list
of entries has the keys of the list, and is the dictionary that the entries were taken from.
-/

namespace LedgerExplorer

namespace Dict

universe u v

variable {α : Type u} {β : Type v}

theorem keys_map (d : Dict α) (f : α → β) : (d.map f).keys = d.keys := by
  unfold keys map
  rw [List.map_map]
  rfl

theorem get?_map (d : Dict α) (f : α → β) (k : String) : (d.map f).get? k = (d.get? k).map f := by
  apply Option.ext
  intro y
  rw [← mem_entries, Option.map_eq_some_iff]
  constructor
  · intro hmem
    obtain ⟨e, he, heq⟩ := List.mem_map.1 hmem
    cases heq
    exact ⟨e.2, mem_entries.1 he, rfl⟩
  · rintro ⟨x, hx, rfl⟩
    exact List.mem_map.2 ⟨(k, x), mem_entries.2 hx, rfl⟩

/-- Two dictionaries with the same keys have them in the same order. -/
theorem keys_eq_of_mem_iff {d : Dict α} {e : Dict β} (h : ∀ k, k ∈ d.keys ↔ k ∈ e.keys) :
    d.keys = e.keys := by
  have hsame : d.map (fun _ => ()) = e.map fun _ => () := by
    apply ext_get?
    intro k
    have hk := h k
    rw [mem_keys, mem_keys] at hk
    rw [get?_map, get?_map]
    cases hd : d.get? k <;> cases he : e.get? k <;> simp_all
  rw [← keys_map d fun _ => (), hsame, keys_map]

theorem mem_keys_insert (d : Dict α) (k k' : String) (x : α) :
    k' ∈ (d.insert k x).keys ↔ k' = k ∨ k' ∈ d.keys := by
  rw [mem_keys, mem_keys, get?_insert]
  by_cases hk : k' = k <;> simp [hk]

theorem mem_keys_foldl_insert (l : List (String × α)) (d : Dict α) (k : String) :
    k ∈ (l.foldl (fun d e => d.insert e.1 e.2) d).keys ↔ k ∈ l.map Prod.fst ∨ k ∈ d.keys := by
  induction l generalizing d with
  | nil => simp
  | cons e l ih =>
    rw [List.foldl_cons, ih, mem_keys_insert, List.map_cons, List.mem_cons, ← or_assoc,
      or_comm (a := k ∈ l.map Prod.fst)]

theorem mem_keys_ofList {l : List (String × α)} {k : String} :
    k ∈ (ofList l).keys ↔ k ∈ l.map Prod.fst := by
  unfold ofList
  rw [mem_keys_foldl_insert]
  simp [keys, empty]

theorem get?_foldl_insert {l : List (String × α)} (hl : (l.map Prod.fst).Nodup) (d : Dict α)
    (k : String) :
    (l.foldl (fun d e => d.insert e.1 e.2) d).get? k = (l.lookup k).or (d.get? k) := by
  induction l generalizing d with
  | nil => rfl
  | cons e l ih =>
    obtain ⟨a, x⟩ := e
    obtain ⟨ha, hrest⟩ := List.nodup_cons.1 hl
    rw [List.foldl_cons, ih hrest, get?_insert, lookup_cons_eq]
    by_cases hk : k = a
    · subst hk
      have hnone : l.lookup k = none := by
        rw [Option.eq_none_iff_forall_ne_some]
        intro y hy
        exact ha (List.mem_map.2 ⟨(k, y), mem_of_lookup hy, rfl⟩)
      simp [hnone]
    · simp [hk]

theorem lookup_of_mem_of_nodup {l : List (String × α)} (h : (l.map Prod.fst).Nodup) {k : String}
    {x : α} (hmem : (k, x) ∈ l) : l.lookup k = some x := by
  induction l with
  | nil => cases hmem
  | cons e l ih =>
    obtain ⟨a, y⟩ := e
    obtain ⟨ha, hrest⟩ := List.nodup_cons.1 h
    rw [lookup_cons_eq]
    rcases List.mem_cons.1 hmem with heq | hmem
    · cases heq
      exact if_pos rfl
    · have hk : k ∈ l.map Prod.fst := List.mem_map.2 ⟨(k, x), hmem, rfl⟩
      have hne : k ≠ a := fun heq => ha (heq ▸ hk)
      rw [if_neg hne]
      exact ih hrest hmem

theorem lookup_filter {p : String → Bool} {k : String} (hk : p k) (l : List (String × α)) :
    (l.filter fun e => p e.1).lookup k = l.lookup k := by
  induction l with
  | nil => rfl
  | cons e l ih =>
    obtain ⟨a, x⟩ := e
    rw [List.filter_cons, lookup_cons_eq]
    by_cases hka : k = a
    · subst hka
      rw [if_pos hk, lookup_cons_eq]
      simp
    · rw [if_neg hka]
      split
      · rw [lookup_cons_eq, if_neg hka, ih]
      · exact ih

/-- The entries of a list whose keys differ are those of the dictionary that is made of it. -/
theorem perm_entries_ofList {l : List (String × α)} (h : (l.map Prod.fst).Nodup) :
    (ofList l).entries.Perm l := by
  have hentries : (ofList l).entries.Nodup := List.Nodup.of_map _ (ofList l).nodup_keys
  rw [List.perm_ext_iff_of_nodup hentries (List.Nodup.of_map _ h)]
  rintro ⟨k, x⟩
  have hget : (ofList l).get? k = l.lookup k := (get?_foldl_insert h empty k).trans Option.or_none
  rw [mem_entries, hget]
  exact ⟨mem_of_lookup, lookup_of_mem_of_nodup h⟩

theorem ofList_eq_of_perm {l : List (String × α)} {d : Dict α} (h : l.Perm d.entries) :
    ofList l = d := by
  have hnodup : (l.map Prod.fst).Nodup := (h.map _).nodup_iff.2 d.nodup_keys
  have hperm : (ofList l).entries.Perm d.entries := (perm_entries_ofList hnodup).trans h
  refine ext (hperm.eq_of_pairwise ?_ (ofList l).sorted d.sorted)
  intro a b _ _ hab hba
  exact absurd (String.lt_trans hab hba) (String.lt_irrefl a.1)

theorem filter_insert (d : Dict α) (p : String → Bool) (k : String) (x : α) :
    (d.insert k x).filter (fun k _ => p k) =
      if p k then (d.filter fun k _ => p k).insert k x else d.filter fun k _ => p k := by
  apply ext_get?
  intro a
  rw [get?_filter, get?_insert]
  split_ifs with hak hk hk
  · rw [get?_insert, if_pos hak]
    simp [hak, hk]
  · subst hak
    rw [get?_filter]
    simp [hk]
  · rw [get?_insert, if_neg hak, get?_filter]
  · rw [get?_filter]

theorem filter_ofList (p : String → Bool) (l : List (String × α)) :
    (ofList l).filter (fun k _ => p k) = ofList (l.filter fun e => p e.1) := by
  have hfold (d : Dict α) : (l.foldl (fun d e => d.insert e.1 e.2) d).filter (fun k _ => p k) =
      (l.filter fun e => p e.1).foldl (fun d e => d.insert e.1 e.2) (d.filter fun k _ => p k) := by
    induction l generalizing d with
    | nil => rfl
    | cons e l ih =>
      rw [List.foldl_cons, ih, filter_insert, List.filter_cons]
      split <;> rfl
  exact hfold empty

/-- What a function has of some keys. -/
def ofKeys (ks : List String) (f : String → Option α) : Dict α :=
  ofList (ks.filterMap fun k => (f k).map (k, ·))

theorem get?_ofKeys (ks : List String) (f : String → Option α) (k : String) :
    (ofKeys ks f).get? k = if k ∈ ks then f k else none := by
  have hfold (d : Dict α) : ((ks.filterMap fun k => (f k).map (k, ·)).foldl
      (fun d e => d.insert e.1 e.2) d).get? k = if k ∈ ks then (f k).or (d.get? k) else d.get? k := by
    induction ks generalizing d with
    | nil => rfl
    | cons first ks ih =>
      rw [List.filterMap_cons]
      cases hf : f first with
      | none =>
        refine (ih d).trans ?_
        by_cases hk : k = first <;> simp [hk, hf]
      | some x =>
        refine (ih (d.insert first x)).trans ?_
        rw [get?_insert]
        by_cases hk : k = first <;> simp [hk, hf]
  refine (hfold empty).trans ?_
  rw [get?_empty, Option.or_none]

/-- A dictionary is made of its entries. -/
theorem ofList_entries (d : Dict α) : ofList d.entries = d := by
  apply ext_get?
  intro k
  exact (get?_foldl_insert d.nodup_keys empty k).trans (Option.or_none)

end Dict

end LedgerExplorer
