/-!
# Dictionaries

Values under text keys, kept in increasing order of the keys. The order is that of code points,
which for well-formed texts is also the order of their UTF-8 bytes. Two dictionaries with the same
lookups are equal (`Dict.ext_get?`).
-/

namespace LedgerExplorer

universe u v

/-- A list of entries whose keys increase strictly. -/
structure Dict (α : Type u) where
  entries : List (String × α)
  sorted : entries.Pairwise (fun a b => a.1 < b.1)

namespace Dict

variable {α : Type u} {β : Type v}

/-- Puts a value under a key, before the first greater key and in place of an equal one. -/
def insertEntry (k : String) (x : α) : List (String × α) → List (String × α)
  | [] => [(k, x)]
  | (k', y) :: rest =>
    if k = k' then (k, x) :: rest
    else if k < k' then (k, x) :: (k', y) :: rest
    else (k', y) :: insertEntry k x rest

theorem mem_insertEntry {k : String} {x : α} {l : List (String × α)} {e : String × α}
    (h : e ∈ insertEntry k x l) : e = (k, x) ∨ e ∈ l := by
  induction l with
  | nil => simpa [insertEntry] using h
  | cons e' rest ih =>
    obtain ⟨k', y⟩ := e'
    simp only [insertEntry] at h
    split at h
    · rcases List.mem_cons.1 h with h | h
      · exact .inl h
      · exact .inr (List.mem_cons_of_mem _ h)
    · split at h
      · rcases List.mem_cons.1 h with h | h
        · exact .inl h
        · exact .inr h
      · rcases List.mem_cons.1 h with h | h
        · exact .inr (h ▸ List.mem_cons_self)
        · exact (ih h).imp_right (List.mem_cons_of_mem _)

theorem lt_of_ne_of_not_lt {a b : String} (hne : a ≠ b) (hlt : ¬ a < b) : b < a := by
  rcases Decidable.em (b < a) with h | h
  · exact h
  · exact absurd (String.le_antisymm (String.not_lt.1 h) (String.not_lt.1 hlt)) hne

theorem sorted_insertEntry {k : String} {x : α} {l : List (String × α)}
    (h : l.Pairwise (fun a b => a.1 < b.1)) :
    (insertEntry k x l).Pairwise (fun a b => a.1 < b.1) := by
  induction l with
  | nil => simp [insertEntry]
  | cons e' rest ih =>
    obtain ⟨k', y⟩ := e'
    have ⟨hhead, htail⟩ := List.pairwise_cons.1 h
    simp only [insertEntry]
    split
    · next heq => exact List.pairwise_cons.2 ⟨fun b hb => heq ▸ hhead b hb, htail⟩
    · next hne =>
      split
      · next hlt =>
        refine List.pairwise_cons.2 ⟨fun b hb => ?_, h⟩
        rcases List.mem_cons.1 hb with hb | hb
        · exact hb ▸ hlt
        · exact String.lt_trans hlt (hhead b hb)
      · next hlt =>
        refine List.pairwise_cons.2 ⟨fun b hb => ?_, ih htail⟩
        rcases mem_insertEntry hb with hb | hb
        · exact hb ▸ lt_of_ne_of_not_lt hne hlt
        · exact hhead b hb

/-- The dictionary without entries. -/
def empty : Dict α := ⟨[], .nil⟩

instance : Inhabited (Dict α) := ⟨empty⟩

/-- Puts a value under a key, in place of the one that is there. -/
def insert (d : Dict α) (k : String) (x : α) : Dict α :=
  ⟨insertEntry k x d.entries, sorted_insertEntry d.sorted⟩

/-- The value under a key. -/
def get? (d : Dict α) (k : String) : Option α :=
  d.entries.lookup k

/-- Whether there is a value under the key. -/
def contains (d : Dict α) (k : String) : Bool :=
  (d.get? k).isSome

/-- Keeps the entries that satisfy `p`. -/
def filter (d : Dict α) (p : String → α → Bool) : Dict α :=
  ⟨d.entries.filter fun e => p e.1 e.2, d.sorted.filter _⟩

/-- Takes away the entry under a key. -/
def erase (d : Dict α) (k : String) : Dict α :=
  d.filter fun k' _ => k' ≠ k

/-- Applies a function to every value. -/
def map (d : Dict α) (f : α → β) : Dict β :=
  ⟨d.entries.map fun e => (e.1, f e.2), List.pairwise_map.2 d.sorted⟩

/-- Changes the value under a key, if there is one. -/
def modify (d : Dict α) (k : String) (f : α → α) : Dict α :=
  match d.get? k with
  | some x => d.insert k (f x)
  | none => d

/-- The keys, in increasing order. -/
def keys (d : Dict α) : List String :=
  d.entries.map Prod.fst

/-- The values, in the order of their keys. -/
def values (d : Dict α) : List α :=
  d.entries.map Prod.snd

/-- The number of entries. -/
def size (d : Dict α) : Nat :=
  d.entries.length

/-- Whether there are no entries. -/
def isEmpty (d : Dict α) : Bool :=
  d.entries.isEmpty

/-- The entries of a list, a later one in place of an earlier one under the same key. -/
def ofList (l : List (String × α)) : Dict α :=
  l.foldl (fun d e => d.insert e.1 e.2) empty

theorem ext {d e : Dict α} (h : d.entries = e.entries) : d = e := by
  cases d; cases e; cases h; rfl

instance [DecidableEq α] : DecidableEq (Dict α) := fun d e =>
  if h : d.entries = e.entries then isTrue (ext h) else isFalse fun he => h (he ▸ rfl)

theorem lookup_cons_eq (k k' : String) (x : α) (l : List (String × α)) :
    ((k, x) :: l).lookup k' = if k' = k then some x else l.lookup k' := by
  rw [List.lookup_cons]
  by_cases h : k' = k
  · simp [h]
  · simp [h, beq_eq_false_iff_ne.2 h]

theorem lookup_insertEntry {l : List (String × α)} (k k' : String) (x : α) :
    (insertEntry k x l).lookup k' = if k' = k then some x else l.lookup k' := by
  induction l with
  | nil => simp [insertEntry, lookup_cons_eq]
  | cons e rest ih =>
    obtain ⟨a, y⟩ := e
    simp only [insertEntry]
    split
    · next hka => subst hka; by_cases h : k' = k <;> simp [lookup_cons_eq, h]
    · next hka =>
      split
      · by_cases h : k' = k <;> simp [lookup_cons_eq, h]
      · by_cases h : k' = a
        · have hne : k' ≠ k := fun hk => hka (hk ▸ h)
          simp [h, Ne.symm hka]
        · simp [lookup_cons_eq, h, ih]

@[simp] theorem get?_empty (k : String) : (empty : Dict α).get? k = none := rfl

/-- A lookup after an insertion finds the new value under its key and the old ones elsewhere. -/
theorem get?_insert (d : Dict α) (k k' : String) (x : α) :
    (d.insert k x).get? k' = if k' = k then some x else d.get? k' :=
  lookup_insertEntry k k' x

theorem lookup_eq_none_of_lt {l : List (String × α)} {k : String}
    (h : ∀ e ∈ l, k < e.1) : l.lookup k = none := by
  induction l with
  | nil => rfl
  | cons e rest ih =>
    obtain ⟨a, y⟩ := e
    have hka : k ≠ a := fun he => String.lt_irrefl a (he ▸ h _ List.mem_cons_self)
    rw [lookup_cons_eq, if_neg hka]
    exact ih fun e he => h e (List.mem_cons_of_mem _ he)

theorem eq_of_lookup {l m : List (String × α)} (hl : l.Pairwise (fun a b => a.1 < b.1))
    (hm : m.Pairwise (fun a b => a.1 < b.1)) (h : ∀ k, l.lookup k = m.lookup k) : l = m := by
  induction l generalizing m with
  | nil =>
    cases m with
    | nil => rfl
    | cons e rest =>
      have := h e.1
      rw [show e = (e.1, e.2) from rfl, lookup_cons_eq, if_pos rfl] at this
      cases this
  | cons e rest ih =>
    obtain ⟨a, x⟩ := e
    obtain ⟨hlh, hlt⟩ := List.pairwise_cons.1 hl
    cases m with
    | nil => simpa [lookup_cons_eq] using h a
    | cons f tail =>
      obtain ⟨b, y⟩ := f
      obtain ⟨hmh, hmt⟩ := List.pairwise_cons.1 hm
      have hab : a = b := by
        rcases Decidable.em (a = b) with heq | hne
        · exact heq
        · exfalso
          rcases Decidable.em (a < b) with hlt' | hlt'
          · have hnone : ((b, y) :: tail).lookup a = none :=
              lookup_eq_none_of_lt fun e he => by
                rcases List.mem_cons.1 he with he | he
                · exact he ▸ hlt'
                · exact String.lt_trans hlt' (hmh e he)
            have := h a
            rw [hnone, lookup_cons_eq, if_pos rfl] at this
            cases this
          · have hba := lt_of_ne_of_not_lt hne hlt'
            have hnone : ((a, x) :: rest).lookup b = none :=
              lookup_eq_none_of_lt fun e he => by
                rcases List.mem_cons.1 he with he | he
                · exact he ▸ hba
                · exact String.lt_trans hba (hlh e he)
            have := h b
            rw [hnone, lookup_cons_eq, if_pos rfl] at this
            cases this
      subst hab
      have hxy : x = y := by simpa [lookup_cons_eq] using h a
      subst hxy
      refine congrArg _ (ih hlt hmt fun k => ?_)
      rcases Decidable.em (k = a) with hk | hk
      · subst hk
        rw [lookup_eq_none_of_lt hlh, lookup_eq_none_of_lt hmh]
      · simpa [lookup_cons_eq, hk] using h k

theorem mem_of_lookup {l : List (String × α)} {k : String} {x : α} (h : l.lookup k = some x) :
    (k, x) ∈ l := by
  induction l with
  | nil => cases h
  | cons e rest ih =>
    obtain ⟨a, y⟩ := e
    rw [lookup_cons_eq] at h
    split at h
    · next hka => cases h; exact hka ▸ List.mem_cons_self
    · exact List.mem_cons_of_mem _ (ih h)

theorem lookup_of_mem {l : List (String × α)} (hl : l.Pairwise (fun a b => a.1 < b.1))
    {k : String} {x : α} (h : (k, x) ∈ l) : l.lookup k = some x := by
  induction l with
  | nil => cases h
  | cons e rest ih =>
    obtain ⟨a, y⟩ := e
    obtain ⟨hhead, htail⟩ := List.pairwise_cons.1 hl
    rw [lookup_cons_eq]
    rcases List.mem_cons.1 h with heq | hmem
    · cases heq; simp
    · have hne : k ≠ a := fun he => String.lt_irrefl a (he ▸ hhead _ hmem)
      rw [if_neg hne]
      exact ih htail hmem

/-- The entries of a dictionary are what its lookups find. -/
theorem mem_entries {d : Dict α} {k : String} {x : α} :
    (k, x) ∈ d.entries ↔ d.get? k = some x :=
  ⟨lookup_of_mem d.sorted, mem_of_lookup⟩

theorem mem_keys {d : Dict α} {k : String} : k ∈ d.keys ↔ (d.get? k).isSome := by
  simp only [keys, List.mem_map, Prod.exists, exists_and_right, exists_eq_right, mem_entries,
    Option.isSome_iff_exists]

/-- No two entries have the same key. -/
theorem nodup_keys (d : Dict α) : d.keys.Nodup := by
  refine List.pairwise_map.2 (d.sorted.imp ?_)
  intro a b hlt heq
  exact String.lt_irrefl b.1 (heq ▸ hlt)

theorem get?_filter (d : Dict α) (p : String → α → Bool) (k : String) :
    (d.filter p).get? k = (d.get? k).filter (p k) := by
  apply Option.ext
  intro x
  rw [Option.filter_eq_some_iff, ← mem_entries, ← mem_entries]
  exact List.mem_filter

@[simp] theorem get?_erase (d : Dict α) (k k' : String) :
    (d.erase k).get? k' = if k' = k then none else d.get? k' := by
  rw [erase, get?_filter]
  by_cases h : k' = k <;> cases d.get? k' <;> simp [h]

/-- Dictionaries with the same lookups are equal. -/
theorem ext_get? {d e : Dict α} (h : ∀ k, d.get? k = e.get? k) : d = e :=
  ext (eq_of_lookup d.sorted e.sorted h)

end Dict

end LedgerExplorer
