import LedgerExplorer.Json.Decode
import LedgerExplorer.Proofs.Dictionaries
import LedgerExplorer.Proofs.Lists
import LedgerExplorer.Proofs.Text.Natural

/-!
# Records out of members

A record is decoded from members that have the name of each field at most once, in any order and with
any others among them, if every part is accepted by its field. What is built from them depends on
what is found under the names of the fields only.
-/

namespace LedgerExplorer

variable {α : Type}

namespace Decoder

theorem unsigned_natural (u : Unsigned) (m : Medium) {n : Nat} (h : n ≤ u.max) :
    unsigned u m (.number (some (.integer n))) = .ok n :=
  if_pos ⟨Int.natCast_nonneg n, Int.ofNat_le.2 h⟩

theorem size_word (m : Medium) (n : UInt64) :
    size m (.number (some (.integer n.toNat))) = .ok n := by
  unfold size
  rw [unsigned_natural .size m (Text.toNat_le_maxWord n), Except.map, UInt64.ofNat_toNat]

theorem long_word (m : Medium) (n : UInt64) :
    long m (.number (some (.integer n.toNat))) = .ok n := by
  unfold long
  rw [unsigned_natural .long m (Text.toNat_le_maxWord n), Except.map, UInt64.ofNat_toNat]

end Decoder

/-- Members whose names are all legible. -/
def Reading.members (ms : List (String × Reading)) : List (Option String × Reading) :=
  ms.map fun e => (some e.1, e.2)

theorem Reading.lookup_members (ms : List (String × Reading)) (name : String) :
    (members ms).lookup (some name) = ms.lookup name := by
  induction ms with
  | nil => rfl
  | cons e ms ih =>
    have ih' : (ms.map fun e => (some e.1, e.2)).lookup (some name) = ms.lookup name := ih
    rw [members, List.map_cons, List.lookup_cons, List.lookup_cons, ih']
    rfl

/-- A field with the value that is to be read for it. -/
structure Entry where
  name : String
  type : Type
  decoder : Decoder type
  value : type

def Entry.field (e : Entry) : Field := .of e.name e.decoder

namespace Layout

/-- The names of the fields. -/
def names (l : Layout) : List String := l.fields.map Field.name

theorem mem_fields_of_find? {l : Layout} {k : String} {f : Field}
    (h : l.fields.find? (fun f => f.name = k) = some f) : f ∈ l.fields ∧ f.name = k :=
  ⟨List.mem_of_find?_eq_some h, by simpa using List.find?_some h⟩

/-- A visit goes through if no field is met twice and each accepts its part. -/
theorem visit_members {l : Layout} {m : Medium} {seen : List String} {ms : List (String × Reading)}
    (hunique : ((ms.filter fun e => l.names.contains e.1).map Prod.fst).Nodup)
    (hseen : ∀ e ∈ ms, e.1 ∈ l.names → e.1 ∉ seen)
    (hcheck : ∀ e ∈ ms, ∀ f ∈ l.fields, f.name = e.1 → f.check m e.2 = .ok ()) :
    l.visit m seen (Reading.members ms) = .ok () := by
  induction ms generalizing seen with
  | nil => rfl
  | cons e ms ih =>
    obtain ⟨k, r⟩ := e
    rw [List.forall_mem_cons] at hseen hcheck
    rw [List.filter_cons] at hunique
    unfold Reading.members at ih ⊢
    rw [List.map_cons, visit]
    split
    · apply ih _ hseen.2 hcheck.2
      split at hunique
      · exact (List.nodup_cons.1 hunique).2
      · exact hunique
    · next f hf =>
      obtain ⟨hmem, rfl⟩ := mem_fields_of_find? hf
      have hk : f.name ∈ l.names := List.mem_map_of_mem hmem
      rw [if_pos (List.contains_iff_mem.2 hk), List.map_cons, List.nodup_cons] at hunique
      have hfresh : seen.contains f.name = false := by
        simpa using hseen.1 hk
      rw [hfresh, hcheck.1 f hmem rfl]
      refine ih hunique.2 ?_ hcheck.2
      intro e he hname hmem
      rcases List.mem_cons.1 hmem with heq | hmem
      · refine hunique.1 (List.mem_map.2 ⟨e, List.mem_filter.2 ⟨he, ?_⟩, heq⟩)
        exact List.contains_iff_mem.2 hname
      · exact hseen.2 e he hname hmem

/-- The part for a field is there and is read as `x`. -/
def Holds (l : Layout) (m : Medium) (ps : Parts) (name : String) (d : Decoder α) (x : α) : Prop :=
  ∃ r, l.part? name ps = .ok (some r) ∧ d m r = .ok x

section Holds

variable {l : Layout} {m : Medium} {ps : Parts} {name : String} {d : Decoder α} {x : α}

theorem Holds.required (h : l.Holds m ps name d x) : l.required m ps name d = .ok x := by
  obtain ⟨r, hpart, hread⟩ := h
  unfold Layout.required
  rw [hpart]
  exact hread

theorem Holds.defaulted (h : l.Holds m ps name d x) (y : α) :
    l.defaulted m ps name d y = .ok x := by
  obtain ⟨r, hpart, hread⟩ := h
  unfold Layout.defaulted
  rw [hpart]
  exact hread

end Holds

/-- The fields of the entries are read from members that have a part under each of their names. -/
theorem decode_members {l : Layout} {build : Medium → Parts → Except DecodeError α} {m : Medium}
    {x : α} {es : List Entry} {ms : List (String × Reading)} (hfields : l.fields = es.map Entry.field)
    (hunique : ((ms.filter fun e => l.names.contains e.1).map Prod.fst).Nodup)
    (hread : ∀ e ∈ es, ∃ r, (e.name, r) ∈ ms ∧ e.decoder m r = .ok e.value)
    (hbuild : ∀ ps, (∀ e ∈ es, l.Holds m ps e.name e.decoder e.value) → build m ps = .ok x) :
    l.decode build m (.object (Reading.members ms) true) = .ok x := by
  have hlookup {k : String} {r : Reading} (hk : k ∈ l.names) (hmem : (k, r) ∈ ms) :
      ms.lookup k = some r := by
    have hown : l.names.contains k := List.contains_iff_mem.2 hk
    rw [← Dict.lookup_filter hown]
    exact Dict.lookup_of_mem_of_nodup hunique (List.mem_filter.2 ⟨hmem, hown⟩)
  have hname : ∀ e ∈ es, e.name ∈ l.names := by
    intro e he
    unfold names
    rw [hfields]
    exact List.mem_map_of_mem (List.mem_map_of_mem he)
  have hvisit : l.visit m [] (Reading.members ms) = .ok () := by
    refine visit_members hunique (fun _ _ _ => List.not_mem_nil) ?_
    rintro ⟨k, r⟩ hmem f hf rfl
    rw [hfields] at hf
    obtain ⟨e, he, rfl⟩ := List.mem_map.1 hf
    obtain ⟨r', hr', hok⟩ := hread e he
    obtain rfl : r' = r := by
      have hfound := hlookup (hname e he) hmem
      rw [hlookup (hname e he) hr'] at hfound
      exact Option.some.inj hfound
    change (e.decoder m r').map _ = _
    rw [hok]
    rfl
  have hheld : build m (.members (Reading.members ms)) = .ok x := by
    apply hbuild
    intro e he
    obtain ⟨r, hr, hok⟩ := hread e he
    refine ⟨r, ?_, hok⟩
    have hfound := hlookup (hname e he) hr
    rw [← Reading.lookup_members] at hfound
    exact congrArg Except.ok hfound
  change (l.visit m [] (Reading.members ms)).bind _ = _
  rw [hvisit]
  exact hheld

/-- The members may also be those of the entries, one by one. -/
theorem decode_own_members {l : Layout} {build : Medium → Parts → Except DecodeError α} {m : Medium}
    {x : α} {ms : List (String × Reading)} (es : List Entry) (hfields : l.fields = es.map Entry.field)
    (hnodup : l.names.Nodup)
    (hmembers : List.Forall₂ (fun e n => n.1 = e.name ∧ e.decoder m n.2 = .ok e.value) es ms)
    (hbuild : ∀ ps, (∀ e ∈ es, l.Holds m ps e.name e.decoder e.value) → build m ps = .ok x) :
    l.decode build m (.object (Reading.members ms) true) = .ok x := by
  have hnames : ms.map Prod.fst = l.names := by
    unfold names
    rw [hfields, List.map_map]
    exact (map_eq_map_of_forall₂ (fun _ _ h => h.1.symm) hmembers).symm
  refine decode_members hfields ?_ ?_ hbuild
  · apply (List.filter_sublist.map Prod.fst).nodup
    rw [hnames]
    exact hnodup
  · intro e he
    obtain ⟨n, hn, hname, hread⟩ := exists_of_mem_of_forall₂ hmembers he
    exact ⟨n.2, hname ▸ hn, hread⟩

end Layout

end LedgerExplorer
