import LedgerExplorer.Proofs.Json.Printed
import LedgerExplorer.Proofs.Json.Records
import LedgerExplorer.Proofs.Lists
import Mathlib.Data.List.Perm.Basic

/-!
# Written forms with further members

The shape of a type says where objects stand in its written form, and which of their members are its
own. A value is widened by members of other names, put anywhere into such objects, and by any change
in the order of members. How a widened value is read follows the shape: a scalar is as it was, the
items of a list are widened one by one, and so are the own members of an object.
-/

namespace LedgerExplorer

variable {α : Type}

namespace Json

/-- Whether a value has no parts. -/
def isScalar : Json → Bool
  | .null | .bool _ | .number _ | .string _ => true
  | .array _ | .object _ => false

theorem canonicalItems_eq_map (items : List Json) :
    canonicalItems items = items.map canonical := by
  induction items with
  | nil => rfl
  | cons v items ih => rw [canonicalItems, ih, List.map_cons]

theorem canonicalMembers_eq_map (members : List (String × Json)) :
    canonicalMembers members = members.map fun m => (m.1, m.2.canonical) := by
  induction members with
  | nil => rfl
  | cons m members ih => rw [canonicalMembers, ih, List.map_cons]

theorem reading_object (members : List (String × Json)) :
    (object members).reading =
      .object (Reading.members (members.map fun m => (m.1, m.2.reading))) true := by
  rw [reading, memberReadings_eq_map, Reading.members, List.map_map]
  rfl

end Json

/-- How the written form of a type is put together. -/
inductive Shape
  | scalar
  | list (item : Shape)
  /-- An object whose own members are told by their names, with the shape of each. -/
  | object (own : String → Bool) (part : String → Shape)

namespace Shape

/-- An object whose members are all its own. -/
def dict (item : Shape) : Shape :=
  .object (fun _ => true) fun _ => item

/-- The object of a record, with the shapes of its fields. -/
def record (l : Layout) (part : String → Shape) : Shape :=
  .object l.names.contains part

/-- A record of scalars. -/
def flat (l : Layout) : Shape :=
  record l fun _ => .scalar

/-- Whether `w` is `v` with the members of its objects in any order and with further ones, whose names
are not those of own members, among them. -/
def Widens : Shape → Json → Json → Prop
  | .scalar, v, w => v.isScalar ∧ w = v
  | .list item, .array vs, .array ws => List.Forall₂ item.Widens vs ws
  | .object own part, .object ms, .object ns =>
    (ms.map Prod.fst).Nodup ∧ ∃ ns', (ns.filter fun n => own n.1).Perm ns' ∧
      List.Forall₂ (fun m n => n.1 = m.1 ∧ (part m.1).Widens m.2 n.2) ms ns'
  | _, _, _ => False

/-- One member more, under a name that is not that of an own member, somewhere in an object. -/
inductive Inserts : Shape → Json → Json → Prop
  | item {s : Shape} {v w : Json} {l₁ l₂ : List Json} (h : s.Inserts v w) :
    Inserts (.list s) (.array (l₁ ++ v :: l₂)) (.array (l₁ ++ w :: l₂))
  | member {own : String → Bool} {part : String → Shape} {l₁ l₂ : List (String × Json)} {k : String}
      (hk : own k = false) (v : Json) :
    Inserts (.object own part) (.object (l₁ ++ l₂)) (.object (l₁ ++ (k, v) :: l₂))
  | part {own : String → Bool} {part : String → Shape} {l₁ l₂ : List (String × Json)} {k : String}
      {v w : Json} (hk : own k) (h : (part k).Inserts v w) :
    Inserts (.object own part) (.object (l₁ ++ (k, v) :: l₂)) (.object (l₁ ++ (k, w) :: l₂))

section Object

variable {own : String → Bool} {part : String → Shape} {v w : Json} {ms ns : List (String × Json)}

theorem exists_of_widens_object (h : (Shape.object own part).Widens (.object ms) w) :
    ∃ ns, w = .object ns ∧ (ms.map Prod.fst).Nodup ∧
      ∃ ns', (ns.filter fun n => own n.1).Perm ns' ∧
        List.Forall₂ (fun m n => n.1 = m.1 ∧ (part m.1).Widens m.2 n.2) ms ns' := by
  cases w with
  | object ns => exact ⟨ns, rfl, h⟩
  | null | bool | number | string | array => exact h.elim

end Object

/-- What is put into a widened value widens it further. -/
theorem Widens.insert {s : Shape} {v w w' : Json} (h : s.Inserts w w') (hw : s.Widens v w) :
    s.Widens v w' := by
  induction h generalizing v with
  | item h ih =>
    cases v with
    | array vs => exact forall₂_replace hw fun v => ih
    | null | bool | number | string | object => exact hw.elim
  | @member own part l₁ l₂ k hk x =>
    have hsame : (l₁ ++ (k, x) :: l₂).filter (fun n => own n.1) =
        (l₁ ++ l₂).filter fun n => own n.1 := by
      rw [List.filter_append, List.filter_append, List.filter_cons]
      simp [hk]
    cases v with
    | object ms =>
      unfold Widens at hw ⊢
      rwa [hsame]
    | null | bool | number | string | array => exact hw.elim
  | @part own part l₁ l₂ k v₁ v₂ hk h ih =>
    have hsplit (x : Json) : (l₁ ++ (k, x) :: l₂).filter (fun n => own n.1) =
        (l₁.filter fun n => own n.1) ++ (k, x) :: l₂.filter fun n => own n.1 := by
      rw [List.filter_append, List.filter_cons]
      simp [hk]
    cases v with
    | object ms =>
      obtain ⟨hnodup, ns', hperm, hparts⟩ := hw
      rw [hsplit] at hperm
      have hmem : (k, v₁) ∈ ns' := hperm.mem_iff.1 (List.mem_append_right _ List.mem_cons_self)
      obtain ⟨a, b, rfl⟩ := List.append_of_mem hmem
      refine ⟨hnodup, a ++ (k, v₂) :: b, ?_, ?_⟩
      · have hrest := (List.perm_middle.symm.trans hperm).trans List.perm_middle
        rw [hsplit]
        exact List.perm_middle.trans ((hrest.cons_inv.cons (k, v₂)).trans List.perm_middle.symm)
      · refine forall₂_replace hparts ?_
        rintro ⟨k, v⟩ ⟨rfl, hwidens⟩
        exact ⟨rfl, ih hwidens⟩
    | null | bool | number | string | array => exact hw.elim

/-- A widened value is held in memory as a widened value. -/
theorem Widens.canonical {s : Shape} {v w : Json} (h : s.Widens v w) : s.Widens v w.canonical := by
  induction s generalizing v w with
  | scalar =>
    obtain ⟨hv, rfl⟩ := h
    refine ⟨hv, ?_⟩
    cases w with
    | null | bool | number | string => rfl
    | array | object => cases hv
  | list item ih =>
    cases v <;> cases w <;> try exact h.elim
    next vs ws =>
      unfold Widens at h
      rw [Json.canonical, Json.canonicalItems_eq_map]
      unfold Widens
      rw [List.forall₂_map_right_iff]
      exact h.imp fun _ _ => ih
  | object own part ih =>
    cases v <;> cases w <;> try exact h.elim
    next ms ns =>
      obtain ⟨hnodup, ns', hperm, hparts⟩ := h
      let hold (n : String × Json) : String × Json := (n.1, n.2.canonical)
      have hown : (ns.map hold).filter (fun n => own n.1) =
          (ns.filter fun n => own n.1).map hold := by
        rw [List.filter_map]
        rfl
      have hnames : (((ns.map hold).filter fun n => own n.1).map Prod.fst).Nodup := by
        rw [hown, List.map_map, (hperm.map _).nodup_iff]
        change (ns'.map Prod.fst).Nodup
        rwa [← map_eq_map_of_forall₂ (fun _ _ h => h.1.symm) hparts]
      -- what is held under an own name is what stood there alone
      have hheld : ((Dict.ofList (ns.map hold)).entries.filter fun n => own n.1).Perm
          (ns'.map hold) := by
        change ((Dict.ofList (ns.map hold)).filter fun k _ => own k).entries.Perm _
        rw [Dict.filter_ofList]
        refine (Dict.perm_entries_ofList hnames).trans ?_
        rw [hown]
        exact hperm.map hold
      rw [Json.canonical, Json.canonicalMembers_eq_map]
      refine ⟨hnodup, ns'.map hold, hheld, ?_⟩
      rw [List.forall₂_map_right_iff]
      exact hparts.imp fun m n hn => ⟨hn.1, ih m.1 hn.2⟩

/-- The value is of the shape, and every widened form of it is decoded as `x`. -/
structure Reads (s : Shape) (d : Decoder α) (v : Json) (x : α) : Prop where
  self : s.Widens v v
  widened : ∀ w, s.Widens v w → d .value w.reading = .ok x

theorem reads_scalar {d : Decoder α} {v : Json} {x : α} (hscalar : v.isScalar)
    (h : d .value v.reading = .ok x) : Shape.scalar.Reads d v x := by
  refine ⟨⟨hscalar, rfl⟩, ?_⟩
  rintro w ⟨-, rfl⟩
  exact h

section List

variable {s : Shape} {d : Decoder α} {f : α → Json} {xs : List α}

theorem items_of_widens (h : ∀ x, s.Reads d (f x) x) {ws : List Json}
    (hws : List.Forall₂ s.Widens (xs.map f) ws) :
    Decoder.items d .value (Json.readings ws) = .ok xs := by
  induction xs generalizing ws with
  | nil =>
    cases hws
    rfl
  | cons x xs ih =>
    cases hws with
    | cons hfirst hrest =>
      rw [Json.readings, Decoder.items, (h x).widened _ hfirst, ih hrest]
      rfl

theorem reads_list (h : ∀ x, s.Reads d (f x) x) (xs : List α) :
    (Shape.list s).Reads (Decoder.list d) (.array (xs.map f)) xs := by
  refine ⟨?_, fun w hw => ?_⟩
  · apply List.forall₂_same.2
    intro v hv
    obtain ⟨x, -, rfl⟩ := List.mem_map.1 hv
    exact (h x).self
  cases w with
  | array ws =>
    rw [Json.reading, Decoder.list, items_of_widens h hw]
    rfl
  | null | bool | number | string | object => exact hw.elim

end List

section Dict

variable {s : Shape} {d : Decoder α} {f : α → Json}

/-- A member with a widened form of the value of an entry, under the same name. -/
def Stands (s : Shape) (f : α → Json) (n : String × Json) (e : String × α) : Prop :=
  n.1 = e.1 ∧ s.Widens (f e.2) n.2

theorem entries_of_stands (h : ∀ x, s.Reads d (f x) x) {ns : List (String × Json)}
    {es : List (String × α)} (hns : List.Forall₂ (s.Stands f) ns es) (acc : Dict α) :
    Decoder.entries d .value acc (Json.memberReadings ns) =
      .ok (es.foldl (fun acc e => acc.insert e.1 e.2) acc) := by
  induction hns generalizing acc with
  | nil => rfl
  | @cons n e ns es hfirst _ ih =>
    obtain ⟨hname, hvalue⟩ := hfirst
    rw [Json.memberReadings, Decoder.entries, (h e.2).widened _ hvalue, hname]
    exact ih _

theorem reads_dict (h : ∀ x, s.Reads d (f x) x) (m : Dict α) :
    (Shape.dict s).Reads (Decoder.dict d) (.ofDict f m) m := by
  refine ⟨?_, fun w hw => ?_⟩
  · refine ⟨(m.map f).nodup_keys, (m.map f).entries, by rw [List.filter_true], ?_⟩
    apply List.forall₂_same.2
    intro n hn
    obtain ⟨e, -, rfl⟩ := List.mem_map.1 hn
    exact ⟨rfl, (h e.2).self⟩
  obtain ⟨ns, rfl, -, ns', hperm, hparts⟩ := exists_of_widens_object hw
  rw [List.filter_true] at hperm
  change List.Forall₂ _ (m.entries.map fun e => (e.1, f e.2)) ns' at hparts
  rw [List.forall₂_map_left_iff] at hparts
  have hstands : List.Forall₂ (s.Stands f) ns' m.entries := List.Forall₂.flip hparts
  obtain ⟨es, hes, hentries⟩ := List.perm_comp_forall₂ hperm hstands
  rw [Json.reading, Decoder.dict, entries_of_stands h hes]
  exact congrArg Except.ok (Dict.ofList_eq_of_perm hentries)

end Dict

/-- A record is read from widened members if every entry is read from the widened forms of its own. -/
theorem reads_record {l : Layout} {part : String → Shape}
    {build : Medium → Layout.Parts → Except DecodeError α} {x : α} {ms : List (String × Json)}
    (es : List Entry) (hfields : l.fields = es.map Entry.field) (hnodup : l.names.Nodup)
    (hmembers : List.Forall₂
      (fun e m => m.1 = e.name ∧ (part m.1).Reads e.decoder m.2 e.value) es ms)
    (hbuild : ∀ ps, (∀ e ∈ es, l.Holds .value ps e.name e.decoder e.value) →
      build .value ps = .ok x) :
    (Shape.record l part).Reads (l.decode build) (.object ms) x := by
  have hnames : ms.map Prod.fst = l.names := by
    unfold Layout.names
    rw [hfields, List.map_map]
    exact (map_eq_map_of_forall₂ (fun _ _ h => h.1.symm) hmembers).symm
  refine ⟨?_, fun w hw => ?_⟩
  · have hown : ms.filter (fun n => l.names.contains n.1) = ms := by
      rw [List.filter_eq_self, ← hnames]
      intro m hm
      exact List.contains_iff_mem.2 (List.mem_map_of_mem hm)
    refine ⟨hnames ▸ hnodup, ms, by rw [hown], ?_⟩
    apply List.forall₂_same.2
    intro m hm
    obtain ⟨e, -, -, hread⟩ := exists_of_mem_of_forall₂ hmembers.flip hm
    exact ⟨rfl, hread.self⟩
  obtain ⟨ns, rfl, -, ns', hperm, hparts⟩ := exists_of_widens_object hw
  rw [Json.reading_object]
  refine Layout.decode_members hfields ?_ ?_ hbuild
  · rw [List.filter_map, List.map_map]
    change ((ns.filter fun n => l.names.contains n.1).map Prod.fst).Nodup
    rw [(hperm.map _).nodup_iff, ← map_eq_map_of_forall₂ (fun _ _ h => h.1.symm) hparts, hnames]
    exact hnodup
  · intro e he
    obtain ⟨m, hm, hname, hread⟩ := exists_of_mem_of_forall₂ hmembers he
    obtain ⟨n, hn, hname', hwidens⟩ := exists_of_mem_of_forall₂ hparts hm
    refine ⟨n.2.reading, ?_, hread.widened _ hwidens⟩
    rw [← hname, ← hname']
    exact List.mem_map.2 ⟨n, (List.mem_filter.1 (hperm.mem_iff.2 hn)).1, rfl⟩

end Shape

end LedgerExplorer
