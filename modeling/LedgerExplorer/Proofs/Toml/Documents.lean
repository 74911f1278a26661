import LedgerExplorer.Proofs.Json.Records
import LedgerExplorer.Proofs.Toml.Integers
import LedgerExplorer.Proofs.Toml.Strings
import LedgerExplorer.Toml.Document
import LedgerExplorer.Toml.Printer

/-!
# Documents of TOML read back

A document of tables of settings, whose names need no quotes and differ, is read as these tables in
their order. Every line is taken by one step of the reader; what the lines of a table add up to is
said of the table that is open, and a table is complete when the next header closes it.
-/

namespace LedgerExplorer.Toml

/-! ### Keys and values -/

/-- A name that needs no quotes. -/
def IsBare (k : String) : Prop := k.toList ≠ [] ∧ ∀ c ∈ k.toList, isBareKeyChar c

instance : DecidablePred IsBare := fun k =>
  decidable_of_iff (k.toList ≠ [] ∧ k.toList.all isBareKeyChar = true)
    (and_congr_right fun _ => List.all_eq_true)

/-- No name goes on here, nor another part of a key behind spaces. -/
def EndsKey (rest : List Char) : Prop :=
  (∀ c ∈ rest.head?, isBareKeyChar c = false) ∧ (skipSpace rest).head? ≠ some '.'

section Key

variable {k : String} {rest : List Char}

theorem exists_of_isBare (hk : IsBare k) : ∃ c cs, k.toList = c :: cs ∧ isBareKeyChar c := by
  obtain ⟨hne, hbare⟩ := hk
  obtain ⟨c, cs, hcs⟩ := List.exists_cons_of_ne_nil hne
  exact ⟨c, cs, hcs, hbare c (hcs ▸ List.mem_cons_self)⟩

theorem ne_of_isBareKeyChar {c d : Char} (hc : isBareKeyChar c) (hd : isBareKeyChar d = false) :
    c ≠ d := by
  rintro rfl
  rw [hc] at hd
  cases hd

theorem skipSpace_cons {c : Char} (h : isSpace c = false) (cs : List Char) :
    skipSpace (c :: cs) = c :: cs := by
  unfold skipSpace
  rw [List.dropWhile_cons, h]
  rfl

theorem isSpace_of_isBareKeyChar {c : Char} (h : isBareKeyChar c) : isSpace c = false := by
  have hspace : c ≠ ' ' := ne_of_isBareKeyChar h rfl
  have htab : c ≠ '\t' := ne_of_isBareKeyChar h rfl
  simp [isSpace, hspace, htab]

theorem readKeyPart_bare (hk : IsBare k) (hrest : ∀ c ∈ rest.head?, isBareKeyChar c = false) :
    readKeyPart (k.toList ++ rest) = some (k, rest) := by
  have htake : (k.toList ++ rest).takeWhile isBareKeyChar = k.toList := by
    rw [List.takeWhile_append_of_pos hk.2]
    cases rest with
    | nil => simp
    | cons c rest => simp [hrest c rfl]
  have hdrop : (k.toList ++ rest).dropWhile isBareKeyChar = rest := by
    rw [List.dropWhile_append_of_pos hk.2]
    cases rest with
    | nil => rfl
    | cons c rest => simp [hrest c rfl]
  unfold readKeyPart
  rw [htake, hdrop]
  split
  · next hnil => exact absurd hnil hk.1
  · rw [String.ofList_toList]

theorem readKey_bare (hk : IsBare k) (hrest : EndsKey rest) (room : Nat) :
    readKey (room + 1) (k.toList ++ rest) = some ([], k, skipSpace rest) := by
  obtain ⟨c, cs, hcs, hc⟩ := exists_of_isBare hk
  have hskip : skipSpace (k.toList ++ rest) = k.toList ++ rest := by
    rw [hcs]
    exact skipSpace_cons (isSpace_of_isBareKeyChar hc) _
  rw [readKey, hskip, readKeyPart_bare hk hrest.1, Option.bind_eq_bind, Option.bind_some]
  dsimp only
  split
  · next heq => exact absurd (by rw [heq]; rfl) hrest.2
  · rfl

end Key

/-- What the reader makes of a value. -/
def Setting.value : Setting → Toml
  | .string s => .string s
  | .integer n => .integer n

theorem exists_renderString_eq_cons (s : String) :
    ∃ q cs, renderString s = q :: cs ∧ (q = '"' ∨ q = '\'') := by
  unfold renderString
  cases StringStyle.ofText s.toList
  · exact ⟨_, _, rfl, .inl rfl⟩
  · exact ⟨_, _, rfl, .inr rfl⟩
  · exact ⟨_, _, rfl, .inl rfl⟩
  · exact ⟨_, _, rfl, .inr rfl⟩

theorem readValue_string (fuel room : Nat) (s : String) (rest : List Char) :
    readValue (fuel + 1) room (renderString s ++ '\n' :: rest) =
      some (.string s, '\n' :: rest) := by
  have hread : readString (renderString s ++ '\n' :: rest) = some (s, '\n' :: rest) :=
    readString_renderString s (by simp) (by simp)
  obtain ⟨q, cs, hcs, hq⟩ := exists_renderString_eq_cons s
  rw [hcs, List.cons_append] at hread ⊢
  rcases hq with rfl | rfl
  · rw [readValue, hread]
    rfl
  · rw [readValue, hread]
    rfl

theorem readValue_integer (fuel room : Nat) {n : Nat} (h : n ≤ 2 ^ 63 - 1) (rest : List Char) :
    readValue (fuel + 1) room (Text.digits n ++ '\n' :: rest) =
      some (.integer n, '\n' :: rest) := by
  have hread := readWord?_digits h rest
  obtain ⟨c, cs, hcs, hc⟩ := Text.exists_digits_eq_cons n
  rw [hcs, List.cons_append] at hread ⊢
  have hne {d : Char} (hd : d.isDigit = false) : c ≠ d := by
    rintro rfl
    rw [hc] at hd
    cases hd
  rw [readValue, hread]
  · exact fun _ heq => hne (d := '"') rfl (List.cons.inj heq).1
  · exact fun _ heq => hne (d := '\'') rfl (List.cons.inj heq).1
  · exact fun _ heq => hne (d := '[') rfl (List.cons.inj heq).1
  · exact fun _ heq => hne (d := '\x7b') rfl (List.cons.inj heq).1

theorem render?_integer_eq_some_iff {n : Nat} {cs : List Char} :
    (Setting.integer n).render? = some cs ↔ n ≤ 2 ^ 63 - 1 ∧ Text.digits n = cs := by
  have hmax : Int64.maxValue.toInt = 2 ^ 63 - 1 := by decide
  have hle : (n : Int) ≤ Int64.maxValue.toInt ↔ n ≤ 2 ^ 63 - 1 := by omega
  rw [Setting.render?]
  simp only [Option.ite_none_right_eq_some, Option.some.injEq, hle]

/-- A value is read up to the end of its line. -/
theorem readValue_render {v : Setting} {cs : List Char} (h : v.render? = some cs)
    (fuel room : Nat) (rest : List Char) :
    readValue (fuel + 1) room (cs ++ '\n' :: rest) = some (v.value, '\n' :: rest) := by
  cases v with
  | string s =>
    cases h
    exact readValue_string fuel room s rest
  | integer n =>
    obtain ⟨hle, rfl⟩ := render?_integer_eq_some_iff.1 h
    exact readValue_integer fuel room hle rest

theorem skipSpace_render {v : Setting} {cs : List Char} (h : v.render? = some cs)
    (rest : List Char) : skipSpace (cs ++ rest) = cs ++ rest := by
  cases v with
  | string s =>
    cases h
    obtain ⟨q, cs, hcs, rfl | rfl⟩ := exists_renderString_eq_cons s
    · rw [hcs]
      exact skipSpace_cons rfl _
    · rw [hcs]
      exact skipSpace_cons rfl _
  | integer n =>
    obtain ⟨-, rfl⟩ := render?_integer_eq_some_iff.1 h
    obtain ⟨c, cs, hcs, hc⟩ := Text.exists_digits_eq_cons n
    have hbare : isBareKeyChar c := by simp [isBareKeyChar, Char.isAlphanum, hc]
    rw [hcs]
    exact skipSpace_cons (isSpace_of_isBareKeyChar hbare) _

/-- The entries that settings are read as. -/
def entriesOf (settings : List (String × Setting)) : List (String × Toml) :=
  settings.map fun s => (s.1, s.2.value)

/-- The table that settings are read as. -/
def tableOf (t : String × List (String × Setting)) : String × Toml :=
  (t.1, .table false false (entriesOf t.2))

/-- A table whose name and keys need no quotes, and whose keys differ. -/
structure IsBareTable (t : String × List (String × Setting)) : Prop where
  name : IsBare t.1
  keys : ∀ k ∈ t.2.map Prod.fst, IsBare k
  nodup : (t.2.map Prod.fst).Nodup

theorem isBareTable_of_keys {name : String} {settings : List (String × Setting)}
    (keys : List String) (hkeys : settings.map Prod.fst = keys)
    (h : IsBare name ∧ (∀ k ∈ keys, IsBare k) ∧ keys.Nodup) : IsBareTable (name, settings) := by
  subst hkeys
  exact ⟨h.1, h.2.1, h.2.2⟩

/-! ### Lines -/

namespace Document

/-- The reader takes a text in as many steps as it has characters at most. -/
def Takes (d : Document) (text : List Char) (d' : Document) : Prop :=
  ∃ n ≤ text.length, ∀ fuel rest, readLines (fuel + n) d (text ++ rest) = readLines fuel d' rest

section Takes

variable {d d' d'' : Document} {text text' : List Char}

theorem takes_nil (d : Document) : d.Takes [] d :=
  ⟨0, Nat.le_refl 0, fun _ _ => rfl⟩

theorem takes_step (hne : text ≠ [])
    (h : ∀ fuel rest, readLines (fuel + 1) d (text ++ rest) = readLines fuel d' rest) :
    d.Takes text d' :=
  ⟨1, List.length_pos_iff.2 hne, h⟩

theorem Takes.append (h : d.Takes text d') (h' : d'.Takes text' d'') :
    d.Takes (text ++ text') d'' := by
  obtain ⟨n, hn, hstep⟩ := h
  obtain ⟨m, hm, hstep'⟩ := h'
  refine ⟨m + n, by rw [List.length_append]; omega, fun fuel rest => ?_⟩
  rw [List.append_assoc, ← Nat.add_assoc, hstep, hstep']

/-- What is left when a text is taken to its end. -/
theorem Takes.readLines (h : d.Takes text d') : readLines (text.length + 1) d text = some d' := by
  obtain ⟨n, hn, hstep⟩ := h
  have hfuel : text.length + 1 = text.length - n + 1 + n := by omega
  have hend := hstep (text.length - n + 1) []
  rw [List.append_nil] at hend
  rw [hfuel, hend]
  rfl

end Takes

theorem takes_blank (d : Document) : d.Takes ['\n'] d :=
  takes_step (List.cons_ne_nil _ _) fun _ _ => rfl

theorem endOfLine?_of_isBareKeyChar {c : Char} (h : isBareKeyChar c) (cs : List Char) :
    endOfLine? (c :: cs) = none := by
  unfold endOfLine?
  rw [skipSpace_cons (isSpace_of_isBareKeyChar h)]
  split
  · next heq =>
    exact absurd (List.cons.inj heq).1 (ne_of_isBareKeyChar h rfl)
  · change newline? (c :: cs) = none
    rw [newline?]
    · exact fun _ heq => ne_of_isBareKeyChar h (d := '\n') rfl (List.cons.inj heq).1
    · exact fun _ heq => ne_of_isBareKeyChar h (d := '\r') rfl (List.cons.inj heq).1

theorem endOfLine?_break (rest : List Char) : endOfLine? ('\n' :: rest) = some rest := rfl

theorem takes_header {d d' : Document} {name : String} (hname : IsBare name)
    (hopen : d.openTable [] name = some d') :
    d.Takes ('[' :: (name.toList ++ [']', '\n'])) d' := by
  apply takes_step (List.cons_ne_nil _ _)
  intro fuel rest
  have hkey : readKey maxNesting (name.toList ++ ']' :: '\n' :: rest) =
      some ([], name, ']' :: '\n' :: rest) :=
    readKey_bare hname ⟨by simp [isBareKeyChar], by simp [skipSpace, isSpace]⟩ _
  obtain ⟨c, cs, hcs, hc⟩ := exists_of_isBare hname
  have hbracket : c ≠ '[' := ne_of_isBareKeyChar hc rfl
  rw [List.cons_append, List.append_assoc, readLines, skipSpace_cons rfl]
  split
  · next heq => cases heq
  · next heq =>
    rw [hcs] at heq
    exact absurd (List.cons.inj (List.cons.inj heq).2).1 hbracket
  · next heq =>
    cases heq
    change (readKey maxNesting (name.toList ++ ']' :: '\n' :: rest)).bind _ = _
    rw [hkey]
    simp only [Option.bind_eq_bind, Option.bind_some, hopen, endOfLine?_break]
  · next hno => exact absurd rfl (hno _)

/-- A line puts its value into the open table. -/
theorem takes_line {d d' : Document} {k : String} {v : Setting} {cs : List Char} (hk : IsBare k)
    (hv : v.render? = some cs) (hadd : d.add [] k v.value = some d') :
    d.Takes (k.toList ++ [' ', '=', ' '] ++ cs ++ ['\n']) d' := by
  obtain ⟨c, name, hname, hc⟩ := exists_of_isBare hk
  have hspace : isSpace c = false := isSpace_of_isBareKeyChar hc
  apply takes_step (by simp)
  intro fuel rest
  have hkey : readKey maxNesting (k.toList ++ ' ' :: '=' :: ' ' :: (cs ++ '\n' :: rest)) =
      some ([], k, '=' :: ' ' :: (cs ++ '\n' :: rest)) :=
    readKey_bare hk ⟨by simp [isBareKeyChar], by simp [skipSpace, isSpace]⟩ _
  have hvalue : skipSpace (' ' :: (cs ++ '\n' :: rest)) = cs ++ '\n' :: rest :=
    skipSpace_render hv _
  have htext : k.toList ++ [' ', '=', ' '] ++ cs ++ ['\n'] ++ rest =
      k.toList ++ ' ' :: '=' :: ' ' :: (cs ++ '\n' :: rest) := by simp
  rw [htext, readLines]
  rw [hname, List.cons_append] at hkey ⊢
  rw [skipSpace_cons hspace]
  split
  · next heq => cases heq
  · next heq => exact absurd (List.cons.inj heq).1 (ne_of_isBareKeyChar hc rfl)
  · next heq => exact absurd (List.cons.inj heq).1 (ne_of_isBareKeyChar hc rfl)
  · rw [endOfLine?_of_isBareKeyChar hc, hkey]
    simp only [Option.bind_eq_bind, Option.bind_some, hvalue, readValue_render hv, hadd,
      endOfLine?_break]

/-! ### Tables -/

theorem lookup_eq_none {l : List (String × Toml)} {k : String} (h : k ∉ l.map Prod.fst) :
    l.lookup k = none := by
  rw [List.lookup_eq_none_iff]
  intro e he
  rw [bne_iff_ne]
  exact fun heq => h (List.mem_map.2 ⟨e, he, heq.symm⟩)

theorem put_of_not_mem {l : List (String × Toml)} {k : String} (h : k ∉ l.map Prod.fst)
    (v : Toml) : put k v l = l ++ [(k, v)] := by
  induction l with
  | nil => rfl
  | cons e l ih =>
    obtain ⟨k', v'⟩ := e
    rw [List.map_cons, List.mem_cons, not_or] at h
    rw [put, if_neg h.1, ih h.2]
    rfl

/-- A document that has opened a table behind others. -/
def opened (es : List (String × Toml)) (name : String) (current : List (String × Toml)) :
    Document where
  root := { entries := es }
  current := { entries := current }
  path := some ([], name)

section Opened

variable {es current : List (String × Toml)} {name : String}

theorem openTable_of_close {d : Document} (hclose : d.close = some { entries := es })
    (hname : name ∉ es.map Prod.fst) : d.openTable [] name = some (opened es name []) := by
  unfold openTable descend
  simp [hclose, lookup_eq_none hname, opened]

theorem add_opened {k : String} (hk : k ∉ current.map Prod.fst) (v : Toml) :
    (opened es name current).add [] k v = some (opened es name (current ++ [(k, v)])) := by
  unfold add addValue descend
  simp [opened, lookup_eq_none hk, Table.put, put_of_not_mem hk]

theorem close_opened (hname : name ∉ es.map Prod.fst) :
    (opened es name current).close =
      some { entries := es ++ [(name, .table false false current)] } := by
  unfold close descend
  simp [opened, lookup_eq_none hname, Table.put, put_of_not_mem hname, Table.toToml]

/-- The lines of a table put their settings into the open table one after the other. -/
theorem takes_lines {settings : List (String × Setting)} {text : List Char}
    (htext : renderLines? settings = some text) (hbare : ∀ k ∈ settings.map Prod.fst, IsBare k)
    (hnodup : (current.map Prod.fst ++ settings.map Prod.fst).Nodup) :
    (opened es name current).Takes text (opened es name (current ++ entriesOf settings)) := by
  induction settings generalizing current text with
  | nil =>
    cases htext
    rw [entriesOf, List.map_nil, List.append_nil]
    exact takes_nil _
  | cons s settings ih =>
    obtain ⟨k, v⟩ := s
    rw [List.map_cons, List.forall_mem_cons] at hbare
    rw [List.map_cons] at hnodup
    simp only [renderLines?, Option.bind_eq_bind, Option.bind_eq_some_iff, Option.pure_def,
      Option.some.injEq] at htext
    obtain ⟨cs, hcs, rest, hrest, rfl⟩ := htext
    have hfresh : k ∉ current.map Prod.fst := fun hmem =>
      (List.nodup_append.1 hnodup).2.2 k hmem k List.mem_cons_self rfl
    have hline : (opened es name current).Takes _ (opened es name (current ++ [(k, v.value)])) :=
      takes_line hbare.1 hcs (add_opened hfresh v.value)
    have hall := hline.append (ih hrest hbare.2 (by simpa using hnodup))
    simp only [List.append_assoc, List.singleton_append] at hall ⊢
    exact hall

end Opened

section Tables

variable {d : Document} {es : List (String × Toml)} {text : List Char}

/-- A table that is read behind others is closed behind them. -/
theorem takes_table {t : String × List (String × Setting)} (ht : IsBareTable t)
    (hclose : d.close = some { entries := es }) (hfresh : t.1 ∉ es.map Prod.fst)
    (htext : renderTable? t.1 t.2 = some text) :
    ∃ d', d.Takes text d' ∧ d'.close = some { entries := es ++ [tableOf t] } := by
  simp only [renderTable?, Option.bind_eq_bind, Option.bind_eq_some_iff, Option.pure_def,
    Option.some.injEq] at htext
  obtain ⟨lines, hlines, rfl⟩ := htext
  have hheader := takes_header ht.name (openTable_of_close hclose hfresh)
  have hsettings : (opened es t.1 []).Takes lines (opened es t.1 ([] ++ entriesOf t.2)) :=
    takes_lines hlines ht.keys ht.nodup
  refine ⟨_, ?_, close_opened hfresh⟩
  have hall := hheader.append hsettings
  simp only [List.cons_append, List.append_assoc, List.nil_append] at hall ⊢
  exact hall

/-- Tables are read one behind the other. -/
theorem takes_tables {ts : List (String × List (String × Setting))} (hts : ∀ t ∈ ts, IsBareTable t)
    (hclose : d.close = some { entries := es })
    (hnames : (es.map Prod.fst ++ ts.map Prod.fst).Nodup)
    (htext : renderTables? ts = some text) :
    ∃ d', d.Takes text d' ∧ d'.close = some { entries := es ++ ts.map tableOf } := by
  induction ts generalizing d es text with
  | nil =>
    cases htext
    rw [List.map_nil, List.append_nil]
    exact ⟨d, takes_nil d, hclose⟩
  | cons t ts ih =>
    rw [List.forall_mem_cons] at hts
    rw [List.map_cons] at hnames
    have hfresh : t.1 ∉ es.map Prod.fst := fun hmem =>
      (List.nodup_append.1 hnames).2.2 _ hmem _ List.mem_cons_self rfl
    cases ts with
    | nil => exact takes_table hts.1 hclose hfresh htext
    | cons t' ts =>
      simp only [renderTables?, Option.bind_eq_bind, Option.bind_eq_some_iff, Option.pure_def,
        Option.some.injEq] at htext
      obtain ⟨first, hfirst, rest, hrest, rfl⟩ := htext
      obtain ⟨d₁, htakes₁, hclose₁⟩ := takes_table hts.1 hclose hfresh hfirst
      obtain ⟨d₂, htakes₂, hclose₂⟩ := ih hts.2 hclose₁ (by simpa [tableOf] using hnames) hrest
      refine ⟨d₂, htakes₁.append ((takes_blank d₁).append htakes₂), ?_⟩
      rw [hclose₂, List.append_assoc]
      rfl

end Tables

end Document

open Document

/-- A document starts with a header, unless it is empty. -/
theorem head?_renderTables? {ts : List (String × List (String × Setting))} {text : List Char}
    (htext : renderTables? ts = some text) : ∀ c ∈ text.head?, c = '[' := by
  match ts with
  | [] =>
    cases htext
    exact nofun
  | [t] =>
    simp only [renderTables?, renderTable?, Option.bind_eq_bind, Option.bind_eq_some_iff,
      Option.pure_def, Option.some.injEq] at htext
    obtain ⟨lines, -, rfl⟩ := htext
    exact fun c hc => (Option.some.inj hc).symm
  | t :: t' :: ts =>
    simp only [renderTables?, renderTable?, Option.bind_eq_bind, Option.bind_eq_some_iff,
      Option.pure_def, Option.some.injEq] at htext
    obtain ⟨-, ⟨lines, -, rfl⟩, rest, -, rfl⟩ := htext
    exact fun c hc => (Option.some.inj hc).symm

/-! ### What can be written -/

theorem isSome_renderLines? {settings : List (String × Setting)} :
    (renderLines? settings).isSome ↔ ∀ s ∈ settings, s.2.render?.isSome := by
  induction settings with
  | nil => simp [renderLines?]
  | cons s settings ih =>
    obtain ⟨k, v⟩ := s
    rw [List.forall_mem_cons, ← ih, renderLines?]
    cases v.render? <;> cases renderLines? settings <;> simp

theorem isSome_renderTable? (name : String) {settings : List (String × Setting)} :
    (renderTable? name settings).isSome ↔ ∀ s ∈ settings, s.2.render?.isSome := by
  rw [← isSome_renderLines?, renderTable?]
  cases renderLines? settings <;> simp

/-- Tables have a written form if all of their settings do. -/
theorem isSome_renderTables? {ts : List (String × List (String × Setting))} :
    (renderTables? ts).isSome ↔ ∀ t ∈ ts, ∀ s ∈ t.2, s.2.render?.isSome := by
  induction ts with
  | nil => simp [renderTables?]
  | cons t ts ih =>
    cases ts with
    | nil => simp [renderTables?, isSome_renderTable?]
    | cons t' ts =>
      rw [List.forall_mem_cons, ← ih, ← isSome_renderTable? t.1, renderTables?]
      · cases renderTable? t.1 t.2 <;> cases renderTables? (t' :: ts) <;> simp
      · exact List.cons_ne_nil _ _

/-! ### What is read -/

/-- What is written of tables is read as these tables. -/
theorem ofText?_renderTables? {ts : List (String × List (String × Setting))} {text : List Char}
    (hts : ∀ t ∈ ts, IsBareTable t) (hnames : (ts.map Prod.fst).Nodup)
    (htext : renderTables? ts = some text) :
    ofText? (String.ofList text) = some { entries := ts.map tableOf } := by
  have hempty : ({} : Document).close = some { entries := [] } := rfl
  obtain ⟨d, htakes, hclose⟩ := takes_tables hts hempty hnames htext
  have hmark : ∀ rest, text ≠ '\ufeff' :: rest := by
    rintro rest rfl
    exact absurd (head?_renderTables? htext _ rfl) (by decide)
  unfold ofText?
  rw [String.toList_ofList]
  dsimp only
  split
  · next rest => exact absurd rfl (hmark rest)
  · rw [htakes.readLines, Option.bind_some, hclose, List.nil_append]

theorem entryReadings_eq_map (es : List (String × Toml)) :
    entryReadings es = Reading.members (es.map fun e => (e.1, e.2.reading)) := by
  induction es with
  | nil => rfl
  | cons e es ih =>
    rw [entryReadings, ih]
    rfl

end LedgerExplorer.Toml
