import LedgerExplorer.Config.File
import LedgerExplorer.Proofs.Toml.Documents

/-!
# Saving and loading settings

Settings have a text if none of their numbers is too large for it, and are read back from that text
one by one: no text that they hold and no setting that is not set is lost on the way. Settings without
a text leave the file as it was.
-/

namespace LedgerExplorer.Config

open Toml

/-- The numbers among the settings. -/
def integers (c : Config) : List UInt64 :=
  [c.api.timeoutMs, c.session.defaultPageSize, c.session.maxPageSize, c.session.histogramBuckets] ++
    c.cache.maxEntries.toList

/-- The text of a configuration names its settings without quotes. -/
theorem isBareTable_of_mem_tables (c : Config) : ∀ t ∈ c.tables, IsBareTable t := by
  unfold tables
  simp only [List.forall_mem_cons]
  refine ⟨?_, ?_, ?_, ?_, nofun⟩
  · exact isBareTable_of_keys ["base_url", "timeout_ms"] rfl (by decide)
  · exact isBareTable_of_keys
      ["namespace", "default_page_size", "max_page_size", "histogram_buckets"] rfl (by decide)
  · cases c.cache.maxEntries with
    | none => exact isBareTable_of_keys [] rfl (by decide)
    | some n => exact isBareTable_of_keys ["max_entries"] rfl (by decide)
  · exact isBareTable_of_keys ["level"] rfl (by decide)

theorem nodup_names_tables (c : Config) : (c.tables.map Prod.fst).Nodup := by
  change ["api", "session", "cache", "logging"].Nodup
  decide

theorem isSome_render?_integer (n : UInt64) :
    (Setting.integer n.toNat).render?.isSome ↔ n.toNat ≤ 2 ^ 63 - 1 := by
  rw [Option.isSome_iff_exists]
  simp only [render?_integer_eq_some_iff, exists_and_left, exists_eq', and_true]

theorem isSome_text?_iff (c : Config) :
    c.text?.isSome ↔ ∀ n ∈ c.integers, n.toNat ≤ 2 ^ 63 - 1 := by
  have hstring (s : String) : (Setting.string s).render?.isSome := rfl
  unfold text? tables integers
  rw [Option.isSome_map, isSome_renderTables?]
  simp only [List.forall_mem_cons, List.cons_append, List.nil_append]
  cases c.cache.maxEntries with
  | none => simp [isSome_render?_integer, hstring]
  | some n => simp [isSome_render?_integer, hstring, and_assoc]

section Sections

variable (c : Config)

theorem decode_api : (decode .document (Toml.table false false (entriesOf
    [("base_url", .string c.api.baseUrl), ("timeout_ms", .integer c.api.timeoutMs.toNat)])).reading :
      Except DecodeError ApiConfig) = .ok c.api := by
  rw [reading, entryReadings_eq_map]
  refine Layout.decode_own_members [⟨"base_url", _, Decoder.string, c.api.baseUrl⟩,
    ⟨"timeout_ms", _, Decoder.long, c.api.timeoutMs⟩] rfl (by decide) ?_ ?_
  · exact .cons ⟨rfl, rfl⟩ (.cons ⟨rfl, Decoder.long_word _ _⟩ .nil)
  · intro ps h
    simp only [List.forall_mem_cons] at h
    obtain ⟨hurl, htimeout, -⟩ := h
    rw [hurl.defaulted, htimeout.defaulted]
    rfl

theorem decode_session : (decode .document (Toml.table false false (entriesOf
    [("namespace", .string c.session.namespaceName),
      ("default_page_size", .integer c.session.defaultPageSize.toNat),
      ("max_page_size", .integer c.session.maxPageSize.toNat),
      ("histogram_buckets", .integer c.session.histogramBuckets.toNat)])).reading :
      Except DecodeError SessionConfig) = .ok c.session := by
  rw [reading, entryReadings_eq_map]
  refine Layout.decode_own_members [⟨"namespace", _, Decoder.string, c.session.namespaceName⟩,
    ⟨"default_page_size", _, Decoder.size, c.session.defaultPageSize⟩,
    ⟨"max_page_size", _, Decoder.size, c.session.maxPageSize⟩,
    ⟨"histogram_buckets", _, Decoder.size, c.session.histogramBuckets⟩] rfl (by decide) ?_ ?_
  · exact .cons ⟨rfl, rfl⟩ (.cons ⟨rfl, Decoder.size_word _ _⟩ (.cons ⟨rfl, Decoder.size_word _ _⟩
      (.cons ⟨rfl, Decoder.size_word _ _⟩ .nil)))
  · intro ps h
    simp only [List.forall_mem_cons] at h
    obtain ⟨hname, hdefault, hmax, hbuckets, -⟩ := h
    rw [hname.defaulted, hdefault.defaulted, hmax.defaulted, hbuckets.defaulted]
    rfl

/-- A bound that is not set is not written, and read as not set. -/
theorem decode_cache : (decode .document (Toml.table false false (entriesOf
    (match c.cache.maxEntries with
      | some n => [("max_entries", .integer n.toNat)]
      | none => []))).reading : Except DecodeError CacheConfig) = .ok c.cache := by
  obtain ⟨api, session, ⟨maxEntries⟩, logging⟩ := c
  cases maxEntries with
  | none => rfl
  | some n =>
    rw [reading, entryReadings_eq_map]
    refine Layout.decode_own_members
      [⟨"max_entries", _, Decoder.optional Decoder.size, some n⟩] rfl (by decide) ?_ ?_
    · refine .cons ⟨rfl, ?_⟩ .nil
      exact congrArg (Except.map some) (Decoder.size_word .document n)
    · intro ps h
      rw [(h _ List.mem_cons_self).defaulted]
      rfl

theorem decode_logging : (decode .document (Toml.table false false (entriesOf
    [("level", .string c.logging.level)])).reading : Except DecodeError LoggingConfig) =
      .ok c.logging := by
  rw [reading, entryReadings_eq_map]
  refine Layout.decode_own_members [⟨"level", _, Decoder.string, c.logging.level⟩] rfl
    (by decide) (.cons ⟨rfl, rfl⟩ .nil) ?_
  intro ps h
  rw [(h _ List.mem_cons_self).defaulted]
  rfl

theorem decode_tables : (decode .document (Toml.table false false (c.tables.map tableOf)).reading :
    Except DecodeError Config) = .ok c := by
  rw [reading, entryReadings_eq_map]
  refine Layout.decode_own_members [⟨"api", _, decode, c.api⟩, ⟨"session", _, decode, c.session⟩,
    ⟨"cache", _, decode, c.cache⟩, ⟨"logging", _, decode, c.logging⟩] rfl (by decide) ?_ ?_
  · exact .cons ⟨rfl, decode_api c⟩ (.cons ⟨rfl, decode_session c⟩ (.cons ⟨rfl, decode_cache c⟩
      (.cons ⟨rfl, decode_logging c⟩ .nil)))
  · intro ps h
    simp only [List.forall_mem_cons] at h
    obtain ⟨hapi, hsession, hcache, hlogging, -⟩ := h
    rw [hapi.defaulted, hsession.defaulted, hcache.defaulted, hlogging.defaulted]
    rfl

/-- The settings are read back from their text. -/
theorem ofText?_text {text : String} (h : c.text? = some text) : ofText? text = some c := by
  obtain ⟨cs, hcs, rfl⟩ := Option.map_eq_some_iff.1 h
  have hdocument := ofText?_renderTables? c.isBareTable_of_mem_tables c.nodup_names_tables hcs
  change (Toml.ofText? (String.ofList cs)).bind _ = _
  rw [hdocument, Option.bind_some]
  exact congrArg Except.toOption (decode_tables c)

end Sections

/-- Saving writes all settings, so that loading the file gives them back, or leaves the file as it was.
The settings can be written if no number is too large for 64 bits with a sign. -/
theorem saved_settings_load (c : Config) (f : FileSlot) :
    (c.text?.isSome ↔ ∀ n ∈ c.integers, n.toNat ≤ 2 ^ 63 - 1) ∧
    ((∀ n ∈ c.integers, n.toNat ≤ 2 ^ 63 - 1) →
      (f.blocked = none →
        (c.save f).1 = .ok () ∧ (c.save f).2.path = f.path ∧ load (c.save f).2 = .ok c) ∧
      ∀ e, f.blocked = some e → c.save f = (.error (.file f.path e), f)) ∧
    (¬ (∀ n ∈ c.integers, n.toNat ≤ 2 ^ 63 - 1) →
      ∃ message, c.save f = (.error (.serialize message), f)) := by
  refine ⟨c.isSome_text?_iff, fun hfits => ?_, fun hlarge => ?_⟩
  · obtain ⟨text, htext⟩ := Option.isSome_iff_exists.1 (c.isSome_text?_iff.2 hfits)
    refine ⟨fun hfree => ?_, fun e hblocked => ?_⟩
    · have hsave : c.save f = (.ok (), { f with content := .ok text }) := by
        simp [save, htext, FileSlot.write, hfree, Except.mapError]
      have hload : load { f with content := .ok text } = .ok c := by
        unfold load ofFile
        simp [c.ofText?_text htext]
      rw [hsave]
      exact ⟨rfl, rfl, hload⟩
    · simp [save, htext, FileSlot.write, hblocked, Except.mapError]
  · rw [← c.isSome_text?_iff, Option.not_isSome_iff_eq_none] at hlarge
    unfold save
    rw [hlarge]
    exact ⟨_, rfl⟩

/-- Three quotes, a backslash, a line break and a control in one text, and the greatest bound. -/
def awkward : Config where
  api := { baseUrl := "\"\"\"\\\n\x01" }
  cache := { maxEntries := some 0x7fffffffffffffff }

theorem awkward_settings_load :
    let f : FileSlot := { path := "settings.toml", content := .ok "[api]" }
    (awkward.save f).1 = .ok () ∧ load (awkward.save f).2 = .ok awkward := by
  intro f
  obtain ⟨-, hsaved, -⟩ := saved_settings_load awkward f
  have hall : awkward.integers.all (·.toNat ≤ 2 ^ 63 - 1) = true := by decide +kernel
  have hfits : ∀ n ∈ awkward.integers, n.toNat ≤ 2 ^ 63 - 1 := by
    simpa only [List.all_eq_true, decide_eq_true_eq] using hall
  obtain ⟨hok, -, hload⟩ := (hsaved hfits).1 rfl
  exact ⟨hok, hload⟩

end LedgerExplorer.Config
