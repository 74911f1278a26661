import LedgerExplorer.Cache.Resolver
import LedgerExplorer.Http.Basic
import LedgerExplorer.Http.Target
import LedgerExplorer.Proofs.Text.Order
import LedgerExplorer.Proofs.Text.Percent
import LedgerExplorer.Token.Pool
import Mathlib.Data.List.TakeWhile

/-!
# What URLs address

A URL below a server is read as a path of segments, a query and a fragment (`Address`). The path ends
at the first `?` or `#`; its segments stand between slashes, may be percent-encoded, and those of one
or two dots lead on from what stands before them.

The URL of a lookup is put together from texts as they are. It addresses the entity of its id exactly
if these texts are plain (`Address.Plain`): the namespace and the id as single segments, the collection
as a row of them.
-/

namespace LedgerExplorer

open Text

/-- What a URL below a server addresses. -/
@[ext]
structure Address where
  segments : List (List UInt8)
  query : Option (List Char)
  fragment : Option (List Char)
  deriving DecidableEq

namespace Address

variable {c : Char} {cs : List Char} {done ss ts : List (List UInt8)} {s : List UInt8}

def isDots (s : List UInt8) : Bool :=
  s == bytes "." || s == bytes ".."

/-- Goes one segment further. -/
def walk (done : List (List UInt8)) (s : List UInt8) : List (List UInt8) :=
  if s = bytes "." then done
  else if s = bytes ".." then done.dropLast
  else done ++ [s]

/-- Where segments lead. At the end of a path dots leave an empty segment. -/
def resolve (ss : List (List UInt8)) : List (List UInt8) :=
  if ss.getLast?.any isDots then ss.foldl walk [] ++ [[]] else ss.foldl walk []

/-- The segments of a text as they are written. -/
def parts (cs : List Char) : List (List UInt8) :=
  (cs.splitOn '/').map percentDecode

def endsPath (c : Char) : Bool :=
  c == '?' || c == '#'

/-- What stands behind a character. -/
def behind (c : Char) (cs : List Char) : Option (List Char) :=
  match cs.dropWhile (· != c) with
  | [] => none
  | _ :: rest => some rest

/-- What the text behind a server addresses. Its path is empty or begins with a slash, before which
there is no segment. -/
def ofChars (cs : List Char) : Address where
  segments := resolve (parts (cs.takeWhile (!endsPath ·))).tail
  query := behind '?' (cs.takeWhile (· != '#'))
  fragment := behind '#' cs

/-- What a URL addresses at a server; nothing if the server does not end where the path begins. -/
def ofUrl? (server url : String) : Option Address :=
  (Target.after? server.toList url.toList).bind fun cs =>
    if cs.head?.all fun c => c == '/' || endsPath c then some (ofChars cs) else none

/-- A text that stands for itself as a segment of a path. -/
structure Plain (s : String) : Prop where
  undivided : ∀ c ∈ s.toList, c ≠ '/' ∧ endsPath c = false
  unescaped : hasEscape s.toList = false
  undotted : isDots (bytes s) = false

theorem Plain.slash_not_mem {t : String} (h : Plain t) : '/' ∉ t.toList :=
  fun hslash => (h.undivided '/' hslash).1 rfl

/-! ## Walking -/

theorem walk_of_not_isDots (h : isDots s = false) (done : List (List UInt8)) :
    walk done s = done ++ [s] := by
  simp only [isDots, Bool.or_eq_false_iff, beq_eq_false_iff_ne] at h
  rw [walk, if_neg h.1, if_neg h.2]

theorem length_walk (done : List (List UInt8)) (s : List UInt8) :
    (walk done s).length + (if isDots s then 1 else 0) ≤ done.length + 1 := by
  cases h : isDots s with
  | false => simp [walk_of_not_isDots h]
  | true =>
    have hshort : (walk done s).length ≤ done.length := by
      unfold walk
      split
      · exact Nat.le_refl _
      split
      · rw [List.length_dropLast]
        exact Nat.sub_le _ _
      · next hdot hdots => simp [isDots, hdot, hdots] at h
    simpa using hshort

theorem length_foldl_walk (ss done : List (List UInt8)) :
    (ss.foldl walk done).length + ss.countP isDots ≤ done.length + ss.length := by
  induction ss generalizing done with
  | nil => exact Nat.le_refl _
  | cons s ss ih =>
    have hfirst := length_walk done s
    have hrest := ih (walk done s)
    rw [List.foldl_cons, List.countP_cons, List.length_cons]
    omega

theorem foldl_walk_of_not_isDots (h : ∀ s ∈ ss, isDots s = false) (done : List (List UInt8)) :
    ss.foldl walk done = done ++ ss := by
  induction ss generalizing done with
  | nil => exact (List.append_nil done).symm
  | cons s ss ih =>
    obtain ⟨hs, hss⟩ := List.forall_mem_cons.1 h
    rw [List.foldl_cons, walk_of_not_isDots hs, ih hss, List.append_assoc, List.singleton_append]

/-- Segments lead to a path that is longer by as many only if they are no dots. -/
theorem foldl_walk_eq_append_iff (hlen : ts.length = ss.length) :
    ss.foldl walk done = done ++ ts ↔ ss = ts ∧ ∀ s ∈ ss, isDots s = false := by
  constructor
  · intro h
    have hcount := length_foldl_walk ss done
    rw [h, List.length_append, hlen] at hcount
    have hzero : ss.countP isDots = 0 := by omega
    have hdots : ∀ s ∈ ss, isDots s = false := by
      intro s hs
      exact Bool.eq_false_iff.2 (List.countP_eq_zero.1 hzero s hs)
    rw [foldl_walk_of_not_isDots hdots] at h
    exact ⟨List.append_cancel_left h, hdots⟩
  · rintro ⟨rfl, hdots⟩
    exact foldl_walk_of_not_isDots hdots done

/-- A path ends in a text that is not empty only if its last segment is that text and no dots. -/
theorem resolve_concat_eq_iff {last : List UInt8} (hlast : last ≠ []) :
    resolve (ss ++ [s]) = ts ++ [last] ↔
      ss.foldl walk [] = ts ∧ s = last ∧ isDots s = false := by
  rw [resolve, List.getLast?_concat]
  change (if isDots s then _ else _) = _ ↔ _
  cases h : isDots s with
  | false =>
    rw [List.foldl_concat, walk_of_not_isDots h, if_neg Bool.false_ne_true,
      List.append_singleton_inj, and_iff_left rfl]
  | true =>
    refine iff_of_false (fun heq => ?_) (by simp)
    exact hlast (List.append_singleton_inj.1 heq).2.symm

/-! ## Reading a text in parts -/

theorem bytes_injective : Function.Injective bytes := by
  intro t t' h
  rw [bytes_eq_flatMap, bytes_eq_flatMap] at h
  exact String.toList_injective (flatMap_utf8EncodeChar_injective h)

theorem bytes_ne_nil {t : String} (h : t ≠ "") : bytes t ≠ [] := fun hnil => h (bytes_injective hnil)

/-- A text is read as itself, and as a segment of its own, only if it holds no escape and is no dots. -/
theorem reads_as_itself_iff (t : String) :
    percentDecode t.toList = bytes t ∧ isDots (percentDecode t.toList) = false ↔
      hasEscape t.toList = false ∧ isDots (bytes t) = false := by
  rw [bytes_eq_flatMap]
  rcases percentDecode_spec t.toList with ⟨hescape, heq⟩ | ⟨hescape, hlt⟩
  · rw [heq]
    exact and_congr_left fun _ => iff_of_true rfl hescape
  · refine iff_of_false (fun h => ?_) (by simp [hescape])
    rw [h.1] at hlt
    exact Nat.lt_irrefl _ hlt

theorem parts_append_cons (cs cs' : List Char) :
    parts (cs ++ '/' :: cs') = parts cs ++ parts cs' := by
  rw [parts, List.splitOn_append_cons_self, List.map_append]
  rfl

theorem parts_of_undivided (h : '/' ∉ cs) : parts cs = [percentDecode cs] := by
  rw [parts, List.splitOn_eq_singleton h]
  rfl

theorem parts_ne_nil (cs : List Char) : parts cs ≠ [] :=
  mt List.map_eq_nil_iff.1 (List.splitOn_ne_nil '/' cs)

/-- A text ends in what stands behind its last slash, which is shorter. -/
theorem parts_of_divided (h : '/' ∈ cs) :
    ∃ ss s, parts cs = ss ++ [s] ∧ s.length < (cs.flatMap String.utf8EncodeChar).length := by
  obtain ⟨back, front, hrev, hback⟩ := List.eq_append_cons_of_mem (List.mem_reverse.2 h)
  have hcs : cs = front.reverse ++ '/' :: back.reverse := by
    rw [← List.reverse_reverse cs, hrev]
    simp
  have hundivided : '/' ∉ back.reverse := mt List.mem_reverse.1 hback
  refine ⟨parts front.reverse, percentDecode back.reverse, ?_, ?_⟩
  · rw [hcs, parts_append_cons, parts_of_undivided hundivided]
  · have hle := length_percentDecode_le back.reverse
    have hslash : 0 < (String.utf8EncodeChar '/').length := by decide
    rw [hcs, List.flatMap_append, List.flatMap_cons, List.length_append, List.length_append]
    omega

/-- Behind a path a text leads to one more segment, which is the text, only if it is plain. -/
theorem resolve_append_parts_iff {id : String} (hid : id ≠ "") :
    resolve (ss ++ parts id.toList) = ts ++ [bytes id] ↔
      ss.foldl walk [] = ts ∧ '/' ∉ id.toList ∧ hasEscape id.toList = false ∧
        isDots (bytes id) = false := by
  have hne : bytes id ≠ [] := bytes_ne_nil hid
  by_cases hslash : '/' ∈ id.toList
  · -- the last segment is shorter than the text
    obtain ⟨front, s, hparts, hshort⟩ := parts_of_divided hslash
    refine iff_of_false (fun h => ?_) fun h => h.2.1 hslash
    rw [hparts, ← List.append_assoc, resolve_concat_eq_iff hne] at h
    rw [h.2.1, bytes_eq_flatMap] at hshort
    exact Nat.lt_irrefl _ hshort
  · rw [parts_of_undivided hslash, resolve_concat_eq_iff hne, reads_as_itself_iff,
      and_iff_right hslash]

theorem behind_eq_none_iff : behind c cs = none ↔ c ∉ cs := by
  have hall : cs.dropWhile (· != c) = [] ↔ c ∉ cs := by
    rw [List.dropWhile_eq_nil_iff]
    constructor
    · intro h hc
      simpa using h c hc
    · rintro h x hx
      exact bne_iff_ne.2 fun heq => h (heq ▸ hx)
  rw [← hall, behind]
  split
  · next hnil => exact iff_of_true rfl hnil
  · next hcons => exact iff_of_false (by simp) (by simp [hcons])

/-- A text has neither a query nor a fragment only if nothing ends its path. -/
theorem ofChars_bare_iff :
    (ofChars cs).query = none ∧ (ofChars cs).fragment = none ↔ ∀ c ∈ cs, endsPath c = false := by
  have hends : (∀ c ∈ cs, endsPath c = false) ↔ '?' ∉ cs ∧ '#' ∉ cs := by
    constructor
    · intro h
      exact ⟨fun hc => by simpa [endsPath] using h _ hc, fun hc => by simpa [endsPath] using h _ hc⟩
    · rintro ⟨hquery, hfragment⟩ c hc
      have hq : c ≠ '?' := fun heq => hquery (heq ▸ hc)
      have hf : c ≠ '#' := fun heq => hfragment (heq ▸ hc)
      simp [endsPath, hq, hf]
  rw [hends]
  change behind '?' (cs.takeWhile (· != '#')) = none ∧ behind '#' cs = none ↔ _
  rw [behind_eq_none_iff, behind_eq_none_iff]
  refine and_congr_left fun hfragment => ?_
  have hall : cs.takeWhile (· != '#') = cs :=
    List.takeWhile_eq_self_iff.2 fun c hc => bne_iff_ne.2 fun heq => hfragment (heq ▸ hc)
  rw [hall]

theorem segments_ofChars (h : ∀ c ∈ cs, endsPath c = false) :
    (ofChars cs).segments = resolve (parts cs).tail := by
  have hall : cs.takeWhile (!endsPath ·) = cs :=
    List.takeWhile_eq_self_iff.2 fun c hc => by rw [h c hc]; rfl
  rw [ofChars, hall]

/-- What ends a path hides everything behind it. -/
theorem segments_ofChars_append (h : endsPath c) (cs rest : List Char) :
    (ofChars (cs ++ c :: rest)).segments = (ofChars cs).segments := by
  have hpath : (cs ++ c :: rest).takeWhile (!endsPath ·) = cs.takeWhile (!endsPath ·) := by
    induction cs with
    | nil => simp [h]
    | cons x cs ih =>
      rw [List.cons_append, List.takeWhile_cons, List.takeWhile_cons, ih]
  rw [ofChars, ofChars, hpath]

/-! ## Lookups -/

variable {E : Type} {source : HttpSource} {server base namespaceName collection id : String}

/-- What the URL of a lookup says behind the server. -/
def lookupTarget (base namespaceName collection id : String) : List Char :=
  base.toList ++ '/' :: ("namespaces".toList ++ '/' :: (namespaceName.toList ++
    '/' :: ((trimSlashes collection).toList ++ '/' :: id.toList)))

/-- The entity of an id in a collection: its segment comes behind those of the base, of the namespace
and of the collection. -/
def ofEntity (base namespaceName collection id : String) : Address where
  segments := (parts base.toList).tail.foldl walk [] ++
    (bytes "namespaces" :: bytes namespaceName :: parts (trimSlashes collection).toList) ++ [bytes id]
  query := none
  fragment := none

/-- What the URL that a source requests for the lookup of an id addresses. -/
def ofLookup? (source : HttpSource) (server : String) (directory : Directory E) (id : String) :
    Option Address :=
  ofUrl? server (source.url (directory.path id) "")

theorem after?_append (front cs : List Char) : Target.after? front (front ++ cs) = some cs := by
  induction front with
  | nil => rfl
  | cons c front ih => rw [List.cons_append, Target.after?, if_pos rfl, ih]

theorem path_ofCollection (namespaceName collection : String) (d : Decoder E) (id : String) :
    (Directory.ofCollection namespaceName collection d).path id =
      "/namespaces/" ++ namespaceName ++ "/" ++ trimSlashes collection ++ "/" ++ id := rfl

theorem ofLookup?_eq (hsource : source.baseUrl = server ++ base)
    (hbase : base.toList.head?.all (· == '/')) (d : Decoder E) (id : String) :
    ofLookup? source server (Directory.ofCollection namespaceName collection d) id =
      some (ofChars (lookupTarget base namespaceName collection id)) := by
  have hurl : (source.url ((Directory.ofCollection namespaceName collection d).path id) "").toList =
      server.toList ++ lookupTarget base namespaceName collection id := by
    have hname : "/namespaces/".toList = '/' :: ("namespaces".toList ++ ['/']) := by decide
    have hslash : "/".toList = ['/'] := by decide
    rw [HttpSource.url, if_pos rfl, hsource, path_ofCollection]
    simp only [lookupTarget, String.toList_append, hname, hslash, List.append_assoc,
      List.cons_append, List.nil_append]
  have hopens : (lookupTarget base namespaceName collection id).head?.all
      fun c => c == '/' || endsPath c := by
    unfold lookupTarget
    cases hcs : base.toList with
    | nil => rfl
    | cons c cs =>
      rw [hcs] at hbase
      have hc : (c == '/') = true := hbase
      simp [hc]
  rw [ofLookup?, ofUrl?, hurl, after?_append, Option.bind_some, if_pos hopens]

theorem parts_lookupTarget (hns : '/' ∉ namespaceName.toList) :
    (parts (lookupTarget base namespaceName collection id)).tail =
      (parts base.toList).tail ++ (bytes "namespaces" :: percentDecode namespaceName.toList ::
        parts (trimSlashes collection).toList) ++ parts id.toList := by
  have hname : parts "namespaces".toList = [bytes "namespaces"] := by decide
  rw [lookupTarget, parts_append_cons, parts_append_cons, parts_append_cons, parts_append_cons, hname,
    parts_of_undivided hns, List.tail_append_of_ne_nil (parts_ne_nil _)]
  simp

theorem lookupTarget_open_iff (hns : ∀ c ∈ namespaceName.toList, endsPath c = false) :
    (∀ c ∈ lookupTarget base namespaceName collection id, endsPath c = false) ↔
      (∀ c ∈ base.toList ++ (trimSlashes collection).toList, endsPath c = false) ∧
        ∀ c ∈ id.toList, endsPath c = false := by
  have hslash : endsPath '/' = false := rfl
  have hname : ∀ c ∈ "namespaces".toList, endsPath c = false := by simp [endsPath]
  simp only [lookupTarget, List.forall_mem_append, List.forall_mem_cons, iff_true_intro hname,
    iff_true_intro hns, hslash, true_and, and_assoc]

theorem segments_lookupTarget_iff (hns : '/' ∉ namespaceName.toList) (hid : id ≠ "")
    (hopen : ∀ c ∈ lookupTarget base namespaceName collection id, endsPath c = false) :
    (ofChars (lookupTarget base namespaceName collection id)).segments =
        (ofEntity base namespaceName collection id).segments ↔
      (hasEscape namespaceName.toList = false ∧ isDots (bytes namespaceName) = false ∧
        ∀ s ∈ parts (trimSlashes collection).toList, isDots s = false) ∧
      '/' ∉ id.toList ∧ hasEscape id.toList = false ∧ isDots (bytes id) = false := by
  have hname : isDots (bytes "namespaces") = false := by decide
  rw [segments_ofChars hopen, parts_lookupTarget hns, ofEntity, resolve_append_parts_iff hid,
    List.foldl_append, foldl_walk_eq_append_iff (by rfl)]
  refine and_congr_left fun _ => ?_
  rw [List.forall_mem_cons, List.forall_mem_cons, List.cons_inj_right, List.cons_eq_cons,
    and_iff_left rfl, and_iff_right hname, ← and_assoc, reads_as_itself_iff, and_assoc]

theorem segments_lookupTarget_of_plain (hns : '/' ∉ namespaceName.toList) (hid : id ≠ "")
    (hplain : Plain id)
    (hopen : ∀ c ∈ lookupTarget base namespaceName collection id, endsPath c = false) :
    (ofChars (lookupTarget base namespaceName collection id)).segments =
      ((parts base.toList).tail ++ (bytes "namespaces" :: percentDecode namespaceName.toList ::
        parts (trimSlashes collection).toList)).foldl walk [] ++ [bytes id] := by
  rw [segments_ofChars hopen, parts_lookupTarget hns, resolve_append_parts_iff hid]
  exact ⟨rfl, hplain.slash_not_mem, hplain.unescaped, hplain.undotted⟩

/-- A lookup addresses the entity of its id exactly if the texts that its URL is made of are plain. So
different plain ids address different entities, but whatever stands behind a `?` or `#` in an id does
not tell it from other ids. -/
theorem lookup_addresses_entity_iff (hsource : source.baseUrl = server ++ base)
    (hbase : base.toList.head?.all (· == '/'))
    (hns : ∀ c ∈ namespaceName.toList, c ≠ '/' ∧ endsPath c = false) (hid : id ≠ "")
    (collection : String) (d : Decoder E) :
    let directory := Directory.ofCollection namespaceName collection d
    (ofLookup? source server directory id =
        some (ofEntity base namespaceName collection id) ↔
      (∀ c ∈ base.toList ++ (trimSlashes collection).toList, endsPath c = false) ∧
        (∀ s ∈ parts (trimSlashes collection).toList, isDots s = false) ∧
        Plain namespaceName ∧ Plain id) ∧
    (∀ id', id' ≠ "" → Plain id → Plain id' →
      (∀ c ∈ base.toList ++ (trimSlashes collection).toList, endsPath c = false) →
      ofLookup? source server directory id = ofLookup? source server directory id' → id = id') ∧
    ∀ c rest, endsPath c →
      (ofLookup? source server directory (id ++ String.ofList (c :: rest))).map segments =
        (ofLookup? source server directory id).map segments := by
  have hslash : '/' ∉ namespaceName.toList := fun h => (hns '/' h).1 rfl
  intro directory
  refine ⟨?_, ?_, ?_⟩
  · rw [ofLookup?_eq hsource hbase, Option.some_inj, Address.ext_iff]
    change _ ∧ (ofChars _).query = none ∧ (ofChars _).fragment = none ↔ _
    rw [ofChars_bare_iff, and_congr_left fun hopen => segments_lookupTarget_iff hslash hid hopen,
      lookupTarget_open_iff fun c hc => (hns c hc).2]
    constructor
    · rintro ⟨⟨⟨hescape, hdots, hcollection⟩, hundivided, hescape', hdots'⟩, hopen, hopen'⟩
      have hplain : ∀ c ∈ id.toList, c ≠ '/' ∧ endsPath c = false :=
        fun c hc => ⟨fun heq => hundivided (heq ▸ hc), hopen' c hc⟩
      exact ⟨hopen, hcollection, ⟨hns, hescape, hdots⟩, ⟨hplain, hescape', hdots'⟩⟩
    · rintro ⟨hopen, hcollection, hnamespace, hplain⟩
      exact ⟨⟨⟨hnamespace.unescaped, hnamespace.undotted, hcollection⟩, hplain.slash_not_mem,
        hplain.unescaped, hplain.undotted⟩, hopen, fun c hc => (hplain.undivided c hc).2⟩
  · intro id' hid' hplain hplain' hopen heq
    have hsegments {id : String} (hid : id ≠ "") (hplain : Plain id) :=
      segments_lookupTarget_of_plain hslash hid hplain
        ((lookupTarget_open_iff fun c hc => (hns c hc).2).2
          ⟨hopen, fun c hc => (hplain.undivided c hc).2⟩)
    rw [ofLookup?_eq hsource hbase, ofLookup?_eq hsource hbase, Option.some_inj] at heq
    have hlast := congrArg segments heq
    rw [hsegments hid hplain, hsegments hid' hplain', List.append_cancel_left_eq] at hlast
    exact bytes_injective (List.singleton_inj.1 hlast)
  · intro c rest hc
    have htarget : lookupTarget base namespaceName collection (id ++ String.ofList (c :: rest)) =
        lookupTarget base namespaceName collection id ++ c :: rest := by
      simp [lookupTarget]
    rw [ofLookup?_eq hsource hbase, ofLookup?_eq hsource hbase, Option.map_some, Option.map_some,
      htarget, segments_ofChars_append hc]

/-- Plain ids address their entities. An id with a question mark addresses that of another id. -/
theorem question_mark_addresses_other_entity :
    let source := HttpSource.ofBase "http://ledger.example/api/"
    let directory : Directory TokenPool := .ofCollection "default" "/tokens/pools/" decode
    ofLookup? source "http://ledger.example" directory "p1" =
        some (ofEntity "/api" "default" "/tokens/pools/" "p1") ∧
      ofLookup? source "http://ledger.example" directory "p1" ≠
        ofLookup? source "http://ledger.example" directory "p1x" ∧
      ofLookup? source "http://ledger.example" directory "p1?x" ≠
        some (ofEntity "/api" "default" "/tokens/pools/" "p1?x") ∧
      (ofLookup? source "http://ledger.example" directory "p1?x").map segments =
        some (ofEntity "/api" "default" "/tokens/pools/" "p1").segments := by
  intro source directory
  have hsource : source.baseUrl = "http://ledger.example" ++ "/api" := by decide
  have hnamespace : Plain "default" := ⟨by simp [endsPath], by decide, by decide⟩
  have hid : Plain "p1" := ⟨by simp [endsPath], by decide, by decide⟩
  have hid' : Plain "p1x" := ⟨by simp [endsPath], by decide, by decide⟩
  have hcollection : trimSlashes "/tokens/pools/" = "tokens/pools" := by decide
  have hopen : ∀ c ∈ "/api".toList ++ (trimSlashes "/tokens/pools/").toList, endsPath c = false := by
    simp [hcollection, endsPath]
  obtain ⟨hentity, hdiffer, hhidden⟩ := lookup_addresses_entity_iff hsource (by decide)
    hnamespace.undivided (by decide : "p1" ≠ "") "/tokens/pools/" (decode : Decoder TokenPool)
  obtain ⟨hother, -⟩ := lookup_addresses_entity_iff hsource (by decide) hnamespace.undivided
    (by decide : "p1?x" ≠ "") "/tokens/pools/" (decode : Decoder TokenPool)
  have haddress := hentity.2 ⟨hopen, by decide, hnamespace, hid⟩
  refine ⟨haddress, fun h => ?_, fun h => ?_, ?_⟩
  · exact absurd (hdiffer "p1x" (by decide) hid hid' hopen h) (by decide)
  · obtain ⟨-, -, -, hplain⟩ := hother.1 h
    exact absurd (hplain.undivided '?' (by decide)).2 (by decide)
  · calc
      (ofLookup? source "http://ledger.example" directory "p1?x").map segments
        = (ofLookup? source "http://ledger.example" directory "p1").map segments :=
          hhidden '?' ['x'] rfl
      _ = _ := congrArg (Option.map segments) haddress

end Address

end LedgerExplorer
