import LedgerExplorer.Histogram.Category
import LedgerExplorer.Histogram.Sample
import LedgerExplorer.Page.Query
import LedgerExplorer.Proofs.Json.Shapes
import LedgerExplorer.Token.Pool
import LedgerExplorer.Token.Transfer
import Mathlib.Logic.Relation

/-!
# Wire types read back

Every value of a wire type is decoded from what it is written as, also when members of other names
have been put into any of its records. The shape of a type is put together from those of its fields;
only queries and samples have fields that are not scalars.
-/

namespace LedgerExplorer

namespace Shape

/-! ### Scalars -/

theorem reads_string (s : String) : scalar.Reads Decoder.string (.string s) s :=
  reads_scalar rfl rfl

theorem reads_bool (b : Bool) : scalar.Reads Decoder.bool (.bool b) b :=
  reads_scalar rfl rfl

theorem reads_size (n : UInt64) : scalar.Reads Decoder.size (encode n) n :=
  reads_scalar rfl (Decoder.size_word .value n)

theorem reads_short (n : UInt32) : scalar.Reads Decoder.short (.natural n.toNat) n := by
  apply reads_scalar rfl
  change (Decoder.unsigned .short .value (.number (some (.integer n.toNat)))).map _ = _
  rw [Decoder.unsigned_natural .short _ (Nat.le_sub_one_of_lt n.toNat_lt), Except.map,
    UInt32.ofNat_toNat]

theorem reads_count (n : UInt64) : scalar.Reads Decoder.count (encode n) n := by
  apply reads_scalar rfl
  have hfits : (0 : Int) ≤ n.toNat ∧ (n.toNat : Int) ≤ Unsigned.long.max :=
    ⟨Int.natCast_nonneg _, Int.ofNat_le.2 (Text.toNat_le_maxWord n)⟩
  have hcount : Decoder.count .value (encode n : Json).reading =
      if (0 : Int) ≤ n.toNat ∧ (n.toNat : Int) ≤ Unsigned.long.max then
        .ok (UInt64.ofNat (n.toNat : Int).toNat) else .error .noCount := rfl
  rw [hcount, if_pos hfits, Int.toNat_natCast, UInt64.ofNat_toNat]

/-- A value that is written as a string is told from a missing one. -/
theorem reads_optional {α : Type} {d : Decoder α} {f : α → String}
    (h : ∀ x, scalar.Reads d (.string (f x)) x) (o : Option α) :
    scalar.Reads (Decoder.optional d) (Json.optional (fun x => .string (f x)) o) o := by
  cases o with
  | none => exact reads_scalar rfl rfl
  | some x =>
    apply reads_scalar rfl
    have hread : d .value (.string (some (f x))) = .ok x := (h x).widened _ ⟨rfl, rfl⟩
    change (d .value (.string (some (f x)))).map some = _
    rw [hread]
    rfl

end Shape

open Shape

theorem Operator.reads_encode (op : Operator) : scalar.Reads decode (encode op) op :=
  reads_scalar rfl (by cases op <;> rfl)

theorem DateRange.reads_encode (r : DateRange) : scalar.Reads decode (encode r) r :=
  reads_scalar rfl (by cases r <;> rfl)

namespace FilterDraft

def shape : Shape := .flat layout

theorem reads_encode (d : FilterDraft) : shape.Reads decode (encode d) d := by
  refine reads_record [⟨"field", _, Decoder.string, d.field⟩,
    ⟨"operator", _, decode, d.operator⟩, ⟨"value", _, Decoder.string, d.value⟩,
    ⟨"negate", _, Decoder.bool, d.negate⟩,
    ⟨"caseInsensitive", _, Decoder.bool, d.caseInsensitive⟩] rfl (by decide) ?_ ?_
  · exact .cons ⟨rfl, reads_string _⟩ (.cons ⟨rfl, d.operator.reads_encode⟩
      (.cons ⟨rfl, reads_string _⟩ (.cons ⟨rfl, reads_bool _⟩ (.cons ⟨rfl, reads_bool _⟩ .nil))))
  · intro ps h
    simp only [List.forall_mem_cons] at h
    obtain ⟨hfield, hoperator, hvalue, hnegate, hcase, -⟩ := h
    rw [hfield.required, hoperator.required, hvalue.required, hnegate.defaulted, hcase.defaulted]
    rfl

end FilterDraft

namespace FilterToken

def shape : Shape := .scalar

theorem reads_encode (t : FilterToken) : shape.Reads decode (encode t) t :=
  reads_scalar rfl rfl

end FilterToken

namespace PageQuery

def shape : Shape :=
  .record layout fun name => if name = "filters" then .list FilterDraft.shape else .scalar

theorem reads_encode (q : PageQuery) : shape.Reads decode (encode q) q := by
  refine reads_record [⟨"entityPath", _, Decoder.string, q.entityPath⟩,
    ⟨"filters", _, decode, q.filters⟩, ⟨"dateRange", _, decode, q.dateRange⟩,
    ⟨"offset", _, Decoder.size, q.offset⟩, ⟨"limit", _, Decoder.size, q.limit⟩]
    rfl (by decide) ?_ ?_
  · exact .cons ⟨rfl, reads_string _⟩ (.cons ⟨rfl, reads_list FilterDraft.reads_encode _⟩
      (.cons ⟨rfl, reads_optional DateRange.reads_encode _⟩ (.cons ⟨rfl, reads_size _⟩
      (.cons ⟨rfl, reads_size _⟩ .nil))))
  · intro ps h
    simp only [List.forall_mem_cons] at h
    obtain ⟨hpath, hfilters, hrange, hoffset, hlimit, -⟩ := h
    rw [hpath.required, hfilters.defaulted, hrange.defaulted, hoffset.defaulted, hlimit.required]
    rfl

end PageQuery

namespace TypeCount

def shape : Shape := .flat layout

theorem reads_encode (t : TypeCount) : shape.Reads decode (encode t) t := by
  refine reads_record [⟨"type", _, Decoder.string, t.type⟩,
    ⟨"count", _, Decoder.count, t.count⟩] rfl (by decide) ?_ ?_
  · exact .cons ⟨rfl, reads_string _⟩ (.cons ⟨rfl, reads_count _⟩ .nil)
  · intro ps h
    simp only [List.forall_mem_cons] at h
    obtain ⟨htype, hcount, -⟩ := h
    rw [htype.required, hcount.required]
    rfl

end TypeCount

namespace MetricSample

def shape : Shape :=
  .record layout fun name => if name = "types" then .list TypeCount.shape else .scalar

theorem reads_encode (s : MetricSample) : shape.Reads decode (encode s) s := by
  refine reads_record [⟨"timestamp", _, Decoder.string, s.timestamp⟩,
    ⟨"types", _, decode, s.types⟩] rfl (by decide) ?_ ?_
  · exact .cons ⟨rfl, reads_string _⟩ (.cons ⟨rfl, reads_list TypeCount.reads_encode _⟩ .nil)
  · intro ps h
    simp only [List.forall_mem_cons] at h
    obtain ⟨htimestamp, htypes, -⟩ := h
    rw [htimestamp.required, htypes.defaulted]
    rfl

end MetricSample

namespace CategorySpec

def shape : Shape := .flat layout

theorem reads_encode (s : CategorySpec) : shape.Reads decode (encode s) s := by
  refine reads_record [⟨"category", _, Decoder.string, s.category⟩,
    ⟨"color", _, Decoder.string, s.color⟩, ⟨"nicename", _, Decoder.string, s.nicename⟩]
    rfl (by decide) ?_ ?_
  · exact .cons ⟨rfl, reads_string _⟩ (.cons ⟨rfl, reads_string _⟩
      (.cons ⟨rfl, reads_string _⟩ .nil))
  · intro ps h
    simp only [List.forall_mem_cons] at h
    obtain ⟨hcategory, hcolor, hnicename, -⟩ := h
    rw [hcategory.required, hcolor.defaulted, hnicename.defaulted]
    rfl

end CategorySpec

namespace CategoryMap

def shape : Shape := .dict CategorySpec.shape

theorem reads_encode (m : CategoryMap) : shape.Reads decode (encode m) m := by
  have htypes : shape.Reads (Decoder.dict decode) (encode m) m.types :=
    reads_dict CategorySpec.reads_encode m.types
  refine ⟨htypes.self, fun w hw => ?_⟩
  exact congrArg (Except.map CategoryMap.mk) (htypes.widened w hw)

end CategoryMap

namespace LegendEntry

def shape : Shape := .flat layout

theorem reads_encode (e : LegendEntry) : shape.Reads decode (encode e) e := by
  refine reads_record [⟨"category", _, Decoder.string, e.category⟩,
    ⟨"color", _, Decoder.string, e.color⟩, ⟨"nicename", _, Decoder.string, e.nicename⟩]
    rfl (by decide) ?_ ?_
  · exact .cons ⟨rfl, reads_string _⟩ (.cons ⟨rfl, reads_string _⟩
      (.cons ⟨rfl, reads_string _⟩ .nil))
  · intro ps h
    simp only [List.forall_mem_cons] at h
    obtain ⟨hcategory, hcolor, hnicename, -⟩ := h
    rw [hcategory.required, hcolor.required, hnicename.required]
    rfl

end LegendEntry

namespace TokenPool

def shape : Shape := .flat layout

theorem reads_encode (p : TokenPool) : shape.Reads decode (encode p) p := by
  refine reads_record [⟨"id", _, Decoder.string, p.id⟩, ⟨"name", _, Decoder.string, p.name⟩,
    ⟨"symbol", _, Decoder.optional Decoder.string, p.symbol⟩,
    ⟨"type", _, Decoder.optional Decoder.string, p.type⟩,
    ⟨"standard", _, Decoder.optional Decoder.string, p.standard⟩,
    ⟨"connector", _, Decoder.optional Decoder.string, p.connector⟩,
    ⟨"decimals", _, Decoder.short, p.decimals⟩,
    ⟨"created", _, Decoder.optional Decoder.string, p.created⟩] rfl (by decide) ?_ ?_
  · exact .cons ⟨rfl, reads_string _⟩ (.cons ⟨rfl, reads_string _⟩
      (.cons ⟨rfl, reads_optional reads_string _⟩ (.cons ⟨rfl, reads_optional reads_string _⟩
      (.cons ⟨rfl, reads_optional reads_string _⟩ (.cons ⟨rfl, reads_optional reads_string _⟩
      (.cons ⟨rfl, reads_short _⟩ (.cons ⟨rfl, reads_optional reads_string _⟩ .nil)))))))
  · intro ps h
    simp only [List.forall_mem_cons] at h
    obtain ⟨hid, hname, hsymbol, htype, hstandard, hconnector, hdecimals, hcreated, -⟩ := h
    rw [hid.required, hname.required, hsymbol.defaulted, htype.defaulted, hstandard.defaulted,
      hconnector.defaulted, hdecimals.defaulted, hcreated.defaulted]
    rfl

end TokenPool

namespace TokenTransfer

def shape : Shape := .flat layout

theorem reads_encode (t : TokenTransfer) : shape.Reads decode (encode t) t := by
  refine reads_record [⟨"localId", _, Decoder.string, t.localId⟩,
    ⟨"type", _, Decoder.string, t.type⟩, ⟨"pool", _, Decoder.string, t.pool⟩,
    ⟨"amount", _, Decoder.string, t.amount⟩,
    ⟨"from", _, Decoder.optional Decoder.string, t.source⟩,
    ⟨"to", _, Decoder.optional Decoder.string, t.target⟩,
    ⟨"key", _, Decoder.optional Decoder.string, t.key⟩,
    ⟨"created", _, Decoder.optional Decoder.string, t.created⟩] rfl (by decide) ?_ ?_
  · exact .cons ⟨rfl, reads_string _⟩ (.cons ⟨rfl, reads_string _⟩ (.cons ⟨rfl, reads_string _⟩
      (.cons ⟨rfl, reads_string _⟩ (.cons ⟨rfl, reads_optional reads_string _⟩
      (.cons ⟨rfl, reads_optional reads_string _⟩ (.cons ⟨rfl, reads_optional reads_string _⟩
      (.cons ⟨rfl, reads_optional reads_string _⟩ .nil)))))))
  · intro ps h
    simp only [List.forall_mem_cons] at h
    obtain ⟨hid, htype, hpool, hamount, hsource, htarget, hkey, hcreated, -⟩ := h
    rw [hid.required, htype.required, hpool.required, hamount.required, hsource.defaulted,
      htarget.defaulted, hkey.defaulted, hcreated.defaulted]
    rfl

end TokenTransfer

namespace Shape

/-- Every value of a type is decoded from what it is written as, whatever has been put into that, and
also if the members have been sorted since. -/
def Recovers (s : Shape) (α : Type) [Encode α] [Decode α] : Prop :=
  ∀ (x : α) (w : Json), Relation.ReflTransGen s.Inserts (encode x) w →
    Json.decodeAs decode w = .ok x ∧ Json.decodeAs decode w.canonical = .ok x

theorem Reads.recovers {s : Shape} {α : Type} [Encode α] [Decode α]
    (h : ∀ x : α, s.Reads decode (encode x) x) : s.Recovers α := by
  intro x w hinserts
  have hwidens : s.Widens (encode x) w := by
    induction hinserts with
    | refl => exact (h x).self
    | tail _ hlast ih => exact ih.insert hlast
  exact ⟨(h x).widened w hwidens, (h x).widened _ hwidens.canonical⟩

/-- Decoding undoes encoding for every wire type, whatever members of other names are put into its
records. -/
theorem wire_types_recovered :
    FilterDraft.shape.Recovers FilterDraft ∧ FilterToken.shape.Recovers FilterToken ∧
    PageQuery.shape.Recovers PageQuery ∧ TypeCount.shape.Recovers TypeCount ∧
    MetricSample.shape.Recovers MetricSample ∧ CategorySpec.shape.Recovers CategorySpec ∧
    CategoryMap.shape.Recovers CategoryMap ∧ LegendEntry.shape.Recovers LegendEntry ∧
    TokenPool.shape.Recovers TokenPool ∧ TokenTransfer.shape.Recovers TokenTransfer := by
  refine ⟨?_, ?_, ?_, ?_, ?_, ?_, ?_, ?_, ?_, ?_⟩
  · exact Reads.recovers FilterDraft.reads_encode
  · exact Reads.recovers FilterToken.reads_encode
  · exact Reads.recovers PageQuery.reads_encode
  · exact Reads.recovers TypeCount.reads_encode
  · exact Reads.recovers MetricSample.reads_encode
  · exact Reads.recovers CategorySpec.reads_encode
  · exact Reads.recovers CategoryMap.reads_encode
  · exact Reads.recovers LegendEntry.reads_encode
  · exact Reads.recovers TokenPool.reads_encode
  · exact Reads.recovers TokenTransfer.reads_encode

end Shape

end LedgerExplorer
