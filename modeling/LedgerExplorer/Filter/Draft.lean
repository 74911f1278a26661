import LedgerExplorer.Filter.Operator
import LedgerExplorer.Text.Percent

/-!
# Filters

A draft is one condition as a user puts it together. It compiles into a token
`field=[!][:]<symbol>value`, where `!` negates and `:` makes the comparison blind to case; an operator
without modifiers ignores both flags. The tokens of a set are joined into a fragment, each behind a
separator, which stands for their conjunction.
-/

namespace LedgerExplorer

structure FilterDraft where
  field : String
  operator : Operator
  value : String
  negate : Bool := false
  caseInsensitive : Bool := false
  deriving DecidableEq, Repr

/-- A condition in the form in which it is sent. -/
structure FilterToken where
  text : String
  deriving DecidableEq, Repr

namespace FilterDraft

/-- Changes the operator and drops the modifiers that the new one does not have. -/
def setOperator (d : FilterDraft) (op : Operator) : FilterDraft :=
  if op.hasModifiers then { d with operator := op }
  else { d with operator := op, negate := false, caseInsensitive := false }

/-- The marks of the modifiers, as far as the operator has them. -/
def marks (d : FilterDraft) : String :=
  if d.operator.hasModifiers then
    (if d.negate then "!" else "") ++ (if d.caseInsensitive then ":" else "")
  else ""

/-- The token of a draft with the value written as given. -/
def tokenWith (d : FilterDraft) (value : String) : FilterToken :=
  ⟨d.field ++ "=" ++ d.marks ++ d.operator.symbol ++ value⟩

/-- The token with the value as it is. -/
def compile (d : FilterDraft) : FilterToken :=
  d.tokenWith d.value

/-- The token with the value percent-encoded. -/
def compileEncoded (d : FilterDraft) : FilterToken :=
  d.tokenWith (Text.percentEncode d.value)

def layout : Layout where
  name := "FilterDraft"
  fields := [.of "field" Decoder.string, .of "operator" (decode : Decoder Operator),
    .of "value" Decoder.string, .of "negate" Decoder.bool, .of "caseInsensitive" Decoder.bool]

instance : Decode FilterDraft where
  decode := layout.decode fun m ps => do
    let field ← layout.required m ps "field" Decoder.string
    let operator ← layout.required m ps "operator" decode
    let value ← layout.required m ps "value" Decoder.string
    let negate ← layout.defaulted m ps "negate" Decoder.bool false
    let caseInsensitive ← layout.defaulted m ps "caseInsensitive" Decoder.bool false
    return ⟨field, operator, value, negate, caseInsensitive⟩

instance : Encode FilterDraft where
  encode d := .object [("field", .string d.field), ("operator", encode d.operator),
    ("value", .string d.value), ("negate", .bool d.negate),
    ("caseInsensitive", .bool d.caseInsensitive)]

end FilterDraft

namespace FilterToken

/-- The character in front of every token of a fragment. -/
def separator : Char := '&'

/-- The tokens as one fragment, each behind a separator. -/
def join (ts : List FilterToken) : String :=
  String.ofList (ts.flatMap fun t => separator :: t.text.toList)

instance : Decode FilterToken := ⟨fun m r => (Decoder.string m r).map FilterToken.mk⟩

instance : Encode FilterToken := ⟨fun t => .string t.text⟩

end FilterToken

/-- The filters of one view, as tokens in the order in which they were added. -/
structure FilterSet where
  tokens : List FilterToken := []
  deriving DecidableEq, Repr

namespace FilterSet

def ofDrafts (ds : List FilterDraft) : FilterSet :=
  ⟨ds.map FilterDraft.compile⟩

def add (s : FilterSet) (d : FilterDraft) : FilterSet :=
  ⟨s.tokens ++ [d.compile]⟩

/-- Takes away the token at an index, and returns it if there is one. -/
def remove (s : FilterSet) (i : Nat) : Option FilterToken × FilterSet :=
  (s.tokens[i]?, ⟨s.tokens.eraseIdx i⟩)

def clear (_ : FilterSet) : FilterSet := ⟨[]⟩

def size (s : FilterSet) : Nat := s.tokens.length

def isEmpty (s : FilterSet) : Bool := s.tokens.isEmpty

def fragment (s : FilterSet) : String := FilterToken.join s.tokens

end FilterSet

end LedgerExplorer
