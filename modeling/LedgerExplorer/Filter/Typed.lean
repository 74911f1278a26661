import LedgerExplorer.Collection
import LedgerExplorer.Filter.Draft

/-!
# Filters as they are typed

A filter is typed as `FIELD:OP:VALUE`. The operator may stand behind `!`, which negates it, and before
`/i`, which makes it blind to case; the value may hold further colons.
-/

namespace LedgerExplorer

/-- Why a typed filter cannot be used on a collection. -/
inductive TypedFilterError
  | notThreeParts (spec : String)
  | fieldNotAllowed (field : String) (collection : Collection)
  | unknownOperator (name : String)
  deriving DecidableEq, Repr

def TypedFilterError.message : TypedFilterError → String
  | .notThreeParts spec => "filter '" ++ spec ++ "' is not FIELD:OP:VALUE"
  | .fieldNotAllowed field c =>
    "field '" ++ field ++ "' cannot be filtered on " ++ c.path ++ " (allowed: " ++
      String.intercalate ", " c.filterFields ++ ")"
  | .unknownOperator name => "unknown operator '" ++ name ++ "'"

namespace FilterDraft

/-- The text before the first colon and the text after it. -/
def splitColon : List Char → Option (List Char × List Char)
  | [] => none
  | c :: rest =>
    if c = ':' then some ([], rest)
    else (splitColon rest).map fun (front, back) => (c :: front, back)

/-- Whether a text starts with the mark of negation, and the text after it. -/
def splitNegation : List Char → Bool × List Char
  | '!' :: rest => (true, rest)
  | cs => (false, cs)

/-- Whether a text ends with the mark of blindness to case, and the text before it. -/
def splitBlindness (cs : List Char) : Bool × List Char :=
  match cs.reverse with
  | 'i' :: '/' :: front => (true, front.reverse)
  | _ => (false, cs)

/-- The draft of a typed filter on a collection. -/
def ofTyped (c : Collection) (spec : String) : Except TypedFilterError FilterDraft :=
  match splitColon spec.toList with
  | none => .error (.notThreeParts spec)
  | some (field, rest) =>
    match splitColon rest with
    | none => .error (.notThreeParts spec)
    | some (op, value) =>
      let field := String.ofList field
      if c.allowsField field then
        let (negate, op) := splitNegation op
        let (caseInsensitive, op) := splitBlindness op
        let op := String.ofList op
        match Operator.ofName? op with
        | none => .error (.unknownOperator op)
        | some operator =>
          .ok { field, operator, value := String.ofList value, negate, caseInsensitive }
      else .error (.fieldNotAllowed field c)

/-- The draft as it is typed. -/
def typed (d : FilterDraft) : String :=
  d.field ++ ":" ++ (if d.negate then "!" else "") ++ d.operator.name ++
    (if d.caseInsensitive then "/i" else "") ++ ":" ++ d.value

end FilterDraft

end LedgerExplorer
