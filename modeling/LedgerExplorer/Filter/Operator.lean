import LedgerExplorer.Json.Decode

/-!
# Filter operators

The comparisons a filter can make, each with its name, its symbol on the wire, and whether it can be
negated and made blind to case.
-/

namespace LedgerExplorer

inductive Operator
  | eq
  | gt
  | gte
  | lt
  | lte
  | contains
  | startsWith
  | endsWith
  deriving DecidableEq, Repr

namespace Operator

/-- Every operator, in the order of a menu. -/
def all : List Operator := [eq, gt, gte, lt, lte, contains, startsWith, endsWith]

def name : Operator → String
  | eq => "eq"
  | gt => "gt"
  | gte => "gte"
  | lt => "lt"
  | lte => "lte"
  | contains => "contains"
  | startsWith => "startsWith"
  | endsWith => "endsWith"

/-- The symbol between the equals sign of a token and its value. -/
def symbol : Operator → String
  | eq => "="
  | gt => ">>"
  | gte => ">="
  | lt => "<<"
  | lte => "<="
  | contains => "@"
  | startsWith => "^"
  | endsWith => "$"

/-- Whether the operator can be negated and made blind to case. -/
def hasModifiers : Operator → Bool
  | eq | contains | startsWith | endsWith => true
  | gt | gte | lt | lte => false

def ofName? (name : String) : Option Operator :=
  all.find? fun op => op.name = name

/-- The names of the wire format. -/
def names : List (String × Operator) :=
  all.map fun op => (op.name, op)

instance : Decode Operator := ⟨Decoder.enumeration names⟩

instance : Encode Operator := ⟨fun op => .string op.name⟩

end Operator

end LedgerExplorer
