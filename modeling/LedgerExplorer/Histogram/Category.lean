import LedgerExplorer.Json.Decode

/-!
# Categories

A category map says under which category each raw type is counted and how the category is shown. Its
legend has one entry for every category, in order, with the first colour and the first name that the
types of the category give.
-/

namespace LedgerExplorer

structure CategorySpec where
  category : String
  color : String := ""
  nicename : String := ""
  deriving DecidableEq, Repr

structure LegendEntry where
  category : String
  color : String
  nicename : String
  deriving DecidableEq, Repr

namespace CategorySpec

def layout : Layout where
  name := "CategorySpec"
  fields := [.of "category" Decoder.string, .of "color" Decoder.string,
    .of "nicename" Decoder.string]

instance : Decode CategorySpec where
  decode := layout.decode fun m ps => do
    let category ← layout.required m ps "category" Decoder.string
    let color ← layout.defaulted m ps "color" Decoder.string ""
    let nicename ← layout.defaulted m ps "nicename" Decoder.string ""
    return ⟨category, color, nicename⟩

instance : Encode CategorySpec where
  encode s := .object [("category", .string s.category), ("color", .string s.color),
    ("nicename", .string s.nicename)]

end CategorySpec

namespace LegendEntry

def layout : Layout where
  name := "LegendEntry"
  fields := [.of "category" Decoder.string, .of "color" Decoder.string,
    .of "nicename" Decoder.string]

instance : Decode LegendEntry where
  decode := layout.decode fun m ps => do
    let category ← layout.required m ps "category" Decoder.string
    let color ← layout.required m ps "color" Decoder.string
    let nicename ← layout.required m ps "nicename" Decoder.string
    return ⟨category, color, nicename⟩

instance : Encode LegendEntry where
  encode s := .object [("category", .string s.category), ("color", .string s.color),
    ("nicename", .string s.nicename)]

end LegendEntry

/-- The specification of every raw type that is mapped. -/
structure CategoryMap where
  types : Dict CategorySpec
  deriving DecidableEq

namespace CategoryMap

def empty : CategoryMap := ⟨.empty⟩

/-- Maps a raw type, in place of the specification that it had. -/
def insert (m : CategoryMap) (type : String) (spec : CategorySpec) : CategoryMap :=
  ⟨m.types.insert type spec⟩

def ofList (l : List (String × CategorySpec)) : CategoryMap :=
  ⟨.ofList l⟩

def get? (m : CategoryMap) (type : String) : Option CategorySpec :=
  m.types.get? type

/-- The category under which a raw type is counted. -/
def categoryOf? (m : CategoryMap) (type : String) : Option String :=
  (m.get? type).map CategorySpec.category

/-- The legend entries under their categories, filled in the order of the types. -/
def legendEntries (m : CategoryMap) : Dict LegendEntry :=
  m.types.values.foldl (fun acc spec =>
    let entry := (acc.get? spec.category).getD ⟨spec.category, "", ""⟩
    acc.insert spec.category { entry with
      color := if entry.color = "" then spec.color else entry.color
      nicename := if entry.nicename = "" then spec.nicename else entry.nicename }) .empty

/-- One entry for every category, in order. -/
def legend (m : CategoryMap) : List LegendEntry :=
  m.legendEntries.values

/-- The categories, each under itself. -/
def categorySet (m : CategoryMap) : Dict Unit :=
  .ofList (m.types.values.map fun spec => (spec.category, ()))

/-- The distinct categories, in order. -/
def categories (m : CategoryMap) : List String :=
  m.categorySet.keys

def size (m : CategoryMap) : Nat := m.types.size

def isEmpty (m : CategoryMap) : Bool := m.types.isEmpty

instance : Decode CategoryMap where
  decode m r := (Decoder.dict decode m r).map CategoryMap.mk

instance : Encode CategoryMap := ⟨fun m => .ofDict encode m.types⟩

end CategoryMap

end LedgerExplorer
