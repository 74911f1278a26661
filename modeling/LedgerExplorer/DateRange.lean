import LedgerExplorer.Filter.Draft

/-!
# Date ranges

Named windows that end at the present and restrict the time of creation.
-/

namespace LedgerExplorer

/-- A point in time: whole seconds since the epoch and the nanoseconds beyond them. A leap second goes
on with the nanoseconds of the second before it, past the first billion. -/
structure Instant where
  seconds : Int
  nanos : Nat := 0
  deriving DecidableEq, Repr

/-- The second from which time is taken away; a leap second counts as the one after it. -/
def Instant.counted (t : Instant) : Int :=
  if t.nanos < 1000000000 then t.seconds else t.seconds + 1

/-- The first second that the clock can show. -/
def Instant.minSeconds : Int := -8334601228800

inductive DateRange
  | lastHour
  | last24Hours
  | last7Days
  | last30Days
  deriving DecidableEq, Repr

namespace DateRange

/-- Every range, the shortest first. -/
def all : List DateRange := [lastHour, last24Hours, last7Days, last30Days]

def name : DateRange → String
  | lastHour => "1hour"
  | last24Hours => "24hours"
  | last7Days => "7days"
  | last30Days => "30days"

def ofName? (name : String) : Option DateRange :=
  all.find? fun r => r.name = name

/-- The length of the window in seconds. -/
def seconds : DateRange → Int
  | lastHour => 3600
  | last24Hours => 86400
  | last7Days => 604800
  | last30Days => 2592000

/-- The second in which the window starts; none if it lies before the first one of the clock. -/
def start? (r : DateRange) (now : Instant) : Option Int :=
  let start := now.counted - r.seconds
  if Instant.minSeconds ≤ start then some start else none

/-- The field that every collection is dated by. -/
def createdField : String := "created"

/-- The condition that a record was created at the second or later. -/
def since (start : Int) : FilterDraft where
  field := createdField
  operator := .gte
  value := Text.integer start

/-- The token of the condition that a record was created in the window. -/
def token? (r : DateRange) (now : Instant) : Option FilterToken :=
  (r.start? now).map fun start => (since start).compile

instance : Decode DateRange := ⟨Decoder.enumeration (all.map fun r => (r.name, r))⟩

instance : Encode DateRange := ⟨fun r => .string r.name⟩

end DateRange

end LedgerExplorer
