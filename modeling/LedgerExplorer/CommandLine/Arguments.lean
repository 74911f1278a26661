import LedgerExplorer.Text.Natural

/-!
# Arguments

The words of a command line are switches, their values, and plain words. A long switch may have its
value behind an equals sign, a short one directly behind it. Some switches are understood both before
and behind the name of the command.
-/

namespace LedgerExplorer

namespace CommandLine

/-- Why a command line is not carried out. -/
inductive Stop
  /-- The words do not make a command. -/
  | misuse
  | version
  | help
  deriving DecidableEq, Repr

/-- A switch that a command understands. -/
structure Switch where
  long : String
  short : Option Char := none
  takesValue : Bool := true
  deriving DecidableEq, Repr

/-- A part of a command line. -/
inductive Part
  | switch (long : String) (value : String)
  | word (s : String)
  deriving DecidableEq, Repr

/-- The parts up to the first fault or the first question about the program, and that stop. -/
structure Parts where
  parts : List Part := []
  stop : Option Stop := none
  /-- The words from the name of the command on, where one is expected. -/
  rest : List String := []

/-- The parts with another one in front. -/
def Parts.push (p : Part) (ps : Parts) : Parts :=
  { ps with parts := p :: ps.parts }

/-- The parts of a level that ends in a stop. -/
def Parts.stopped (s : Stop) : Parts := { stop := some s }

/-- What a level of a command line understands. -/
structure Level where
  switches : List Switch
  /-- Whether the first plain word is the name of a command. -/
  named : Bool := false
  deriving Repr

/-- The name and the value of a long switch, split at the first equals sign. -/
def splitLong (cs : List Char) : String × Option String :=
  (String.ofList (cs.takeWhile (· != '=')),
    match cs.dropWhile (· != '=') with
    | [] => none
    | _ :: value => some (String.ofList value))

/-- A value that stands directly behind a short switch, perhaps after an equals sign. -/
def attached? : List Char → Option String
  | [] => none
  | '=' :: value => some (String.ofList value)
  | value => some (String.ofList value)

/-- Whether a word can only be a switch. -/
def isSwitch (s : String) : Bool :=
  match s.toList with
  | '-' :: _ :: _ => true
  | _ => false

/-- The long switches that ask about the program. -/
def Level.question? (l : Level) (long : String) : Option Stop :=
  if long = "help" then some .help
  else if long = "version" && l.named then some .version
  else none

/-- The short switches that ask about the program. -/
def Level.shortQuestion? (l : Level) (c : Char) : Option Stop :=
  if c = 'h' then some .help
  else if c = 'V' && l.named then some .version
  else none

/-- Splits the words of a level into its parts. -/
def Level.split (l : Level) : List String → Parts
  | [] => {}
  | s :: rest =>
    match s.toList with
    | ['-', '-'] => if l.named then .stopped .misuse else { parts := rest.map Part.word }
    | '-' :: '-' :: cs =>
      let (long, value) := splitLong cs
      match l.switches.find? fun w => w.long == long with
      | none =>
        match l.question? long, value with
        | some q, none => .stopped q
        | _, _ => .stopped .misuse
      | some w =>
        if w.takesValue then
          match value, rest with
          | some value, rest => (l.split rest).push (.switch long value)
          | none, value :: rest =>
            if isSwitch value then .stopped .misuse
            else (l.split rest).push (.switch long value)
          | none, [] => .stopped .misuse
        else if value.isSome then .stopped .misuse
        else (l.split rest).push (.switch long "")
    | '-' :: c :: cs =>
      match l.switches.find? fun w => w.short == some c with
      | none => .stopped ((l.shortQuestion? c).getD .misuse)
      | some w =>
        match attached? cs, rest with
        | some value, rest => (l.split rest).push (.switch w.long value)
        | none, value :: rest =>
          if isSwitch value then .stopped .misuse
          else (l.split rest).push (.switch w.long value)
        | none, [] => .stopped .misuse
    | _ => if l.named then { rest := s :: rest } else (l.split rest).push (.word s)

/-- The values of a switch. -/
def values (long : String) (ps : List Part) : List String :=
  ps.filterMap fun
    | .switch l value => if l = long then some value else none
    | .word _ => none

/-- The plain words. -/
def plainWords (ps : List Part) : List String :=
  ps.filterMap fun
    | .word s => some s
    | .switch _ _ => none

/-- The value of a switch that may stand once. -/
def value? (long : String) (ps : List Part) : Except Stop (Option String) :=
  match values long ps with
  | [] => .ok none
  | [value] => .ok (some value)
  | _ => .error .misuse

/-- Whether a switch without a value is there; it may stand once. -/
def isSet (long : String) (ps : List Part) : Except Stop Bool :=
  (value? long ps).map Option.isSome

/-- The path after a switch, which may not be empty. -/
def path? (long : String) (ps : List Part) : Except Stop (Option String) := do
  match ← value? long ps with
  | some "" => throw .misuse
  | r => return r

/-- The number after a switch. -/
def number? (long : String) (ps : List Part) : Except Stop (Option UInt64) := do
  match ← value? long ps with
  | none => return none
  | some s =>
    match Text.readWord s with
    | .ok n => return some n
    | .error _ => throw .misuse

/-- The switches that every level understands. -/
def commonSwitches : List Switch :=
  [⟨"config", some 'c', true⟩, ⟨"namespace", some 'n', true⟩, ⟨"metrics", none, false⟩]

/-- The settings that stand before or behind the name of the command. -/
structure Common where
  /-- The path of the configuration file. -/
  config : Option String := none
  namespaceName : Option String := none
  metrics : Bool := false
  deriving DecidableEq, Repr

def Common.ofParts (ps : List Part) : Except Stop Common := do
  let config ← path? "config" ps
  let namespaceName ← value? "namespace" ps
  let metrics ← isSet "metrics" ps
  return { config, namespaceName, metrics }

/-- The settings of two levels; those behind the name of the command go first. -/
def Common.merge (outer inner : Common) : Common where
  config := inner.config.or outer.config
  namespaceName := inner.namespaceName.or outer.namespaceName
  metrics := outer.metrics || inner.metrics

/-- Which page of a collection is asked for. -/
structure Paging where
  filters : List String := []
  range : Option String := none
  page : UInt64 := 0
  limit : Option UInt64 := none
  /-- Whether the request is shown instead of sent. -/
  dryRun : Bool := false
  deriving DecidableEq, Repr

def pagingSwitches : List Switch :=
  [⟨"filter", some 'f', true⟩, ⟨"range", some 'r', true⟩, ⟨"page", some 'p', true⟩,
    ⟨"limit", some 'l', true⟩, ⟨"dry-run", none, false⟩]

def Paging.ofParts (ps : List Part) : Except Stop Paging := do
  let range ← value? "range" ps
  let page ← number? "page" ps
  let limit ← number? "limit" ps
  let dryRun ← isSet "dry-run" ps
  return { filters := values "filter" ps, range, page := page.getD 0, limit, dryRun }

inductive Command
  /-- One page of a collection. -/
  | page (entity : String) (paging : Paging)
  /-- Token transfers with their pools. -/
  | transfers (paging : Paging)
  /-- The counts of a collection in buckets. -/
  | histogram (entity range : String) (buckets : Option UInt64) (categories : String)
  /-- Whether the configuration can be used. -/
  | checkConfig
  deriving DecidableEq, Repr

def histogramSwitches : List Switch :=
  [⟨"range", some 'r', true⟩, ⟨"buckets", some 'b', true⟩, ⟨"categories", none, true⟩]

/-- The switches of a command that the user names. -/
def switchesOf? : String → Option (List Switch)
  | "page" | "transfers" => some pagingSwitches
  | "histogram" => some histogramSwitches
  | "check-config" => some []
  | _ => none

/-- The stop that the words behind `help` lead to: at most one command may be named. -/
def helpStop : List String → Stop
  | [] => .help
  | [name] => if name = "help" || (switchesOf? name).isSome then .help else .misuse
  | _ => .misuse

/-- Makes sure that there are so many plain words. -/
def words (n : Nat) (ps : List Part) : Except Stop (List String) :=
  let ws := plainWords ps
  if ws.length = n then .ok ws else .error .misuse

/-- The command of a name and its parts. -/
def Command.ofParts (name : String) (ps : List Part) : Except Stop Command := do
  match name with
  | "page" =>
    let ws ← words 1 ps
    return .page (ws.headD "") (← Paging.ofParts ps)
  | "transfers" =>
    let _ ← words 0 ps
    return .transfers (← Paging.ofParts ps)
  | "histogram" =>
    let ws ← words 1 ps
    let range ← value? "range" ps
    let buckets ← number? "buckets" ps
    let some categories ← path? "categories" ps | throw .misuse
    return .histogram (ws.headD "") (range.getD "24hours") buckets categories
  | _ =>
    let _ ← words 0 ps
    return .checkConfig

/-- A command with the settings that go for every command. -/
structure Invocation where
  command : Command
  common : Common
  deriving DecidableEq, Repr

/-- A stop inside a command, unless something before it is already wrong. -/
def stopOf (name : String) (ps : List Part) (stop : Stop) : Stop :=
  let entity := if (plainWords ps).isEmpty then [Part.word ""] else []
  let categories := if (values "categories" ps).isEmpty then [Part.switch "categories" "c"] else []
  let completed := match name with
    | "page" => entity ++ ps
    | "histogram" => entity ++ categories ++ ps
    | _ => ps
  match Command.ofParts name completed, Common.ofParts ps with
  | .ok _, .ok _ => stop
  | _, _ => .misuse

/-- The invocation that the words of a command line make. -/
def Invocation.parse (args : List String) : Except Stop Invocation := do
  let outer := Level.split { switches := commonSwitches, named := true } args
  let outerCommon ← Common.ofParts outer.parts
  if let some stop := outer.stop then throw stop
  let name :: rest := outer.rest | throw .misuse
  if name = "help" then throw (helpStop rest)
  let some switches := switchesOf? name | throw .misuse
  let inner := Level.split { switches := commonSwitches ++ switches } rest
  if let some stop := inner.stop then throw (stopOf name inner.parts stop)
  let command ← Command.ofParts name inner.parts
  let innerCommon ← Common.ofParts inner.parts
  return { command, common := outerCommon.merge innerCommon }

end CommandLine

end LedgerExplorer
