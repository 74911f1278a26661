import LedgerExplorer.Text.Blank
import LedgerExplorer.Text.Percent

/-!
# Request targets

A URL below a server names a path and perhaps a query. The path is a row of segments, in which `.`
and `..` have their usual meaning; characters that may not stand in a URL are percent-encoded.
-/

namespace LedgerExplorer

/-- What is asked of a server. -/
structure Target where
  path : String
  query : Option String
  deriving DecidableEq, Repr

namespace Target

/-- The target as it stands in a request line. -/
def text (t : Target) : String :=
  match t.query with
  | some q => t.path ++ "?" ++ q
  | none => t.path

/-- Whether a character may stand in a URL and none of the listed ones is meant. -/
def isKept (escaped : List Char) (c : Char) : Bool :=
  0x20 < c.toNat && c.toNat < 0x7F && !escaped.contains c

/-- The characters that are escaped in a path. -/
def escapedInPath : List Char := ['"', '#', '<', '>', '?', '`', '\x7b', '\x7d']

/-- The characters that are escaped in a query. -/
def escapedInQuery : List Char := ['"', '#', '<', '>', '\'']

/-- The text between slashes, of either kind. -/
def splitPath : List Char → List (List Char)
  | [] => [[]]
  | c :: rest =>
    if c = '/' || c = '\\' then [] :: splitPath rest
    else match splitPath rest with
      | [] => [[c]]
      | s :: ss => (c :: s) :: ss

/-- The number of dots that a segment stands for, if it is made of dots alone. A dot may be
escaped. -/
def dots? : List Char → Option Nat
  | [] => some 0
  | '.' :: rest => (dots? rest).map (· + 1)
  | '%' :: '2' :: e :: rest => if e = 'e' || e = 'E' then (dots? rest).map (· + 1) else none
  | _ => none

/-- Puts segments behind those that stand, the last of which comes first. A segment of two dots takes
one away; at the end of a path both kinds of dots leave an empty segment. -/
def walk : List (List Char) → List (List Char) → List (List Char)
  | done, [] => done
  | done, s :: rest =>
    let walked := match dots? s with
      | some 1 => done
      | some 2 => done.drop 1
      | _ => Text.percentEncodeWith (isKept escapedInPath) s :: done
    if rest.isEmpty && (dots? s = some 1 || dots? s = some 2) then [] :: walked
    else walk walked rest

/-- The path that a text of segments names; it starts with a slash. -/
def normalPath (cs : List Char) : String :=
  let segments := match splitPath cs with
    | [] :: rest => if rest.isEmpty then [[]] else rest
    | segments => segments
  String.ofList ((walk [] segments).reverse.flatMap ('/' :: ·))

/-- The characters at which the server ends in a URL. -/
def opensTarget (c : Char) : Bool :=
  c = '/' || c = '\\' || c = '?' || c = '#'

/-- The target of what follows the server in a URL; none if the server does not end there. -/
def ofChars? (cs : List Char) : Option Target :=
  if cs.head?.all opensTarget then
    let cs := cs.takeWhile (· != '#')
    some {
      path := normalPath (cs.takeWhile (· != '?'))
      query := match cs.dropWhile (· != '?') with
        | [] => none
        | _ :: q => some (String.ofList (Text.percentEncodeWith (isKept escapedInQuery) q)) }
  else none

/-- What stands behind a first part of a text, if the text starts with it. -/
def after? : List Char → List Char → Option (List Char)
  | [], cs => some cs
  | _ :: _, [] => none
  | c :: front, d :: cs => if c = d then after? front cs else none

/-- The target that a URL names at a server; none if it names none there. Blanks around a URL and
line breaks and tabs inside it do not count. -/
def ofUrl? (server url : String) : Option Target :=
  let cs := Text.trimWhile (fun c => c.toNat ≤ 0x20) url.toList
  let cs := cs.filter fun c => c != '\t' && c != '\n' && c != '\r'
  (after? server.toList cs).bind ofChars?

end Target

end LedgerExplorer
