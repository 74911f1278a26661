import LedgerExplorer.Http.Basic
import LedgerExplorer.Http.Target
import LedgerExplorer.Json.Quotation

/-!
# Messages of HTTP

The request for a target and the answer to it, as they go over a connection that the server closes
after one answer. The body of an answer is as long as its head says, comes in chunks that each say
their length, or goes on until the connection ends. An answer that is cut short is none.
-/

namespace LedgerExplorer

/-- Where a server listens. -/
structure Host where
  name : String
  /-- The number of the service on the host. -/
  service : UInt16
  deriving DecidableEq, Repr

namespace Host

/-- The beginning of the URLs of plain HTTP. -/
def scheme : String := "http://"

/-- The host whose name and service number stand in front of a path. Without a number it is eighty. -/
def ofChars? (cs : List Char) : Option Host :=
  let name := String.ofList (cs.takeWhile (· != ':'))
  if name = "" then none
  else match cs.dropWhile (· != ':') with
    | [] | [':'] => some ⟨name, 80⟩
    | _ :: service =>
      match Text.readNumeral 65535 service with
      | .ok n => some ⟨name, UInt16.ofNat n⟩
      | .error _ => none

/-- The host of a URL, and the target that is asked of it. -/
def ofUrl? (url : String) : Option (Host × Target) := do
  let cs ← Target.after? scheme.toList url.toList
  let front := cs.takeWhile fun c => !Target.opensTarget c
  let host ← ofChars? front
  let target ← Target.ofUrl? (scheme ++ String.ofList front) url
  return (host, target)

/-- The host as it stands in the head of a request. -/
def text (h : Host) : String :=
  if h.service = 80 then h.name else h.name ++ ":" ++ Text.natural h.service.toNat

end Host

/-- The request for a target. -/
def Target.request (h : Host) (t : Target) : String :=
  String.join (["GET " ++ t.text ++ " HTTP/1.1", "host: " ++ h.text, "accept: */*",
    "connection: close", ""].map (· ++ "\r\n"))

namespace HttpReply

/-- A line of a head up to its end, and what follows it. -/
def cutLine? : List UInt8 → Option (List Char × List UInt8)
  | [] => none
  | 13 :: 10 :: rest => some ([], rest)
  | b :: rest => (cutLine? rest).map fun (line, after) => (Char.ofNat b.toNat :: line, after)

/-- What follows a line is shorter than what it was cut from. -/
theorem length_of_cutLine? {bs after : List UInt8} {line : List Char}
    (h : cutLine? bs = some (line, after)) : after.length < bs.length := by
  fun_induction cutLine? bs generalizing line with
  | case1 => simp at h
  | case2 rest =>
    rw [Option.some.injEq, Prod.mk.injEq] at h
    rw [← h.2, List.length_cons, List.length_cons]
    omega
  | case3 b rest _ ih =>
    obtain ⟨⟨line', after'⟩, h', heq⟩ := Option.map_eq_some_iff.1 h
    rw [Prod.mk.injEq] at heq
    have shorter := ih (heq.2 ▸ h')
    rw [List.length_cons]
    omega

/-- A field of a head: its name in small letters and its value without the blanks around it. -/
def field (line : List Char) : String × List Char :=
  (String.ofList ((line.takeWhile (· != ':')).map Char.toLower),
    Text.trimWhile (fun c => c = ' ' || c = '\t') ((line.dropWhile (· != ':')).drop 1))

/-- The fields up to the empty line, and the body behind it. -/
def readFields? (bs : List UInt8) : Option (List (String × List Char) × List UInt8) :=
  match h : cutLine? bs with
  | none => none
  | some ([], after) => some ([], after)
  | some (line, after) =>
    have := length_of_cutLine? h
    (readFields? after).map fun (fields, body) => (field line :: fields, body)
termination_by bs.length

/-- The number that hexadecimal digits at the start of a line stand for. -/
def chunkLength? (line : List Char) : Option Nat :=
  match (line.takeWhile fun c => (Json.hexValue? c).isSome).filterMap Json.hexValue? with
  | [] => none
  | ds => some (ds.foldl (fun n d => 16 * n + d) 0)

/-- The contents of the chunks up to the empty one. -/
def joinChunks? (bs : List UInt8) : Option (List UInt8) :=
  match h : cutLine? bs with
  | none => none
  | some (line, after) =>
    match chunkLength? line with
    | none => none
    | some 0 => some []
    | some n =>
      have := length_of_cutLine? h
      if after.length < n + 2 then none
      else (joinChunks? (after.drop (n + 2))).map (after.take n ++ ·)
termination_by bs.length
decreasing_by
  rw [List.length_drop]
  omega

/-- The body that the fields of a head announce. -/
def cutBody? (fields : List (String × List Char)) (bs : List UInt8) : Option (List UInt8) :=
  match fields.lookup "transfer-encoding", fields.lookup "content-length" with
  | some coding, _ =>
    if String.ofList (coding.map Char.toLower) = "chunked" then joinChunks? bs else none
  | none, some length =>
    match Text.readNumeral Text.maxWord length with
    | .ok n => if bs.length < n then none else some (bs.take n)
    | .error _ => none
  | none, none => some bs

/-- The status in the first line of an answer. -/
def status? (line : List Char) : Option Nat :=
  match Text.readNumeral 999 (((line.dropWhile (· != ' ')).drop 1).takeWhile (· != ' ')) with
  | .ok n => some n
  | .error _ => none

/-- The answer that was read from a connection. A body that is no text counts as an empty one. -/
def ofBytes (bs : ByteArray) : HttpReply :=
  let read : Option HttpReply := do
    let (line, rest) ← cutLine? bs.toList
    let status ← status? line
    let (fields, rest) ← readFields? rest
    let body ← cutBody? fields rest
    return .answered status ((String.fromUTF8? ⟨body.toArray⟩).getD "")
  read.getD .unreachable

end HttpReply

end LedgerExplorer
