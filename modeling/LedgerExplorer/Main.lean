import LedgerExplorer.CommandLine.Run
import LedgerExplorer.Http.Message
import Std.Async.DNS
import Std.Async.TCP
import Std.Time.DateTime.Timestamp

/-!
# The program

Holds the dialogue of the command line with the file system and with servers, to which it speaks plain
HTTP. Output goes to the standard output, errors and metrics to the standard error.
-/

namespace LedgerExplorer

open Std.Async

/-- The variables of the environment that count. -/
def readEnvironment : IO Environment := do
  return {
    apiUrl := ← IO.getEnv "LEDGERSCOPE_API_URL"
    namespaceName := ← IO.getEnv "LEDGERSCOPE_NAMESPACE"
    pageSize := ← IO.getEnv "LEDGERSCOPE_PAGE_SIZE"
    logLevel := ← IO.getEnv "RUST_LOG"
    configPath := ← IO.getEnv "LEDGERSCOPE_CONFIG" }

/-- Why a file could not be read. An error without a path comes from reading what was opened. -/
def fileError : IO.Error → FileError
  | .noFileOrDirectory .. => .missing
  | .inappropriateType none .. => .isDirectory
  | .inappropriateType (some _) .. => .notDirectory
  | .invalidArgument .. => .nameTooLong
  | .permissionDenied .. => .other "Permission denied (os error 13)"
  | .userError _ => .other "stream did not contain valid UTF-8"
  | e => .other (toString e)

/-- The text of a file. -/
def readText (path : String) : IO (Except FileError String) := do
  try
    return .ok (← IO.FS.readFile path)
  catch e => return .error (fileError e)

/-- The present, in whole seconds. -/
def presentTime : IO Instant := do
  let t ← Std.Time.Timestamp.now
  return { seconds := t.toSecondsSinceUnixEpoch.val }

/-- Everything that comes over a connection until the server closes it. -/
partial def receiveAll (socket : TCP.Socket.Client) (got : ByteArray) : Async ByteArray := do
  match ← socket.recv? 65536 with
  | none => return got
  | some bytes => receiveAll socket (got ++ bytes)

/-- Sends a request to an address of a host and waits for the answer. -/
def exchange (h : Host) (t : Target) (address : Std.Net.IPAddr) : Async HttpReply := do
  let socket ← TCP.Socket.Client.mk
  socket.connect <| match address with
    | .v4 a => .v4 ⟨a, h.service⟩
    | .v6 a => .v6 ⟨a, h.service⟩
  socket.send (t.request h).toUTF8
  return .ofBytes (← receiveAll socket .empty)

/-- The answer from the first address that gives one. -/
def exchangeAny (h : Host) (t : Target) : List Std.Net.IPAddr → IO HttpReply
  | [] => return .unreachable
  | address :: rest => do
    let reply ← try (exchange h t address).block catch _ => pure .unreachable
    match reply with
    | .unreachable => exchangeAny h t rest
    | reply => return reply

/-- The answer to a URL. -/
def askServer (url : String) : IO HttpReply := do
  match Host.ofUrl? url with
  | none => return .unreachable
  | some (h, t) =>
    let addresses ←
      try (DNS.getAddrInfo h.name (Text.natural h.service.toNat)).block catch _ => pure #[]
    exchangeAny h t addresses.toList

end LedgerExplorer

open LedgerExplorer in
/-- Runs the program on its words. -/
def main (args : List String) : IO UInt32 := do
  let world : CommandLine.Surroundings :=
    { environment := ← readEnvironment, now := ← presentTime }
  let outcome ← (CommandLine.program world args).runIn readText askServer
  match outcome with
  | .success text metrics =>
    IO.print text
    for (sample, n) in ((metrics.map Counter.growth).getD .empty).entries do
      IO.eprintln (sample ++ " " ++ Text.natural n)
  | .failure e => IO.eprintln ("Error: " ++ e.report)
  | .misuse => IO.eprintln CommandLine.helpText
  return UInt32.ofNat outcome.code
