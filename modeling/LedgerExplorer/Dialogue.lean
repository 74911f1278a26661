import LedgerExplorer.File
import LedgerExplorer.Http.Basic

/-!
# Dialogues

A program as a dialogue with the world around it: it asks for files and for URLs, one after the
other, and goes on with the answers until it is done. What answers is left open.
-/

namespace LedgerExplorer

inductive Dialogue (α : Type)
  | done (a : α)
  | readFile (path : String) (next : Except FileError String → Dialogue α)
  | get (url : String) (next : HttpReply → Dialogue α)

namespace Dialogue

/-- Goes on with the result of a dialogue. -/
def bind : Dialogue α → (α → Dialogue β) → Dialogue β
  | done a, f => f a
  | readFile path next, f => readFile path fun r => bind (next r) f
  | get url next, f => get url fun r => bind (next r) f

instance : Monad Dialogue where
  pure := done
  bind := bind

/-- Asks for the text of a file. -/
def askFile (path : String) : Dialogue (Except FileError String) :=
  readFile path done

/-- Asks for a URL. -/
def askUrl (url : String) : Dialogue HttpReply :=
  get url done

/-- Holds a dialogue with answers from functions: the result, and the URLs that were asked for. -/
def run (files : String → Except FileError String) (replies : String → HttpReply) :
    Dialogue α → α × List String
  | done a => (a, [])
  | readFile path next => run files replies (next (files path))
  | get url next =>
    let (a, urls) := run files replies (next (replies url))
    (a, url :: urls)

/-- Holds a dialogue with answers from actions. -/
def runIn {m : Type → Type} [Monad m] (files : String → m (Except FileError String))
    (replies : String → m HttpReply) : Dialogue α → m α
  | done a => Pure.pure a
  | readFile path next => do
    let r ← files path
    runIn files replies (next r)
  | get url next => do
    let r ← replies url
    runIn files replies (next r)

end Dialogue

end LedgerExplorer
