import LedgerExplorer.Cache.Resolver
import LedgerExplorer.Http.Basic

/-!
# What replies mean

A reply over HTTP brings a value if it succeeds with JSON that decodes as the value
(`HttpReply.Brings`). Every other one is a failure of one of five kinds (`HttpReply.Fails`). A page ends
with the failure as it is; to a lookup every failure means that there is no entity, and only its count
tells whether the server said so.
-/

namespace LedgerExplorer

variable {α E : Type} {d : Decoder α} {path : String} {reply : HttpReply}

namespace HttpReply

def code? : HttpReply → Option Nat
  | .answered status _ => some status
  | .unreachable => none

/-- The reply succeeds with JSON that decodes as a value. -/
def Brings (d : Decoder α) (reply : HttpReply) (a : α) : Prop :=
  ∃ status body v, reply = .answered status body ∧ 200 ≤ status ∧ status ≤ 299 ∧
    Json.ofText? body = some v ∧ v.decodeAs d = .ok a

/-- Why a call for a path fails with the reply. -/
inductive Fails (d : Decoder α) (path : String) : HttpReply → Fault → Prop
  | connection {text} : Fails d path .unreachable (.transport (.connection text))
  | notFound {body} : Fails d path (.answered 404 body) (.transport (.notFound path))
  | status {status body} : status ≠ 404 → (status < 200 ∨ 299 < status) →
      Fails d path (.answered status body) (.transport (.status status path))
  | notJson {status body text} : 200 ≤ status → status ≤ 299 → Json.ofText? body = none →
      Fails d path (.answered status body) (.transport (.decode text))
  | malformed {status body v e} : 200 ≤ status → status ≤ 299 → Json.ofText? body = some v →
      v.decodeAs d = .error e → Fails d path (.answered status body) (.malformedResponse path e.message)

end HttpReply

namespace HttpSource

theorem read_of_success {status : Nat} (h : 200 ≤ status) (h' : status ≤ 299)
    (path body : String) :
    (∀ v, Json.ofText? body = some v → read path (.answered status body) = .body v) ∧
    (Json.ofText? body = none →
      read path (.answered status body) = .error (.decode "error decoding response body")) := by
  have hfound : status ≠ 404 := by omega
  have hinside : ¬ (status < 200 ∨ 299 < status) := by omega
  rw [read, if_neg hfound, if_neg hinside]
  constructor
  · intro v hv
    rw [hv]
  · intro hv
    rw [hv]

theorem read_of_brings {a : α} (h : reply.Brings d a) (path : String) :
    ∃ v, read path reply = .body v ∧ v.decodeAs d = .ok a := by
  obtain ⟨status, body, v, rfl, hlow, hhigh, hv, ha⟩ := h
  exact ⟨v, (read_of_success hlow hhigh path body).1 v hv, ha⟩

/-- A reply that brings nothing is read as the failure that it is. -/
theorem decode_read_of_not_brings (h : ∀ a, ¬ reply.Brings d a) (path : String) :
    ∃ f, reply.Fails d path f ∧ (read path reply).decode d path = .error (.fault f) := by
  cases reply with
  | unreachable => exact ⟨_, .connection, rfl⟩
  | answered status body =>
    by_cases hfound : status = 404
    · subst hfound
      exact ⟨_, .notFound, rfl⟩
    by_cases hinside : status < 200 ∨ 299 < status
    · refine ⟨_, .status hfound hinside, ?_⟩
      rw [read, if_neg hfound, if_pos hinside]
      rfl
    rw [not_or, Nat.not_lt, Nat.not_lt] at hinside
    obtain ⟨hjson, hnone⟩ := read_of_success hinside.1 hinside.2 path body
    cases hv : Json.ofText? body with
    | none =>
      rw [hnone hv]
      exact ⟨_, .notJson hinside.1 hinside.2 hv, rfl⟩
    | some v =>
      rw [hjson v hv]
      cases he : v.decodeAs d with
      | ok a => exact absurd ⟨status, body, v, rfl, hinside.1, hinside.2, hv, he⟩ (h a)
      | error e =>
        refine ⟨_, .malformed hinside.1 hinside.2 hv he, ?_⟩
        change (v.decodeAs d).mapError _ = _
        rw [he]
        rfl

end HttpSource

namespace Directory

variable {directory : Directory E}

theorem read_of_brings {e : E} (h : reply.Brings directory.decode e) (id path : String) :
    directory.read id (HttpSource.read path reply) = some (.ok (some e)) := by
  obtain ⟨v, hread, hv⟩ := HttpSource.read_of_brings h path
  rw [hread, Directory.read, hv]

/-- To a lookup a reply that brings no entity means that there is none. -/
theorem read_of_not_brings (h : ∀ e, ¬ reply.Brings directory.decode e) (id path : String) :
    let outcome := directory.read id (HttpSource.read path reply)
    answerOf outcome = none ∧
      FetchResult.ofOutcome outcome = if reply.code? = some 404 then .notFound else .error := by
  cases reply with
  | unreachable => exact ⟨rfl, rfl⟩
  | answered status body =>
    by_cases hfound : status = 404
    · subst hfound
      exact ⟨rfl, rfl⟩
    have hcode : (HttpReply.answered status body).code? ≠ some 404 :=
      fun heq => hfound (Option.some.inj heq)
    rw [if_neg hcode]
    by_cases hinside : status < 200 ∨ 299 < status
    · rw [HttpSource.read, if_neg hfound, if_pos hinside]
      simp [Directory.read, TransportError.isNotFound, FetchResult.ofOutcome, answerOf, hfound]
    rw [not_or, Nat.not_lt, Nat.not_lt] at hinside
    obtain ⟨hjson, hnone⟩ := HttpSource.read_of_success hinside.1 hinside.2 path body
    cases hv : Json.ofText? body with
    | none =>
      rw [hnone hv]
      exact ⟨rfl, rfl⟩
    | some v =>
      rw [hjson v hv]
      cases he : v.decodeAs directory.decode with
      | ok e => exact absurd ⟨status, body, v, rfl, hinside.1, hinside.2, hv, he⟩ (h e)
      | error e => simp [Directory.read, he, TransportError.isNotFound, FetchResult.ofOutcome, answerOf]

end Directory

end LedgerExplorer
