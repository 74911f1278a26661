import LedgerExplorer.Proofs.Session.Callers

/-!
# Answers to lookups

A caller looks its ids up one by one, and between two of its lookups anything may happen. An id is
answered by the cache at the moment when it is looked up, or else by the first reply after that to a
lookup of the id (`Session.answerToLookup?`).
-/

namespace LedgerExplorer

variable {R E : Type}

/-- The answer that an event brings to those who wait for an id. -/
def Session.Event.answerTo? (directory : Directory E) (id : String) :
    Session.Event R → Option (Option E)
  | .learn id' reply => if id' = id then some (answerOf (directory.read id reply)) else none
  | _ => none

/-- The answer to an id that is looked up now, if it is there after the events that follow: the answer
of the cache, or else that of the first reply to a lookup of the id. -/
def Resolver.answerAfter? (r : Resolver E) (id : String) (es : List (Session.Event R)) :
    Option (Option E) :=
  (r.cache.answer? id).or (es.findSome? (·.answerTo? r.directory id))

namespace Session

variable {s : Session R E} {n : Nat} {id : String}

theorem isSome_findSome?_answerTo?_iff {directory : Directory E} {es : List (Event R)} :
    (es.findSome? (·.answerTo? directory id)).isSome ↔ ∃ reply, .learn id reply ∈ es := by
  rw [List.findSome?_isSome_iff]
  constructor
  · rintro ⟨e, he, hanswer⟩
    cases e with
    | learn id' reply =>
      rw [Event.answerTo?] at hanswer
      split at hanswer
      · next heq => exact ⟨reply, heq ▸ he⟩
      · cases hanswer
    | _ => cases hanswer
  · rintro ⟨reply, hmem⟩
    exact ⟨_, hmem, by simp [Event.answerTo?]⟩

/-- Whether an event lets a caller make its next lookup. -/
def Event.looksUp (n : Nat) : Event R → Bool
  | .lookUp m => m == n
  | _ => false

/-- The ids that a caller still has to look up, in order. -/
def unasked (s : Session R E) (n : Nat) : List String := ((s.caller? n).map Caller.unasked).getD []

/-- The answer to an id that a caller looks up after `i` other lookups, if the events bring it that
far and the answer is there after them. -/
def answerToLookup? (n : Nat) (id : String) :
    Session R E → Nat → List (Event R) → Option (Option E)
  | _, _, [] => none
  | s, i, e :: es =>
    if e.looksUp n then
      match i with
      | 0 => s.resolver.bind (·.answerAfter? id es)
      | i + 1 => answerToLookup? n id (s.step e) i es
    else answerToLookup? n id (s.step e) i es

theorem looksUp_iff {e : Event R} : e.looksUp n = true ↔ e = .lookUp n := by
  constructor
  · intro h
    cases e with
    | lookUp m =>
      obtain rfl : m = n := beq_iff_eq.1 h
      rfl
    | _ => cases h
  · rintro rfl
    exact beq_self_eq_true n

theorem looksUp_of_ne {e : Event R} (h : e ≠ .lookUp n) : e.looksUp n = false :=
  Bool.eq_false_iff.2 fun hlooks => h (looksUp_iff.1 hlooks)

theorem answerToLookup?_lookUp_zero (s : Session R E) (n : Nat) (id : String)
    (es : List (Event R)) :
    s.answerToLookup? n id 0 (.lookUp n :: es) = s.resolver.bind (·.answerAfter? id es) := by
  rw [answerToLookup?, if_pos (looksUp_iff.2 rfl)]

theorem answerToLookup?_lookUp_succ (s : Session R E) (n : Nat) (id : String) (i : Nat)
    (es : List (Event R)) : s.answerToLookup? n id (i + 1) (.lookUp n :: es) =
      (s.step (.lookUp n)).answerToLookup? n id i es := by
  rw [answerToLookup?, if_pos (looksUp_iff.2 rfl)]

theorem answerToLookup?_of_not_looksUp {e : Event R} (h : e.looksUp n = false) (s : Session R E)
    (id : String) (i : Nat) (es : List (Event R)) :
    s.answerToLookup? n id i (e :: es) = (s.step e).answerToLookup? n id i es := by
  rw [answerToLookup?.eq_def]
  exact if_neg (Bool.eq_false_iff.1 h)

/-- The lookup after `i` others is made by the event after `i` others that let the caller go on. -/
theorem answerToLookup?_append_lookUp (s : Session R E) (n : Nat) (id : String)
    (earlier later : List (Event R)) :
    s.answerToLookup? n id (earlier.countP (·.looksUp n)) (earlier ++ .lookUp n :: later) =
      (s.run earlier).resolver.bind (·.answerAfter? id later) := by
  induction earlier generalizing s with
  | nil => exact s.answerToLookup?_lookUp_zero n id later
  | cons e earlier ih =>
    rw [List.cons_append]
    by_cases he : e.looksUp n = true
    · rw [List.countP_cons_of_pos he, looksUp_iff.1 he, answerToLookup?_lookUp_succ, ih]
      rfl
    · rw [List.countP_cons_of_neg he, answerToLookup?_of_not_looksUp (by simpa using he), ih]
      rfl

/-- Without a cache nothing is looked up. -/
theorem answerToLookup?_uncached (h : ∀ es, (s.run es).resolver = none) (i : Nat)
    (es : List (Event R)) : s.answerToLookup? n id i es = none := by
  induction es generalizing s i with
  | nil => rfl
  | cons e es ih =>
    have hlater : ∀ es', ((s.step e).run es').resolver = none := fun es' => h (e :: es')
    by_cases he : e.looksUp n = true
    · obtain rfl := looksUp_iff.1 he
      cases i with
      | zero =>
        rw [answerToLookup?_lookUp_zero, show s.resolver = none from h []]
        rfl
      | succ i =>
        rw [answerToLookup?_lookUp_succ]
        exact ih hlater i
    · rw [answerToLookup?_of_not_looksUp (by simpa using he)]
      exact ih hlater i

/-- An id that is looked up has an answer as soon as a lookup of it ends after that. -/
theorem isSome_answerToLookup? {i k : Nat} (hi : i < k) {es : List (Event R)} {reply : Reply}
    (hlearn : .learn id reply ∈ es) (hresolver : ∀ es', (s.run es').resolver.isSome) :
    (s.answerToLookup? n id i (List.replicate k (.lookUp n) ++ es)).isSome := by
  induction k generalizing s i with
  | zero => cases hi
  | succ k ih =>
    rw [List.replicate_succ, List.cons_append]
    cases i with
    | zero =>
      obtain ⟨r, hr⟩ := Option.isSome_iff_exists.1 (hresolver [])
      rw [answerToLookup?_lookUp_zero, show s.resolver = some r from hr, Option.bind_some,
        Resolver.answerAfter?, Option.isSome_or, Bool.or_eq_true, isSome_findSome?_answerTo?_iff]
      exact .inr ⟨reply, List.mem_append_right _ hlearn⟩
    | succ i =>
      rw [answerToLookup?_lookUp_succ]
      exact ih (Nat.lt_of_succ_lt_succ hi) fun es' => hresolver (.lookUp n :: es')

end Session

end LedgerExplorer
