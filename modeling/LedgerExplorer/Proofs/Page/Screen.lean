import LedgerExplorer.Page.View
import LedgerExplorer.Proofs.Lists

/-!
# Runs of a view

A screen is a view together with what happened at it: the queries that were loaded, the loads that
are under way and how the others ended. An event is a load that starts, a load that ends, a load that
is abandoned, or the view being torn down. The end of a load, with everything that it looks at and
changes, is one event. A run is a list of events, in any order and number; one that concerns no load
under way changes nothing. What the fetches return is a function of the load, and any function will do.
-/

namespace LedgerExplorer

/-- A load of a view: its place among the loads of the view, from one, the generation that it took, and
its query. -/
structure Load where
  number : Nat
  generation : UInt64
  query : PageQuery
  deriving DecidableEq, Repr

structure Screen (R E : Type) where
  view : View R E
  /-- The queries of the loads that were started, in order. -/
  queries : List PageQuery := []
  /-- The loads that have neither ended nor been abandoned. -/
  running : List Load := []
  /-- Every load that ended with what was reported of it, in order. -/
  ended : List (Load × Except Fault LoadOutcome) := []

namespace Screen

variable {R E : Type}

def opened (rows : RowKind R) : Screen R E where
  view := { rows }

/-- The generation of a load that ended, if its page was shown. -/
def shownGeneration? : Load × Except Fault LoadOutcome → Option UInt64
  | (l, .ok .applied) => some l.generation
  | _ => none

/-- The generations whose pages were shown, in order. -/
def shown (s : Screen R E) : List UInt64 := s.ended.filterMap shownGeneration?

/-- A load was started: its query is on record at its place, which its generation is the word for. -/
def Started (s : Screen R E) (l : Load) : Prop :=
  0 < l.number ∧ l.generation = UInt64.ofNat l.number ∧ s.queries[l.number - 1]? = some l.query

def start (s : Screen R E) (q : PageQuery) : Screen R E :=
  let (generation, view) := s.view.begin
  { s with
    view
    queries := s.queries ++ [q]
    running := s.running ++ [⟨s.queries.length + 1, generation, q⟩] }

/-- The fetch of a load returns, and the view makes of it what it will. -/
def finish (fetched : Load → Except Fault (Page R E)) (s : Screen R E) (l : Load) : Screen R E :=
  if l ∈ s.running then
    let (outcome, view) := s.view.complete l.generation (fetched l)
    { s with view, running := s.running.erase l, ended := s.ended ++ [(l, outcome)] }
  else s

inductive Event
  | start (q : PageQuery)
  | finish (l : Load)
  | abandon (l : Load)
  | cancel
  deriving DecidableEq, Repr

/-- The query that an event loads, if it starts a load. -/
def Event.query? : Event → Option PageQuery
  | .start q => some q
  | _ => none

def step (fetched : Load → Except Fault (Page R E)) (s : Screen R E) : Event → Screen R E
  | .start q => s.start q
  | .finish l => s.finish fetched l
  | .abandon l => { s with running := s.running.erase l }
  | .cancel => { s with view := s.view.cancel }

def run (fetched : Load → Except Fault (Page R E)) (s : Screen R E) (es : List Event) : Screen R E :=
  es.foldl (step fetched) s

end Screen

namespace View

variable {R E : Type} {v : View R E} {g : UInt64} {r : Except Fault (Page R E)}

/-- The end of a load shows its page or leaves the view as it is. -/
theorem complete_cases (v : View R E) (g : UInt64) (r : Except Fault (Page R E)) :
    (∃ o, v.complete g r = (o, v) ∧ o ≠ .ok .applied) ∨
    ∃ page, r = .ok page ∧ v.cancelled = false ∧ v.latest = g ∧
      v.complete g r = (.ok .applied, { v with applied := g, page := some page }) := by
  by_cases hcancelled : v.cancelled
  · exact .inl ⟨.ok .cancelled, by simp [complete, hcancelled], nofun⟩
  · by_cases hlatest : v.latest = g
    · cases r with
      | error f =>
        refine .inl ?_
        cases f <;> simp [complete, hcancelled, hlatest]
      | ok page =>
        refine .inr ⟨page, rfl, by simpa using hcancelled, hlatest, ?_⟩
        simp [complete, hcancelled, hlatest]
    · refine .inl ?_
      cases r with
      | error f => cases f <;> simp [complete, hcancelled, hlatest]
      | ok page => simp [complete, hcancelled, hlatest]

theorem complete_of_latest {page : Page R E} (hcancelled : v.cancelled = false) :
    v.complete v.latest (.ok page) =
      (.ok .applied, { v with applied := v.latest, page := some page }) := by
  simp [complete, hcancelled]

end View

namespace Screen

variable {R E : Type} {fetched : Load → Except Fault (Page R E)} {s : Screen R E}

/-- What holds of a screen and is kept by every event holds after every run. -/
theorem run_induction {P : Screen R E → Prop} (hs : P s) (hstep : ∀ s e, P s → P (step fetched s e))
    (es : List Event) : P (s.run fetched es) :=
  List.foldlRecOn es _ hs fun s hs e _ => hstep s e hs

/-! ## Loads -/

theorem Started.le {l : Load} (h : s.Started l) : l.number ≤ s.queries.length := by
  have hlt := (List.getElem?_eq_some_iff.1 h.2.2).1
  omega

/-- A place is the place of one load. -/
theorem Started.eq {l l' : Load} (h : s.Started l) (h' : s.Started l')
    (hnumber : l.number = l'.number) : l = l' := by
  obtain ⟨n, g, q⟩ := l
  obtain ⟨n', g', q'⟩ := l'
  obtain rfl : n = n' := hnumber
  obtain rfl : g = g' := h.2.1.trans h'.2.1.symm
  obtain rfl : q = q' := Option.some.inj (h.2.2.symm.trans h'.2.2)
  rfl

theorem Started.toNat_generation {l : Load} (h : s.Started l) (hlt : s.queries.length < UInt64.size) :
    l.generation.toNat = l.number := by
  rw [h.2.1, UInt64.toNat_ofNat_of_lt' (Nat.lt_of_le_of_lt h.le hlt)]

def next (s : Screen R E) (q : PageQuery) : Load := ⟨s.queries.length + 1, s.view.latest + 1, q⟩

theorem start_eq (s : Screen R E) (q : PageQuery) :
    s.start q = { s with
      view := { s.view with latest := s.view.latest + 1 }
      queries := s.queries ++ [q]
      running := s.running ++ [s.next q] } := rfl

/-- The end of a load adds it to those that ended. Either its page is shown, which takes the latest load
of a view that is not cancelled, or nothing else changes. -/
theorem finish_cases (fetched : Load → Except Fault (Page R E)) {l : Load} (hl : l ∈ s.running) :
    (∃ o, s.finish fetched l = { s with
        running := s.running.erase l
        ended := s.ended ++ [(l, o)] } ∧ shownGeneration? (l, o) = none ∧
      ¬(s.view.cancelled = false ∧ s.view.latest = l.generation ∧ ∃ page, fetched l = .ok page)) ∨
    ∃ page, fetched l = .ok page ∧ s.view.cancelled = false ∧ s.view.latest = l.generation ∧
      s.finish fetched l = { s with
        view := { s.view with applied := l.generation, page := some page }
        running := s.running.erase l
        ended := s.ended ++ [(l, .ok .applied)] } := by
  rcases s.view.complete_cases l.generation (fetched l) with
    ⟨o, hview, ho⟩ | ⟨page, hpage, hcancelled, hlatest, hview⟩
  · refine .inl ⟨o, by simp [finish, hl, hview], ?_, ?_⟩
    · unfold shownGeneration?
      split
      · next heq => exact absurd (congrArg Prod.snd heq) ho
      · rfl
    · rintro ⟨hcancelled, hlatest, page, hpage⟩
      rw [← hlatest, hpage, View.complete_of_latest hcancelled] at hview
      exact ho (congrArg Prod.fst hview).symm
  · exact .inr ⟨page, hpage, hcancelled, hlatest, by simp [finish, hl, hview]⟩

theorem view_finish (s : Screen R E) (fetched : Load → Except Fault (Page R E)) (l : Load) :
    (s.finish fetched l).view = s.view ∨
    ∃ page, l ∈ s.running ∧ s.view.cancelled = false ∧ s.view.latest = l.generation ∧
      (s.finish fetched l).view = { s.view with applied := l.generation, page := some page } := by
  by_cases hl : l ∈ s.running
  · rcases finish_cases fetched hl with ⟨o, heq, -, -⟩ | ⟨page, -, hcancelled, hlatest, heq⟩
    · exact .inl (by rw [heq])
    · exact .inr ⟨page, hl, hcancelled, hlatest, by rw [heq]⟩
  · exact .inl (by simp [finish, hl])

/-! ## The loads of a run -/

theorem queries_finish (s : Screen R E) (fetched : Load → Except Fault (Page R E)) (l : Load) :
    (s.finish fetched l).queries = s.queries := by
  unfold finish
  split <;> rfl

theorem queries_step (s : Screen R E) (e : Event) :
    (s.step fetched e).queries = s.queries ++ e.query?.toList := by
  cases e with
  | start q => rfl
  | finish l => simp [step, queries_finish, Event.query?]
  | abandon l => simp [step, Event.query?]
  | cancel => simp [step, Event.query?]

/-- Every load that an event starts is on record, in order. -/
theorem queries_run (s : Screen R E) (es : List Event) :
    (s.run fetched es).queries = s.queries ++ es.filterMap Event.query? :=
  foldl_record Screen.queries queries_step s es

end Screen

end LedgerExplorer
