import LedgerExplorer.CommandLine.Run

/-!
# Results of commands

What a command comes to when its dialogue is held with given answers, and which URLs it asks for. A
command that is put together from others comes to what these come to, one after the other.
-/

namespace LedgerExplorer

variable {α β ε : Type} {files : String → Except FileError String} {replies : String → HttpReply}

/-- The URLs of both parts are asked for, those of the first part first. -/
theorem Dialogue.run_bind (x : Dialogue α) (f : α → Dialogue β) :
    (x.bind f).run files replies =
      (((f (x.run files replies).1).run files replies).1,
        (x.run files replies).2 ++ ((f (x.run files replies).1).run files replies).2) := by
  induction x with
  | done a => rfl
  | readFile path next ih => exact ih (files path)
  | get url next ih =>
    change (_, url :: _) = _
    rw [ih (replies url)]
    rfl

namespace CommandLine

/-- What a command comes to with these files and replies. -/
def result (files : String → Except FileError String) (replies : String → HttpReply)
    (x : CommandM α) : Except CommandError α :=
  (x.run.run files replies).1

theorem result_bind (x : CommandM α) (f : α → CommandM β) :
    result files replies (x >>= f) =
      match result files replies x with
      | .ok a => result files replies (f a)
      | .error e => .error e := by
  change (Dialogue.run files replies (Dialogue.bind x.run _)).1 = _
  rw [Dialogue.run_bind]
  unfold result
  cases hx : (x.run.run files replies).1 with
  | error e => rfl
  | ok a => rfl

theorem result_bind_eq_ok_iff {x : CommandM α} {f : α → CommandM β} {b : β} :
    result files replies (x >>= f) = .ok b ↔
      ∃ a, result files replies x = .ok a ∧ result files replies (f a) = .ok b := by
  rw [result_bind]
  cases result files replies x with
  | error e => simp
  | ok a => simp

/-- The URLs that a command asks for with these files and replies, in order. -/
def urls (files : String → Except FileError String) (replies : String → HttpReply)
    (x : CommandM α) : List String :=
  (x.run.run files replies).2

theorem urls_bind (x : CommandM α) (f : α → CommandM β) :
    urls files replies (x >>= f) = urls files replies x ++
      match result files replies x with
      | .ok a => urls files replies (f a)
      | .error _ => [] := by
  change (Dialogue.run files replies (Dialogue.bind x.run _)).2 = _
  rw [Dialogue.run_bind]
  unfold result urls
  cases hx : (x.run.run files replies).1 with
  | error e => rfl
  | ok a => rfl

theorem urls_bind_of_silent {f : α → CommandM β} (hf : ∀ a, urls files replies (f a) = [])
    (x : CommandM α) : urls files replies (x >>= f) = urls files replies x := by
  rw [urls_bind]
  cases result files replies x with
  | ok a => exact (congrArg _ (hf a)).trans (List.append_nil _)
  | error e => exact List.append_nil _

theorem urls_bind_eq_nil {x : CommandM α} {f : α → CommandM β} (hx : urls files replies x = [])
    (hf : ∀ a, urls files replies (f a) = []) : urls files replies (x >>= f) = [] :=
  (urls_bind_of_silent hf x).trans hx

theorem run_liftM (x : Dialogue α) :
    (liftM x : CommandM α).run.run files replies =
      (.ok (x.run files replies).1, (x.run files replies).2) := by
  refine (Dialogue.run_bind x fun a => Dialogue.done (Except.ok a)).trans ?_
  exact congrArg (Prod.mk _) (List.append_nil _)

theorem result_liftM (x : Dialogue α) :
    result files replies (liftM x) = .ok (x.run files replies).1 := congrArg Prod.fst (run_liftM x)

theorem urls_liftM (x : Dialogue α) : urls files replies (liftM x) = (x.run files replies).2 :=
  congrArg Prod.snd (run_liftM x)

theorem urls_orFail (r : Except ε α) (f : ε → CommandError) :
    urls files replies (orFail r f) = [] := by
  cases r <;> rfl

theorem urls_orElse (o : Option α) (e : CommandError) : urls files replies (orElse o e) = [] := by
  cases o <;> rfl

theorem result_orFail (r : Except ε α) (f : ε → CommandError) :
    result files replies (orFail r f) = r.mapError f := by
  cases r with
  | error e => rfl
  | ok a => rfl

end CommandLine

end LedgerExplorer
