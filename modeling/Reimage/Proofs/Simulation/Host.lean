/-
  Programs of the command line on a machine in memory.

  * `Host.perform`: what a program gives, and what it leaves the machine as;
  * `Host.perform_bind`, `Host.perform_run_bind`: one program after another.
-/
import Reimage.Simulation.Host

namespace Reimage.Simulation.Host

open CommandLine (Failure Terminal Work)

variable {α β : Type} {h h' : Host} {q : CommandLine.Ask}

/-- Runs a program of the command line. It has no result if it never ends. -/
def perform (h : Host) (p : Terminal α) : Option α × Host :=
  StateT.run (OptionT.run (p.interpret answer)) h

theorem perform_ask {next : q.Answer → Terminal α} : h.perform (Program.ask q next) =
    match h.answer? q with
    | some (a, h') => h'.perform (next a)
    | none => (none, h) := by
  have hanswer : (answer q).run.run h = match h.answer? q with
    | some (a, h') => (some a, h')
    | none => (none, h) := rfl
  simp only [perform, Program.interpret, OptionT.run_bind, Option.elimM, StateT.run_bind, hanswer]
  cases h.answer? q <;> rfl

/-- One program after another. -/
theorem perform_bind (p : Terminal α) (k : α → Terminal β) : h.perform (p >>= k) =
    match h.perform p with
    | (some a, h') => h'.perform (k a)
    | (none, h') => (none, h') := by
  induction p generalizing h with
  | done a => rfl
  | ask q next ih =>
    change h.perform (Program.ask q fun a => next a >>= k) = _
    rw [perform_ask, perform_ask]
    split
    · exact ih _
    · rfl

/-! ## Programs that may fail -/

/-- One after another; a failure ends them. -/
theorem perform_run_bind (w : Work α) (k : α → Work β) : h.perform (w >>= k).run =
    match h.perform w.run with
    | (some (.ok a), h') => h'.perform (k a).run
    | (some (.error e), h') => (some (.error e), h')
    | (none, h') => (none, h') := by
  rw [ExceptT.run_bind, perform_bind]
  rcases h.perform w.run with ⟨_ | e | a, h'⟩ <;> rfl

theorem perform_attempt (t : Terminal (Except SystemError α)) (failure : SystemError → Failure) :
    h.perform (Work.attempt t failure).run =
      match h.perform t with
      | (some outcome, h') => (some (outcome.mapError failure), h')
      | (none, h') => (none, h') := by
  rw [show (Work.attempt t failure).run = t >>= fun outcome => pure (outcome.mapError failure)
    from rfl, perform_bind]
  rcases h.perform t with ⟨_ | outcome, h'⟩ <;> rfl

/-- The machine with one more line printed. -/
def printLine (h : Host) (text : String) : Host :=
  { h with stdout := h.stdout ++ Text.Utf8.ofString (text ++ "\n") }

end Reimage.Simulation.Host
