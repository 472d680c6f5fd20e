/-
  The removal of the marks of packages, taken apart.

  * `Plan.findDlcs`: first the directory of the packages is looked for;
  * `Plan.clearMarks`: then, once the slot is known, the marks in it are removed while the package
    service is stopped.
-/
import Reimage.Install.Plan
import Reimage.Proofs.Runs

namespace Reimage.Plan

variable {p : Plan}

/-- Looks for the directory of the packages. -/
def findDlcs (p : Plan) : Task (Result Unit) := do
  match (← p.link.pathExists dlcLibDir).within "failed path existence" with
  | .error e => return .error e
  | .ok false => return .error (.notFound ("DLC path " ++ dlcLibDir))
  | .ok true => return .ok ()

/-- Removes the marks in a slot and starts the package service again. -/
def clearStopped (p : Plan) (slot : Slot) : Task (Result Unit) := do
  Task.ask (.guard (.startDaemon "dlcservice"))
  let cleared := (← p.run "rm" ["-f", staleMarks slot]).within
    "failed remove inactive verified DLCs"
  Task.ask .unguard
  if let .error e ← p.run "start" ["dlcservice"] then
    Task.log (.warn ("failed to start dlcservice daemon, " ++ e.message))
  return cleared

/-- Removes the marks in a slot, with the package service stopped meanwhile. -/
def clearMarks (p : Plan) (slot : Slot) : Task (Result Unit) := do
  if let .error e ← p.run "stop" ["dlcservice"] then
    Task.log (.warn ("clear DLC artifacts: failed to stop dlcservice daemon, " ++ e.message))
  p.clearStopped slot

theorem clearDlcArtifacts_eq : p.clearDlcArtifacts =
    p.findDlcs.andThen fun _ => startSlot.andThen fun slot => p.clearMarks slot.other := by
  rw [findDlcs, Task.andThen, Program.bind_assoc]
  refine congrArg (Program.bind _) (funext fun found => ?_)
  dsimp only
  rcases Result.within "failed path existence" found with e | ⟨_ | _⟩
  · rfl
  · rfl
  · rfl

end Reimage.Plan
