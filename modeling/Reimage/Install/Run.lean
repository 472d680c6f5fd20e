/-
  A whole installation.

  * `runStages` runs stages one after the other until one fails;
  * `Plan.provision` checks the request, runs all stages and reports how the installation ended.
-/
import Reimage.Install.Stage

namespace Reimage

/-- A run that stopped in a stage. -/
structure RunFailure where
  stage : Stage
  error : Error

/-- What is said of a run that failed. -/
def RunFailure.text (f : RunFailure) : String := f.stage.title ++ ": " ++ f.error.message

/-- The status of a run that stopped in a stage. -/
def Stage.failureStatus : Stage → Status
  | .updateFirmware => .firmwareUpdateFailed
  | _ => .provisioningFailed

/-- Runs stages one after the other. -/
def runStages (p : Plan) : List Stage → Procedure (Except RunFailure Unit)
  | [] => pure (.ok ())
  | s :: rest => do
    Task.procedure (Task.log (.info ("State: Execute " ++ s.title)))
    match ← s.execute p with
    | .error e =>
      let e := Error.context s.title e
      Task.procedure (Task.log
        (.error ("State: " ++ s.title ++ " Failed, " ++ e.message)))
      return .error ⟨s, e⟩
    | .ok outcome =>
      Task.procedure (Task.log (.info (match outcome with
        | .completed => "State: " ++ s.title ++ " Completed"
        | .skipped reason => "State: Skip " ++ s.title ++ " " ++ reason)))
      runStages p rest

/-- Runs the stages from `first` on and gives them. -/
def runFrom (p : Plan) (first : Stage) : Procedure (Except RunFailure (List Stage)) := do
  let stages := first.itinerary p.request
  return (← runStages p stages).map fun _ => stages

/-- The report of a run that failed. -/
def RunFailure.response (dut : String) (f : RunFailure) : Response :=
  { dut := dut, status := f.stage.failureStatus
    failedState := some f.stage.title, error := some f.error.message }

/-- Checks the request, runs the whole installation and reports how it ended. A request that is
    refused never reaches the device. -/
def Plan.provision (p : Plan) : Procedure Response := do
  match p.request.validate with
  | .error e =>
    Task.procedure (Task.log (.error ("Rejecting provision request: " ++ e.message)))
    return { dut := p.link.dut, status := .rpcFailed, error := some e.message }
  | .ok () =>
    match ← runFrom p .init with
    | .error f => return f.response p.link.dut
    | .ok _ =>
      Task.procedure (Task.log
        (.info ("Provisioned " ++ p.link.dut ++ " from " ++ p.request.imagePath)))
      return { dut := p.link.dut, status := .success }

end Reimage
