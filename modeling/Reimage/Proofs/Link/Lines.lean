/-
  What a link asks.

  * `Link.asks_connection`: to find its connection a link asks for no more than it has to;
  * `Link.asks_exec`: to run a command line it asks for its connection and runs that line;
  * `Link.utters_runCommand`: so it hands in the command lines it is given, and no others.
-/
import Reimage.Link.Basic
import Reimage.Proofs.Asks
import Reimage.Proofs.Shell

namespace Reimage

/-- The questions by which a link finds its connection. -/
def Ask.Connects : Ask → Prop
  | .isClosed | .current | .install _ | .acquire | .release | .dial | .disconnect _ => True
  | _ => False

theorem Ask.Connects.utters {S : String → Prop} {q : Ask} (h : q.Connects) : q.Utters S := by
  cases q <;> trivial

namespace Link

/-! ## Running a command line -/

section

variable {R : (q : Ask) → q.Answer → Prop} {P : Ask → Prop} (l : Link)

theorem asks_install (hP : ∀ q, q.Connects → P q) (c : Connection) : (l.install c).Asks R P := by
  refine .bind (.query (hP _ trivial)) fun done => ?_
  cases done
  · exact .ask (hP _ trivial) fun _ _ => .done _
  · exact .done _

theorem asks_connection (hP : ∀ q, q.Connects → P q) : l.connection.Asks R P := by
  refine .bind (.query (hP _ trivial)) fun closed => ?_
  split
  · exact .done _
  refine .bind (.query (hP _ trivial)) fun c => ?_
  split
  · exact .done _
  -- The lock is held from here on.
  refine .bind (.query (hP _ trivial)) fun _ => ?_
  refine .bind (.query (hP _ trivial)) fun c => ?_
  split
  · exact .ask (hP _ trivial) fun _ _ => .done _
  refine .bind (.query (hP _ trivial)) fun c => ?_
  split
  · exact .ask (hP _ trivial) fun _ _ => .done _
  · refine .bind (l.asks_install hP _) fun _ => ?_
    exact .ask (hP _ trivial) fun _ _ => .done _

variable {l} {command : String} {args : List String} {stdin : Option (List UInt8)}
  {mode : StderrMode}

theorem asks_exec (hP : ∀ q, q.Connects → P q) (h : ∀ c, P (.run c command stdin mode)) :
    (l.exec command stdin mode).Asks R P := by
  refine .bind (l.asks_connection hP) fun connected => ?_
  cases connected with
  | error e => exact .done _
  | ok c => exact .bind (.query (h c)) fun _ => .done _

theorem asks_runCommand (hP : ∀ q, q.Connects → P q)
    (h : ∀ c, P (.run c (Shell.commandLine command args) stdin mode)) :
    (l.runCommand command args stdin mode).Asks R P :=
  .bind (asks_exec hP h) fun _ => .done _

end

/-! ## What a link hands in -/

variable {K : Layout → Prop} {S : String → Prop} (l : Link)

theorem utters_install (c : Connection) : (l.install c).Utters K S :=
  l.asks_install (fun _ h => h.utters) c

theorem utters_connection : l.connection.Utters K S := l.asks_connection fun _ h => h.utters

variable {l}

theorem utters_runCommand {command : String} {args : List String} {stdin : Option (List UInt8)}
    {mode : StderrMode} (h : S (Shell.commandLine command args)) :
    (l.runCommand command args stdin mode).Utters K S :=
  asks_runCommand (fun _ h => h.utters) fun _ => h

theorem utters_pathExists {path : String} (h : S (Shell.pathExists path)) :
    (l.pathExists path).Utters K S :=
  Task.utters_map (utters_runCommand (by rwa [Shell.commandLine_nil]))

theorem utters_redial (l : Link) (timeout : Duration) (deadline : Instant) :
    (l.redial timeout deadline).Utters K S := by
  refine Program.Asks.bind (Task.utters_ask trivial) fun _ => ?_
  refine Program.Asks.bind (Task.utters_ask trivial) fun dialed => ?_
  match dialed with
  | none =>
    exact .ask trivial fun _ _ => .ask trivial fun _ _ => .done _
  | some (.error e) => exact .ask trivial fun _ _ => .done _
  | some (.ok c) =>
    refine Program.Asks.bind (Task.utters_andThen (l.utters_install c) fun _ => ?_) fun _ => ?_
    · exact .ask trivial fun _ _ => .done _
    · exact .ask trivial fun _ _ => .done _

theorem utters_deadline (d : Duration) : (Task.deadline d).Utters K S := by
  refine Program.Asks.bind (Task.utters_ask trivial) fun now => ?_
  split
  · exact .done _
  · exact .ask trivial fun never _ => nomatch never

/-- The part of a restart that comes after its command. -/
theorem utters_restarted {timeout : Duration} {deadline : Instant} {old : Connection}
    {output : String} : Task.Utters K S (do
      Task.log (.info
        ("Reboot issued on " ++ l.dut ++ ", waiting for the connection to drop"))
      match ← Task.ask (.awaitCloseBefore old deadline) with
      | none =>
        Task.log (.warn (l.dut ++ " did not go down within " ++ timeout.text))
        return (.error (.rebootTimeout timeout) : Result String)
      | some (.error e) => return .error e
      | some (.ok ()) =>
        (l.redial timeout deadline).andThen fun _ => pure (.ok output)) := by
  refine Program.Asks.bind (Task.utters_ask trivial) fun _ => ?_
  refine Program.Asks.bind (Task.utters_ask trivial) fun dropped => ?_
  match dropped with
  | none => exact .ask trivial fun _ _ => .done _
  | some (.error e) => exact .done _
  | some (.ok ()) => exact Task.utters_andThen (l.utters_redial _ _) fun _ => .done _

theorem utters_restart {args : List String} {timeout : Duration}
    (h : S (Shell.commandLine "reboot" args)) : (l.restart args timeout).Utters K S := by
  refine Program.Asks.bind (utters_deadline timeout) fun deadline => ?_
  refine Task.utters_andThen l.utters_connection fun old => ?_
  exact Task.utters_andThen (utters_runCommand h) fun _ => utters_restarted

end Link

end Reimage
