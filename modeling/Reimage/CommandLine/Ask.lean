/-
  What the command line asks of the machine it runs on.

  * `Terminal` is a program that uses files, prints, and works on a device;
  * `Work` may also fail, with a message and the causes to be named below it.
-/
import Reimage.Config.Document
import Reimage.SystemError

namespace Reimage.CommandLine

/-- One question of the command line. -/
inductive Ask
  | readFile (path : String)
  | writeFile (path : String) (contents : List UInt8)
  /-- Add to the end of a file. -/
  | appendFile (path : String) (data : List UInt8)
  /-- Make a directory with all those above it. -/
  | createDirs (path : String)
  /-- Whether a path leads anywhere. -/
  | pathExists (path : String)
  | print (bytes : List UInt8)
  | printError (bytes : List UInt8)
  /-- From now on, work on the device of a configuration. -/
  | use (c : Config)
  | device (q : Call)
  /-- End without a result, because of a defect. -/
  | abort (message : String)

/-- The answer to a question. -/
abbrev Ask.Answer : Ask → Type
  | readFile _ => Except SystemError (List UInt8)
  | writeFile _ _ | appendFile _ _ | createDirs _ => Except SystemError Unit
  | pathExists _ => Bool
  | print _ | printError _ | use _ => Unit
  | device q => q.Answer
  | abort _ => Empty

/-- A program that uses the machine. -/
abbrev Terminal := Program Ask Ask.Answer

/-- Asks one question. -/
def Terminal.ask (q : Ask) : Terminal q.Answer := Program.query q

/-- Every procedure is a program that uses the machine. -/
def ofProcedure {α : Type} (p : Procedure α) : Terminal α :=
  Program.substitute (fun q => Terminal.ask (.device q)) p

instance : MonadLift Procedure Terminal where
  monadLift := ofProcedure

/-- Why a command failed. -/
structure Failure where
  message : String
  /-- What led to it, the nearest cause first. -/
  causes : List String := []
  deriving DecidableEq, Repr, Inhabited

namespace Failure

/-- The failure that an error is. -/
def ofError (e : Error) : Failure := ⟨e.message, e.causes⟩

/-- The failure of an operation on a file, where `text` says what it was for. -/
def ofSystem (text : String) (e : SystemError) : Failure := ⟨text, [e.text]⟩

/-- A cause with its first line after `start` and all others after blanks. -/
def indented (start blanks cause : String) : String :=
  start ++ Text.join ("\n" ++ blanks) (Text.split '\n' cause)

/-- The causes, with numbers if there are several. -/
def causeTexts : List String → List String
  | [cause] => [indented "    " "    " cause]
  | causes => causes.zipIdx.map fun (cause, n) =>
    let number := toString n
    indented (String.ofList (List.replicate (5 - number.length) ' ') ++ number ++ ": ") "       "
      cause

/-- What is shown of a failure. -/
def report (f : Failure) : String :=
  "Error: " ++ f.message
    ++ (if f.causes.isEmpty then ""
      else "\n\nCaused by:\n" ++ Text.join "\n" (causeTexts f.causes))
    ++ "\n"

end Failure

/-- A program that uses the machine and may fail. -/
abbrev Work := ExceptT Failure Terminal

namespace Work

/-- Asks one question. -/
def ask (q : Ask) : Work q.Answer := ExceptT.lift (Terminal.ask q)

/-- Asks for something that may be refused; `failure` says what that means. -/
def attempt {α : Type} (t : Terminal (Except SystemError α)) (failure : SystemError → Failure) :
    Work α :=
  ExceptT.mk do return (← t).mapError failure

/-- Does something that may fail. -/
def check {α : Type} (t : Terminal (Result α)) : Work α :=
  ExceptT.mk do return (← t).mapError Failure.ofError

/-- Prints a line. -/
def printLine (text : String) : Work Unit := ask (.print (Text.Utf8.ofString (text ++ "\n")))

/-- Does something else afterwards, whether it failed or not. -/
def andFinally {α : Type} (w : Work α) (last : Terminal Unit) : Work α :=
  ExceptT.mk do
    let result ← w.run
    last
    return result

end Work

/-- The text that the contents of a file are. -/
def text (contents : List UInt8) : Except SystemError String :=
  match Text.Utf8.toString? contents with
  | some text => .ok text
  | none => .error .notText

/-- Reads a file of text. -/
def readText (path : String) : Terminal (Except SystemError String) := do
  return Except.bind (← Terminal.ask (.readFile path)) text

end Reimage.CommandLine
