/-
  Command lines for the shell of a device. No quoting is applied: whoever composes a command is
  responsible for what the shell makes of it.
-/
import Reimage.Text.Blank

namespace Reimage.Shell

/-- A command and its arguments on one line; empty parts are left out. -/
def commandLine (command : String) (args : List String) : String :=
  Text.join " " ((command :: args).filter fun part => !part.isEmpty)

/-- A test that prints `1` when `path` exists and `0` otherwise. -/
def pathExists (path : String) : String :=
  "[ -e " ++ path ++ " ] && echo -n 1 || echo -n 0"

end Reimage.Shell
