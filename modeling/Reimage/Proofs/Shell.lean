/-
  Command lines, word by word.

  * `commandLine_cons`, `commandLine_empty`: the first word and the rest;
  * `isPrefix_commandLine`: a line begins with its first word.
-/
import Reimage.Shell

namespace Reimage.Shell

@[simp] theorem commandLine_nil (command : String) : commandLine command [] = command := by
  cases h : command.isEmpty
  · simp [commandLine, Text.join, h]
  · simp [commandLine, Text.join, String.isEmpty_iff.1 h]

theorem commandLine_empty (first : String) (args : List String) :
    commandLine "" (first :: args) = commandLine first args := by
  simp [commandLine]

theorem commandLine_cons {first second : String} (h : first.isEmpty = false)
    (h' : second.isEmpty = false) (args : List String) :
    commandLine first (second :: args) = first ++ " " ++ commandLine second args := by
  simp [commandLine, Text.join, h, h']

theorem isPrefix_commandLine {first : String} (h : first.isEmpty = false) (args : List String) :
    first.toList <+: (commandLine first args).toList := by
  rw [commandLine, Text.join, List.filter_cons_of_pos (by simp [h])]
  cases args.filter fun part => !part.isEmpty <;> simp [String.toList_append]

/-- What the rest begins with comes after the first part. -/
theorem isPrefix_commandLine_cons {first second start : String} {args : List String}
    (h : first.isEmpty = false) (h' : second.isEmpty = false)
    (hstart : start.toList <+: (commandLine second args).toList) :
    (first ++ " " ++ start).toList <+: (commandLine first (second :: args)).toList := by
  simp only [commandLine_cons h h', String.toList_append]
  exact (List.prefix_append_right_inj _).2 hstart

theorem isPrefix_pathExists (path : String) : "[ -e ".toList <+: (pathExists path).toList := by
  simp [pathExists, String.toList_append]

end Reimage.Shell
