/-
  Configurations in files.

  * `Config.IsValid`: what a configuration must be to work with, and `Config.validate_eq_ok_iff`:
    that is what is checked;
  * `Host.perform_loadConfig`, `Host.perform_save_eq_ok_iff`: what loading and saving do to the
    machine;
  * `loadConfig_of_save`: a configuration that was saved is loaded as it was.
-/
import Reimage.Proofs.Config.Document
import Reimage.Proofs.Simulation.FileTree
import Reimage.Proofs.Simulation.Host
import Reimage.Proofs.Text.Blank
import Reimage.Proofs.Text.Utf8

namespace Reimage

/-! ## Validity -/

/-- It names a device, and there is time for reboots. -/
structure Config.IsValid (c : Config) : Prop where
  name : ¬ Text.Blank c.dut.name.toList
  reboot : c.rebootTimeoutSecs ≠ 0
  firmwareReboot : c.firmwareRebootTimeoutSecs ≠ 0

/-- Only of white space nothing is left by trimming. -/
theorem Text.trimChars_eq_nil_iff {s : List Char} : trimChars s = [] ↔ Blank s := by
  constructor
  · intro h
    obtain ⟨u, v, hs, hu, hv⟩ := exists_trimChars s
    rw [h, List.append_nil] at hs
    rw [hs]
    exact fun c hc => (List.mem_append.1 hc).elim (hu c) (hv c)
  · intro h
    have hpad := trimChars_pad (u := s) (s := []) (v := []) h (by simp [Blank])
    rwa [List.append_nil, List.append_nil] at hpad

theorem Config.validate_eq_ok_iff {c : Config} : c.validate = .ok () ↔ c.IsValid := by
  simp only [validate, List.isEmpty_iff]
  split
  next h =>
    refine iff_of_false nofun fun hvalid => hvalid.name ?_
    exact Text.trimChars_eq_nil_iff.1 h
  next h =>
    have hname := mt Text.trimChars_eq_nil_iff.2 h
    split
    next hzero =>
      simp only [Bool.or_eq_true, decide_eq_true_eq] at hzero
      refine iff_of_false nofun fun hvalid => ?_
      exact hzero.elim hvalid.firmwareReboot hvalid.reboot
    next hzero =>
      simp only [Bool.or_eq_true, decide_eq_true_eq, not_or] at hzero
      exact iff_of_true rfl ⟨hname, hzero.2, hzero.1⟩

/-- A configuration without a device is refused first. -/
theorem Config.validate_of_blank {c : Config} (h : Text.Blank c.dut.name.toList) :
    c.validate = .error (.config "dut.name must not be empty") := by
  rw [validate, Text.trimChars_eq_nil_iff.2 h]
  rfl

/-- Any other configuration is refused as such. -/
theorem Config.validate_eq_error {c : Config} (h : ¬ c.IsValid) :
    ∃ reason, c.validate = .error (.config reason) := by
  have hnot := mt validate_eq_ok_iff.1 h
  rw [validate] at hnot ⊢
  split_ifs at hnot ⊢
  · exact ⟨_, rfl⟩
  · exact ⟨_, rfl⟩
  · exact absurd rfl hnot

namespace Simulation.Host

open CommandLine (Terminal loadConfig save)

variable {h h' : Host} {path contents : String} {c : Config} {hosts : List (String × String)}

/-! ## Loading and saving -/

theorem perform_loadConfig (h : Host) (path : String) : h.perform (loadConfig path) =
    (some (Config.load path
      ((Except.bind (h.files.read path) CommandLine.text).mapError SystemError.text)), h) := rfl

/-- What is saved is written to the file, in a directory that is there then. -/
theorem perform_save_eq_ok_iff : h.perform (save path contents) = (some (.ok ()), h') ↔
    ∃ files files', h.files.createDirs (Path.parent path) = (files, .ok ()) ∧
      files.write path (Text.Utf8.ofString contents) = .ok files' ∧
      h' = { h with files := files' } := by
  have hdirs : h.perform (Terminal.ask (.createDirs (Path.parent path))) =
      (some (h.files.createDirs (Path.parent path)).2,
        { h with files := (h.files.createDirs (Path.parent path)).1 }) := rfl
  have hfile (files : FileTree) : ({ h with files := files } : Host).perform
      (Terminal.ask (.writeFile path (Text.Utf8.ofString contents))) =
      (some (({ h with files := files } : Host).changed
        (files.write path (Text.Utf8.ofString contents))).1,
        (({ h with files := files } : Host).changed
          (files.write path (Text.Utf8.ofString contents))).2) := rfl
  rw [save, perform_bind, hdirs]
  obtain ⟨files, outcome⟩ := h.files.createDirs (Path.parent path)
  cases outcome with
  | error e =>
    refine iff_of_false (fun hsave => by cases hsave) ?_
    rintro ⟨_, _, hmade, -⟩
    cases hmade
  | ok =>
    simp only [hfile]
    constructor
    · intro hsave
      cases hwrite : files.write path (Text.Utf8.ofString contents) with
      | error e =>
        rw [hwrite] at hsave
        cases hsave
      | ok files' =>
        rw [hwrite] at hsave
        cases hsave
        exact ⟨files, files', rfl, hwrite, rfl⟩
    · rintro ⟨_, files', ⟨⟩, hwrite, rfl⟩
      rw [hwrite]
      rfl

/-- What was saved is read from the same files, and checked. -/
theorem perform_loadConfig_of_save (hnan : c.dialRetry.multiplier.isNaN = false)
    (hhosts : hosts.Perm c.hosts.entries)
    (hsave : h.perform (save path (c.document hosts)) = (some (.ok ()), h'))
    (hfile : h'.files.node path ≠ .ok .sink) (later : Host) (hsame : later.files = h'.files) :
    later.perform (loadConfig path) =
      (some (Result.within ("config file " ++ path) (c.validate.map fun _ => c)), later) := by
  obtain ⟨files, files', -, hwrite, rfl⟩ := perform_save_eq_ok_iff.1 hsave
  have hread : later.files.read path = .ok (Text.Utf8.ofString (c.document hosts)) := by
    rw [hsame]
    exact FileTree.read_of_write hwrite hfile
  rw [perform_loadConfig, hread, ← Config.parse_document hnan hhosts]
  simp only [Except.bind, CommandLine.text, Text.Utf8.toString?_ofString]
  rfl

/-- **A configuration that was saved is loaded as it was if it can be worked with, and refused
    otherwise**, in whatever order its hosts were written. -/
theorem loadConfig_of_save (hnan : c.dialRetry.multiplier.isNaN = false)
    (hhosts : hosts.Perm c.hosts.entries)
    (hsave : h.perform (save path (c.document hosts)) = (some (.ok ()), h'))
    (hfile : h'.files.node path ≠ .ok .sink) :
    (c.IsValid → h'.perform (loadConfig path) = (some (.ok c), h')) ∧
      (¬ c.IsValid → ∃ reason, h'.perform (loadConfig path) =
        (some (.error (.context ("config file " ++ path) (.config reason))), h')) := by
  rw [perform_loadConfig_of_save hnan hhosts hsave hfile h' rfl]
  constructor
  · intro hvalid
    rw [Config.validate_eq_ok_iff.2 hvalid]
    rfl
  · intro hvalid
    obtain ⟨reason, hreason⟩ := Config.validate_eq_error hvalid
    rw [hreason]
    exact ⟨reason, rfl⟩

/-- Every text of this configuration would be read as something else, or as more than one thing, if
    it were written as it is. -/
def awkward : Config where
  dut := { name := "no", user := " root ", sshKey := some "null" }
  hosts := { entries := [("- x", "'"), ("1e3", "\n two\nlines\n\n")], sorted := by decide }
  cacheAddress := "http: //proxy #1"
  serializerPath := "---"
  dialRetry := { multiplier := .infinity true }

/-- A machine without files. -/
def bare : Host := { files := {}, user := { home := "/root" } }

/-- A machine with a single file. -/
def withFile (contents : String) : Host :=
  { files := ({} : FileTree).insertFile ["duts.yml"] (Text.Utf8.ofString contents)
    user := { home := "/root" } }

theorem locate_single : ({} : FileTree).locate "duts.yml" = .ok ["duts.yml"] := by decide +kernel

theorem endsInSlash_single : Path.endsInSlash "duts.yml" = false := by decide +kernel

theorem perform_save_single (contents : String) :
    bare.perform (save "duts.yml" contents) = (some (.ok ()), withFile contents) := by
  have hdirs : ({} : FileTree).createDirs (Path.parent "duts.yml") = ({}, .ok ()) := by
    decide +kernel
  refine perform_save_eq_ok_iff.2 ⟨{}, (withFile contents).files, hdirs, ?_, rfl⟩
  simp only [FileTree.write, FileTree.update, endsInSlash_single, locate_single]
  rfl

theorem node_withFile (contents : String) :
    (withFile contents).files.node "duts.yml" = .ok (.file 0) := by
  have hsame : FileTree.SamePaths {} (withFile contents).files :=
    FileTree.samePaths_insertFile rfl
  have hlocate := (FileTree.locate_of_samePaths hsame).2 locate_single
  simp only [FileTree.node, hlocate, bind, Except.bind]
  rfl

/-- Its hosts, against the order of their names. -/
def backwards : List (String × String) := [("1e3", "\n two\nlines\n\n"), ("- x", "'")]

theorem loadConfig_of_save_awkward :
    awkward.dialRetry.multiplier.isNaN = false ∧ backwards.Perm awkward.hosts.entries ∧
      bare.perform (save "duts.yml" (awkward.document backwards)) =
        (some (.ok ()), withFile (awkward.document backwards)) ∧
      (withFile (awkward.document backwards)).files.node "duts.yml" ≠ .ok .sink ∧
      awkward.IsValid ∧
      (withFile (awkward.document backwards)).perform (loadConfig "duts.yml") =
        (some (.ok awkward), withFile (awkward.document backwards)) := by
  have hnan : awkward.dialRetry.multiplier.isNaN = false := by decide
  have hhosts : backwards.Perm awkward.hosts.entries := .swap _ _ _
  have hsave := perform_save_single (awkward.document backwards)
  have hsink : (withFile (awkward.document backwards)).files.node "duts.yml" ≠ .ok .sink := by
    rw [node_withFile]
    nofun
  have hvalid : awkward.IsValid := ⟨by decide, by decide, by decide⟩
  exact ⟨hnan, hhosts, hsave, hsink, hvalid,
    (loadConfig_of_save hnan hhosts hsave hsink).1 hvalid⟩

end Simulation.Host

end Reimage
