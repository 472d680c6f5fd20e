/-
  The command lines of an installation.

  * `Stage.Says` lists what each stage may hand to the device, down to the partitions that are
    written or mounted;
  * `Stage.Says.spares`: a line writes or mounts partitions that are not booted, or it begins like a
    line that does neither;
  * `Spares.of_curl`, `Spares.of_mount`: so what downloads to a partition, or mounts one, is known
    by how it begins.
-/
import Reimage.Install.Run
import Reimage.Proofs.Shell

namespace Reimage

/-! ## The lines -/

namespace Plan

/-- Writes a compressed image to a partition. -/
def writeLine (url output : String) : String :=
  Shell.commandLine "curl" [url, "|", "gzip -d", "|", "dd of=" ++ output ++ " obs=2M"]

/-- Mounts a root and runs its post-install script. -/
def postInstallLine (root : String) : String := Shell.commandLine "" (postInstallScript root)

/-- Makes a root that is booted the one to boot again. -/
def keepRootLine (root : String) : String := Shell.commandLine "/postinst" [root, "2>&1"]

/-- Unpacks the stateful image. -/
def unpackLine (url : String) : String := Shell.commandLine "" (unpackStateful url)

/-- Removes what was unpacked. -/
def cleanUpLine : String :=
  Shell.commandLine "rm" ["-rf", statefulPath ++ "/var_new", statefulPath ++ "/dev_image_new",
    statefulMark]

/-- Has the next boot wipe the stateful partition. -/
def wipeLine : String := Shell.commandLine "echo" ["'fast keepimg'", ">", factoryResetMark]

/-- Takes the wish to wipe the stateful partition back. -/
def unwipeLine : String := Shell.commandLine "rm" ["-f", factoryResetMark]

/-- Transfers the image of a package into a slot. -/
def transferLine (id : String) (slot : Slot) (url : String) : String :=
  Shell.commandLine "" ["mkdir", "-p", dlcSlotDir id slot, "&&", "curl", "--output",
    dlcSlotDir id slot ++ "/" ++ dlcImage, url]

/-- Asks whether the image of a package in a slot was verified. -/
def checkLine (id : String) (slot : Slot) : String := Shell.pathExists (verifiedMark id slot)

end Plan

open Plan

/-- The command lines a stage may say while the layouts it knows of are those in `K`. -/
inductive Stage.Says (p : Plan) (K : Layout → Prop) : Stage → String → Prop
  | bootedRoot : Says p K .init "rootdev -s"
  | bootDisk : Says p K .init "rootdev -s -d"
  | wipe : p.request.preserveStateful = false → Says p K .init wipeLine
  | writeKernel {l : Layout} {url : String} : K l → p.artifactUrl kernelImage = .ok url →
    Says p K .installPartitions (writeLine url l.inactiveKernel)
  | writeRoot {l : Layout} {url : String} : K l → p.artifactUrl rootImage = .ok url →
    Says p K .installPartitions (writeLine url l.inactiveRoot)
  | stopUi : Says p K .installStateful "stop ui"
  | stopUpdates : Says p K .installStateful "stop update-engine"
  | findDlcs : Says p K .installStateful (Shell.pathExists dlcLibDir)
  | stopDlcs : Says p K .installStateful "stop dlcservice"
  | clearDlcs (slot : Slot) :
    Says p K .installStateful (Shell.commandLine "rm" ["-f", staleMarks slot])
  | startDlcs : Says p K .installStateful "start dlcservice"
  | unpack {url : String} : p.artifactUrl statefulImage = .ok url →
    Says p K .installStateful (unpackLine url)
  | cleanUp : Says p K .installStateful cleanUpLine
  | checkDlc {id : String} (slot : Slot) : id ∈ p.request.dlcIds →
    Says p K .installStateful (checkLine id slot)
  | transferDlc {id : String} (slot : Slot) (url : String) : id ∈ p.request.dlcIds →
    Says p K .installStateful (transferLine id slot url)
  | findUpdater : Says p K .updateFirmware (Shell.pathExists firmwareUpdater)
  | askStable : Says p K .updateFirmware "status system-services"
  | update : Says p K .updateFirmware
      "/usr/sbin/chromeos-firmwareupdate --wp=1 --mode=autoupdate"
  | activeSlot : Says p K .updateFirmware "crossystem mainfw_act"
  | nextSlot : Says p K .updateFirmware "crossystem fw_try_next"
  | bootFirmware : Says p K .updateFirmware "reboot"
  | firmwareResult : Says p K .updateFirmware "crossystem fw_result"
  | postInstall {l : Layout} : K l → Says p K .postInstall (postInstallLine l.inactiveRoot)
  | keepRoot {l : Layout} : K l → Says p K .postInstall (keepRootLine l.activeRoot)
  | clearTpm : Says p K .postInstall "crossystem clear_tpm_owner_request=1"
  | keepTpm : Says p K .postInstall "crossystem clear_tpm_owner_request=0"
  | reboot : p.request.preventReboot = false → Says p K .postInstall "reboot"
  | bootedAgain : Says p K .verify "rootdev -s"
  | verifyDlc {id : String} (slot : Slot) : id ∈ p.request.dlcIds →
    Says p K .verify (checkLine id slot)

/-! ## How lines begin -/

namespace Plan

theorem isPrefix_transferLine (id : String) (slot : Slot) (url : String) :
    "mkdir".toList <+: (transferLine id slot url).toList := by
  rw [transferLine, Shell.commandLine_empty]
  exact Shell.isPrefix_commandLine (by decide) _

theorem isPrefix_unpackLine (url : String) : "rm -rf".toList <+: (unpackLine url).toList := by
  rw [unpackLine, unpackStateful, Shell.commandLine_empty]
  refine List.IsPrefix.trans ?_ (Shell.isPrefix_commandLine (by decide) _)
  simp [String.toList_append]

theorem isPrefix_cleanUpLine : "rm -rf".toList <+: cleanUpLine.toList := by
  rw [cleanUpLine, Shell.commandLine_cons (by decide) (by decide), String.toList_append]
  exact (List.prefix_append_right_inj "rm ".toList).2
    (Shell.isPrefix_commandLine (by decide : "-rf".isEmpty = false) _)

theorem isPrefix_keepRootLine (root : String) :
    "/postinst".toList <+: (keepRootLine root).toList :=
  Shell.isPrefix_commandLine (by decide) _

theorem isPrefix_writeLine (url output : String) :
    "curl".toList <+: (writeLine url output).toList :=
  Shell.isPrefix_commandLine (by decide) _

theorem isPrefix_postInstallLine (root : String) :
    "tmpmnt=".toList <+: (postInstallLine root).toList := by
  rw [postInstallLine, postInstallScript, Shell.commandLine_empty]
  refine List.IsPrefix.trans ?_ (Shell.isPrefix_commandLine (by decide) _)
  decide

end Plan

/-- How the lines begin that neither write a partition nor mount one. -/
def otherStarts : List String :=
  ["rootdev -s", "echo ", "stop ", "start ", "[ -e ", "rm -f /var/", "rm -rf", "mkdir", "status ",
    "/usr/sbin/", "crossystem ", "reboot", "/postinst"]

/-- The kernel or the root that is asked for is written to the partition for it that is not
    booted. -/
def Plan.Writes (p : Plan) (l : Layout) (line : String) : Prop := ∃ url,
  (p.artifactUrl kernelImage = .ok url ∧ line = writeLine url l.inactiveKernel) ∨
    (p.artifactUrl rootImage = .ok url ∧ line = writeLine url l.inactiveRoot)

/-- A line writes or mounts partitions that are not booted, if it writes or mounts any. -/
inductive Spares (p : Plan) (K : Layout → Prop) (line : String) : Prop
  | write {l : Layout} : K l → p.Writes l line → Spares p K line
  | mount {l : Layout} : K l → line = postInstallLine l.inactiveRoot → Spares p K line
  | other (start : String) : start ∈ otherStarts → start.toList <+: line.toList → Spares p K line

theorem Stage.Says.spares {p : Plan} {K : Layout → Prop} {s : Stage} {line : String}
    (h : s.Says p K line) : Spares p K line := by
  cases h with
  | writeKernel h hurl => exact .write h ⟨_, Or.inl ⟨hurl, rfl⟩⟩
  | writeRoot h hurl => exact .write h ⟨_, Or.inr ⟨hurl, rfl⟩⟩
  | postInstall h => exact .mount h rfl
  | bootedRoot | bootDisk | bootedAgain =>
    exact .other "rootdev -s" (by simp [otherStarts]) (by decide)
  | wipe => exact .other "echo " (by simp [otherStarts]) (by decide)
  | stopUi | stopUpdates | stopDlcs => exact .other "stop " (by simp [otherStarts]) (by decide)
  | startDlcs => exact .other "start " (by simp [otherStarts]) (by decide)
  | findDlcs | checkDlc | findUpdater | verifyDlc =>
    exact .other "[ -e " (by simp [otherStarts]) (Shell.isPrefix_pathExists _)
  | clearDlcs slot => cases slot <;> exact .other "rm -f /var/" (by simp [otherStarts]) (by decide)
  | unpack => exact .other "rm -rf" (by simp [otherStarts]) (isPrefix_unpackLine _)
  | cleanUp => exact .other "rm -rf" (by simp [otherStarts]) isPrefix_cleanUpLine
  | transferDlc => exact .other "mkdir" (by simp [otherStarts]) (isPrefix_transferLine _ _ _)
  | askStable => exact .other "status " (by simp [otherStarts]) (by decide)
  | update => exact .other "/usr/sbin/" (by simp [otherStarts]) (by decide)
  | activeSlot | nextSlot | firmwareResult | clearTpm | keepTpm =>
    exact .other "crossystem " (by simp [otherStarts]) (by decide)
  | bootFirmware | reboot => exact .other "reboot" (by simp [otherStarts]) (by decide)
  | keepRoot => exact .other "/postinst" (by simp [otherStarts]) (isPrefix_keepRootLine _)

/-- No line begins with both of two texts. -/
def BeginApart (x y : String) : Prop := ¬x.toList <+: y.toList ∧ ¬y.toList <+: x.toList

instance (x y : String) : Decidable (BeginApart x y) :=
  inferInstanceAs (Decidable (_ ∧ _))

/-- Two texts that begin one line begin each other. -/
theorem BeginApart.not_isPrefix {x y line : String} (hxy : BeginApart x y)
    (hx : x.toList <+: line.toList) : ¬y.toList <+: line.toList := fun hy =>
  (List.prefix_or_prefix_of_prefix hx hy).elim hxy.1 hxy.2

/-- An installation that keeps the stateful partition does not ask for its wipe. -/
theorem Stage.Says.ne_wipeLine {p : Plan} {K : Layout → Prop} {s : Stage} {line : String}
    (h : s.Says p K line) (hkeep : p.request.preserveStateful = true) : line ≠ wipeLine := by
  intro hline
  have hecho : "echo ".toList <+: line.toList := by
    rw [hline]
    decide
  have hnot : ∀ {start : String}, start.toList <+: line.toList → ¬BeginApart start "echo " :=
    fun hstart hapart => hapart.not_isPrefix hstart hecho
  cases h with
  | wipe h =>
    rw [hkeep] at h
    cases h
  | writeKernel | writeRoot => exact hnot (isPrefix_writeLine _ _) (by decide)
  | postInstall => exact hnot (isPrefix_postInstallLine _) (by decide)
  | keepRoot => exact hnot (isPrefix_keepRootLine _) (by decide)
  | findDlcs | checkDlc | findUpdater | verifyDlc =>
    exact hnot (Shell.isPrefix_pathExists _) (by decide)
  | clearDlcs => exact hnot (Shell.isPrefix_commandLine (by decide) _) (by decide)
  | unpack => exact hnot (isPrefix_unpackLine _) (by decide)
  | cleanUp => exact hnot isPrefix_cleanUpLine (by decide)
  | transferDlc => exact hnot (isPrefix_transferLine _ _ _) (by decide)
  | _ => revert hline; decide

theorem Plan.Writes.isPrefix {p : Plan} {l : Layout} {line : String} (h : p.Writes l line) :
    "curl".toList <+: line.toList := by
  obtain ⟨url, ⟨-, rfl⟩ | ⟨-, rfl⟩⟩ := h <;> exact isPrefix_writeLine _ _

namespace Spares

variable {p : Plan} {K : Layout → Prop} {line : String}

/-- A line that does not begin like any other one writes a partition or mounts one. -/
theorem of_isPrefix {x : String} (h : Spares p K line) (hx : x.toList <+: line.toList)
    (ho : ∀ start ∈ otherStarts, BeginApart start x) :
    (∃ l, K l ∧ p.Writes l line) ∨ ∃ l, K l ∧ line = postInstallLine l.inactiveRoot := by
  cases h with
  | write hl h => exact Or.inl ⟨_, hl, h⟩
  | mount hl h => exact Or.inr ⟨_, hl, h⟩
  | other start hs h => exact absurd hx ((ho start hs).not_isPrefix h)

/-- A download that is not kept as a file is written to a partition that is not booted. -/
theorem of_curl (h : Spares p K line) (hc : "curl ".toList <+: line.toList) :
    ∃ l, K l ∧ p.Writes l line := by
  have hapart : BeginApart "tmpmnt=" "curl " := by decide
  obtain h | ⟨l, -, rfl⟩ := h.of_isPrefix hc (by decide)
  · exact h
  · exact absurd hc (hapart.not_isPrefix (isPrefix_postInstallLine _))

/-- What is mounted is the root that is not booted. -/
theorem of_mount (h : Spares p K line) (hm : "tmpmnt=".toList <+: line.toList) :
    ∃ l, K l ∧ line = postInstallLine l.inactiveRoot := by
  have hapart : BeginApart "curl" "tmpmnt=" := by decide
  obtain ⟨l, -, hwrite⟩ | h := h.of_isPrefix hm (by decide)
  · exact absurd hm (hapart.not_isPrefix hwrite.isPrefix)
  · exact h

/-- The wish to wipe the stateful partition is not taken back. -/
theorem ne_unwipeLine (h : Spares p K line) : line ≠ unwipeLine := by
  rintro rfl
  have hu : "rm -f /mnt/".toList <+: unwipeLine.toList := by decide
  have hwrite : BeginApart "curl" "rm -f /mnt/" := by decide
  have hmount : BeginApart "tmpmnt=" "rm -f /mnt/" := by decide
  obtain ⟨l, -, h⟩ | ⟨l, -, h⟩ := h.of_isPrefix hu (by decide)
  · exact hwrite.not_isPrefix h.isPrefix hu
  · rw [h] at hu
    exact hmount.not_isPrefix (isPrefix_postInstallLine _) hu

end Spares

end Reimage
