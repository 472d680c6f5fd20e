/-
  The configurations that the command line works with and writes.

  * `Config.isValid_of_load`: what is loaded from a file is valid;
  * `DeviceChoice.isValid_of_choose`: a device that is named replaces the configured one unchecked;
  * `perform_writeTo_eq_ok_iff`, `perform_write_eq_ok_iff`: what writing a new configuration does to
    the machine, and where it is written;
  * `isValid_of_configuration`: a configuration is valid, and one that was written can be loaded,
    exactly if no blank device is named.
-/
import Reimage.Proofs.Config.File

namespace Reimage

variable {c : Config}

/-! ## Sources of configurations -/

theorem Config.isValid_of_parse {text : String} (h : Config.parse text = .ok c) : c.IsValid := by
  unfold Config.parse at h
  split at h
  · cases h
  next d _ =>
    cases hvalidate : d.validate with
    | error e =>
      rw [hvalidate] at h
      cases h
    | ok =>
      rw [hvalidate] at h
      cases h
      exact Config.validate_eq_ok_iff.1 hvalidate

theorem Config.isValid_of_load {path : String} {contents : Except String String}
    (h : Config.load path contents = .ok c) : c.IsValid := by
  cases contents with
  | error reason => cases h
  | ok text =>
    cases hparse : Config.parse text with
    | error e =>
      rw [Config.load, hparse] at h
      cases h
    | ok d =>
      rw [Config.load, hparse] at h
      cases h
      exact Config.isValid_of_parse hparse

/-- The name of the device is all that can be wrong with a configuration that has time for
    reboots. -/
theorem Config.isValid_iff (hreboot : c.rebootTimeoutSecs ≠ 0)
    (hfirmware : c.firmwareRebootTimeoutSecs ≠ 0) : c.IsValid ↔ ¬ Text.Blank c.dut.name.toList :=
  ⟨fun h => h.name, fun h => ⟨h, hreboot, hfirmware⟩⟩

namespace CommandLine

theorem NewConfig.isValid_config (n : NewConfig) :
    n.config.IsValid ↔ ¬ Text.Blank n.dut.toList :=
  Config.isValid_iff (by decide : (120 : UInt64) ≠ 0) (by decide : (300 : UInt64) ≠ 0)

/-- **There is always time for reboots, but the name of a device that is named on the command line
    is not checked.** -/
theorem DeviceChoice.isValid_of_choose {d : DeviceChoice} {loaded : Result Config}
    (hloaded : ∀ e, loaded = .ok e → e.IsValid) (h : d.choose loaded = .ok c) :
    c.rebootTimeoutSecs ≠ 0 ∧ c.firmwareRebootTimeoutSecs ≠ 0 ∧
      (c.IsValid ↔ ∀ dut, d.dut = some dut → ¬ Text.Blank dut.toList) := by
  have hnamed {dut : String} (hdut : d.dut = some dut) (hname : c.dut.name = dut)
      (hreboot : c.rebootTimeoutSecs ≠ 0) (hfirmware : c.firmwareRebootTimeoutSecs ≠ 0) :
      c.IsValid ↔ ∀ dut, d.dut = some dut → ¬ Text.Blank dut.toList := by
    rw [Config.isValid_iff hreboot hfirmware, hname, hdut]
    simp
  cases loaded with
  | ok e =>
    have he := hloaded e rfl
    cases hdut : d.dut with
    | none =>
      simp only [choose, hdut] at h
      cases h
      exact ⟨he.reboot, he.firmwareReboot, iff_of_true he nofun⟩
    | some dut =>
      simp only [choose, hdut] at h
      cases h
      exact hdut ▸ ⟨he.reboot, he.firmwareReboot, hnamed hdut rfl he.reboot he.firmwareReboot⟩
  | error e =>
    cases hdut : d.dut with
    | none =>
      simp only [choose, hdut] at h
      cases h
    | some dut =>
      cases hconfig : d.config with
      | some path =>
        simp only [choose, hdut, hconfig] at h
        cases h
      | none =>
        simp only [choose, hdut, hconfig] at h
        cases h
        have hreboot : (120 : UInt64) ≠ 0 := by decide
        have hfirmware : (300 : UInt64) ≠ 0 := by decide
        exact hdut ▸ ⟨hreboot, hfirmware, hnamed hdut rfl hreboot hfirmware⟩

end CommandLine

namespace Simulation.Host

open CommandLine (DeviceChoice NewConfig User Work loadConfig save)

variable {h h' : Host}

/-! ## Choosing and writing a configuration -/

/-- The file of the user's configuration is read if no other is named. -/
theorem perform_load {d : DeviceChoice} {u : User} {path : String}
    (hpath : d.config.or u.configPath = some path) (h : Host) : h.perform (d.load u).run =
      (some (d.choose (Config.load path
        ((Except.bind (h.files.read path) CommandLine.text).mapError SystemError.text))), h) := by
  rw [DeviceChoice.load, User.loadConfig, hpath]
  rfl

/-- It takes a directory of configurations if none is named. -/
theorem perform_load_nowhere {d : DeviceChoice} {u : User}
    (hpath : d.config.or u.configPath = none) (h : Host) : h.perform (d.load u).run =
      (some (d.choose (.error (.config
        "could not determine config directory, pass --config explicitly"))), h) := by
  rw [DeviceChoice.load, User.loadConfig, hpath]
  rfl

/-- A new configuration is saved in a file, in place of one that is there only if that is asked
    for. -/
theorem perform_writeTo_eq_ok_iff {n : NewConfig} {path : String} :
    h.perform (n.writeTo path).run = (some (.ok ()), h') ↔
      (h.files.hasPath path = true → n.force = true) ∧
      ∃ saved, h.perform (save path n.config.document) = (some (.ok ()), saved) ∧
        h' = saved.printLine ("✓ Configuration written to " ++ path) := by
  have hexists : h.perform (Work.ask (.pathExists path)).run =
      (some (.ok (h.files.hasPath path)), h) := rfl
  rw [NewConfig.writeTo, perform_run_bind, hexists]
  simp only
  cases hrefused : (h.files.hasPath path && !n.force) with
  | true =>
    simp only [Bool.and_eq_true, Bool.not_eq_true'] at hrefused
    refine iff_of_false ?_ fun hwrite => ?_
    · rw [if_pos rfl, perform_run_bind]
      nofun
    · rw [hwrite.1 hrefused.1] at hrefused
      cases hrefused.2
  | false =>
    have hforce : h.files.hasPath path = true → n.force = true := by
      intro hpath
      simpa [hpath] using hrefused
    rw [if_neg (by decide), perform_run_bind, perform_attempt]
    rcases h.perform (save path n.config.document) with ⟨_ | e | ⟨⟩, saved⟩
    · exact iff_of_false nofun fun ⟨_, _, hsaved, _⟩ => nomatch hsaved
    · exact iff_of_false nofun fun ⟨_, _, hsaved, _⟩ => nomatch hsaved
    · constructor
      · rintro ⟨⟩
        exact ⟨hforce, saved, rfl, rfl⟩
      · rintro ⟨-, _, ⟨⟩, rfl⟩
        rfl

/-- Where it is saved is what was asked for, or the user's configuration. -/
theorem perform_write_eq_ok_iff {n : NewConfig} {u : User} :
    h.perform (n.write u).run = (some (.ok ()), h') ↔
      ∃ path, n.path.or u.configPath = some path ∧
        h.perform (n.writeTo path).run = (some (.ok ()), h') := by
  rw [NewConfig.write]
  cases n.path.or u.configPath with
  | none => exact iff_of_false nofun fun ⟨_, hpath, _⟩ => nomatch hpath
  | some path => simp

/-- A configuration that was written is loaded again if its device is not blank. -/
theorem perform_loadConfig_of_writeTo {n : NewConfig} {path : String}
    (hwrite : h.perform (n.writeTo path).run = (some (.ok ()), h'))
    (hfile : h'.files.node path ≠ .ok .sink) :
    (¬ Text.Blank n.dut.toList → h'.perform (loadConfig path) = (some (.ok n.config), h')) ∧
    (Text.Blank n.dut.toList → h'.perform (loadConfig path) =
      (some (.error (.context ("config file " ++ path)
        (.config "dut.name must not be empty"))), h')) := by
  obtain ⟨-, saved, hsave, rfl⟩ := perform_writeTo_eq_ok_iff.1 hwrite
  have hnan : n.config.dialRetry.multiplier.isNaN = false :=
    (by decide : ({} : RetryPolicy).multiplier.isNaN = false)
  rw [perform_loadConfig_of_save hnan (.refl _) hsave hfile (saved.printLine _) rfl]
  constructor
  · intro hname
    rw [Config.validate_eq_ok_iff.2 (n.isValid_config.2 hname)]
    rfl
  · intro hname
    rw [Config.validate_of_blank (c := n.config) hname]
    rfl

/-- **A configuration to work with has time for reboots, and it is valid exactly if no blank device
    is named on the command line. A configuration that was written to a file can be loaded again
    exactly if the device it was written for is not blank.** -/
theorem isValid_of_configuration (h h' : Host) (u : User) :
    (∀ (d : DeviceChoice) (c : Config),
      h.perform (d.load u).run = (some (.ok c), h') →
        c.rebootTimeoutSecs ≠ 0 ∧ c.firmwareRebootTimeoutSecs ≠ 0 ∧
          (c.IsValid ↔ ∀ dut, d.dut = some dut → ¬ Text.Blank dut.toList)) ∧
    ∀ n : NewConfig,
      h.perform (n.write u).run = (some (.ok ()), h') →
      ∃ path, n.path.or u.configPath = some path ∧
        (h'.files.node path ≠ .ok .sink →
          (¬ Text.Blank n.dut.toList →
            h'.perform (loadConfig path) = (some (.ok n.config), h')) ∧
          (Text.Blank n.dut.toList →
            h'.perform (loadConfig path) =
              (some (.error (.context ("config file " ++ path)
                (.config "dut.name must not be empty"))), h'))) := by
  constructor
  · intro d c hload
    cases hpath : d.config.or u.configPath with
    | some path =>
      rw [perform_load hpath] at hload
      exact DeviceChoice.isValid_of_choose (fun _ => Config.isValid_of_load)
        (Option.some.inj (Prod.mk.inj hload).1)
    | none =>
      rw [perform_load_nowhere hpath] at hload
      exact DeviceChoice.isValid_of_choose (fun _ h => by cases h) (Option.some.inj (Prod.mk.inj hload).1)
  · intro n hwrite
    obtain ⟨path, hpath, hwrite⟩ := perform_write_eq_ok_iff.1 hwrite
    exact ⟨path, hpath, perform_loadConfig_of_writeTo hwrite⟩

/-- The configuration that is written for a device, and worked with if there is no other. -/
def fallback (dut : String) : Config := { dut := { name := dut } }

/-- The machine once a configuration was written for a device. -/
def configured (dut : String) : Host :=
  (withFile (fallback dut).document).printLine "✓ Configuration written to duts.yml"

theorem perform_load_bare (dut : String) :
    bare.perform (DeviceChoice.load { dut := some dut } bare.user).run =
      (some (.ok (fallback dut)), bare) := by
  have hpath : (none : Option String).or bare.user.configPath =
      some "/root/.config/dut-provision/config.yml" := by decide +kernel
  have hread : bare.files.read "/root/.config/dut-provision/config.yml" = .error .notFound := by
    decide +kernel
  rw [perform_load hpath, hread]
  rfl

theorem perform_writeTo_bare (dut : String) :
    bare.perform (NewConfig.writeTo { dut := dut, path := some "duts.yml" } "duts.yml").run =
      (some (.ok ()), configured dut) := by
  have habsent : bare.files.hasPath "duts.yml" = false := by decide +kernel
  refine perform_writeTo_eq_ok_iff.2 ⟨fun h => ?_, _, perform_save_single _, rfl⟩
  rw [habsent] at h
  cases h

theorem perform_write_bare (dut : String) :
    bare.perform (NewConfig.write { dut := dut, path := some "duts.yml" } bare.user).run =
      (some (.ok ()), configured dut) :=
  perform_write_eq_ok_iff.2 ⟨"duts.yml", rfl, perform_writeTo_bare dut⟩

theorem node_configured (dut : String) :
    (configured dut).files.node "duts.yml" ≠ .ok .sink := by
  rw [configured, printLine, node_withFile]
  nofun

theorem isValid_of_configuration_named :
    bare.perform (DeviceChoice.load { dut := some "dut1" } bare.user).run =
        (some (.ok (fallback "dut1")), bare) ∧
      (fallback "dut1").IsValid ∧
      bare.perform (NewConfig.write { dut := "dut1", path := some "duts.yml" } bare.user).run =
        (some (.ok ()), configured "dut1") ∧
      (configured "dut1").perform (loadConfig "duts.yml") =
        (some (.ok (fallback "dut1")), configured "dut1") := by
  have hload := perform_load_bare "dut1"
  have hwrite := perform_write_bare "dut1"
  have hname : ¬ Text.Blank "dut1".toList := by decide
  have hvalid := ((isValid_of_configuration _ _ _).1 _ _ hload).2.2.2 (by rintro _ ⟨⟩; exact hname)
  obtain ⟨path, hpath, hagain⟩ := (isValid_of_configuration _ _ bare.user).2 _ hwrite
  cases hpath
  exact ⟨hload, hvalid, hwrite, (hagain (node_configured "dut1")).1 hname⟩

/-- A device whose name is a space is worked with and written down, but it cannot be loaded. -/
theorem configuration_blank :
    bare.perform (DeviceChoice.load { dut := some " " } bare.user).run =
        (some (.ok (fallback " ")), bare) ∧
      ¬ (fallback " ").IsValid ∧
      bare.perform (NewConfig.write { dut := " ", path := some "duts.yml" } bare.user).run =
        (some (.ok ()), configured " ") ∧
      (configured " ").perform (loadConfig "duts.yml") =
        (some (.error (.context "config file duts.yml" (.config "dut.name must not be empty"))),
          configured " ") := by
  have hblank : Text.Blank " ".toList := by decide
  exact ⟨perform_load_bare " ", fun hvalid => hvalid.name hblank, perform_write_bare " ",
    (perform_loadConfig_of_writeTo (perform_writeTo_bare " ") (node_configured " ")).2 hblank⟩

end Simulation.Host

end Reimage
