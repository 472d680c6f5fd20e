/-
  Deadlines that no clock can show.

  A configuration may ask for any time limit that is not zero. A clock counts seconds up to a limit,
  and a wait whose deadline lies behind that ends its task without a result: so what the task was to
  do is not done, and what a chain has done before is not undone.

  * `Instant.after?_ofSecs`, `Duration.add?_ofSecs`: which deadlines and which sums there are;
  * `Task.deadline_bind_none`: a task that needs a deadline that there is not asks nothing more;
  * `Config.Deadlines`: what comes of the time limits of a configuration at some point, and
    `Config.deadlines_of_parse`: that comes of every configuration that is read.
-/
import Mathlib.Algebra.Group.Nat.Defs
import Reimage.Proofs.Install.Reboots
import Reimage.Proofs.Simulation.Host

namespace Reimage

/-! ## Sums of times -/

/-- The whole seconds that a clock shows. -/
def Instant.secs (t : Instant) : Nat := t.nanos / 1000000000

/-- The clock can show a point unless it lies too many seconds ahead. -/
theorem Instant.after?_ofSecs {t : Instant} {n : Nat} :
    t.after? (.ofSecs n) = none ↔ 2 ^ 63 ≤ t.secs + n := by
  have hsum : (t.nanos + n * 1000000000) / 1000000000 = t.nanos / 1000000000 + n :=
    Nat.add_mul_div_right _ _ (by decide)
  simp only [after?, Duration.ofSecs, secs, secsLimit, hsum]
  split
  · rename_i h
    exact iff_of_false (by simp) (Nat.not_le.2 h)
  · rename_i h
    exact iff_of_true rfl (Nat.not_lt.1 h)

/-- A span can be doubled unless it has too many seconds. -/
theorem Duration.add?_ofSecs (n : Nat) : (ofSecs n).add? (ofSecs n) =
    if n < 2 ^ 63 then some (ofSecs (2 * n)) else none := by
  have hsum : n * 1000000000 + n * 1000000000 = 2 * n * 1000000000 := by omega
  simp only [add?, ofSecs, hsum, secsLimit]
  rw [Nat.mul_div_cancel _ (by decide : 0 < 1000000000)]
  refine if_congr ?_ rfl rfl
  change 2 * n < 2 ^ 64 ↔ _
  omega

/-! ## Tasks without a deadline -/

section
variable {α : Type} {now : Instant} {d : Duration} {tr u : List Event} {p : Plan}

/-- What was read of the clock tells whether there is a deadline. -/
theorem Task.deadline_run {o : Option Instant} (h : (Task.deadline d).Run tr o) :
    (tr = [] ∧ o = none) ∨
      ∃ now, tr = [⟨.now, now⟩] ∧ (o = none ∨ ∃ t, now.after? d = some t ∧ o = some t) := by
  obtain ⟨ho, hnow⟩ | ⟨t, now, u, rfl, hnow, hsum⟩ := Program.run_bind.1 h
  · rcases Task.run_ask hnow with ⟨-, htr⟩ | ⟨now, htr, -⟩
    · exact Or.inl ⟨htr, ho⟩
    · exact Or.inr ⟨now, htr, Or.inl ho⟩
  · rw [Task.run_ask_some.1 hnow]
    refine Or.inr ⟨now, ?_⟩
    split at hsum
    · rename_i t ht
      obtain ⟨rfl, ho⟩ := Program.run_pure.1 hsum
      exact ⟨rfl, ho.imp_right fun ho => ⟨t, ht, ho⟩⟩
    · -- Nothing answers a task that gives up.
      obtain ⟨ho, habort⟩ | ⟨_, never, _⟩ := Program.run_bind.1 hsum
      · rcases Task.run_ask habort with ⟨-, rfl⟩ | ⟨never, -⟩
        · exact ⟨rfl, Or.inl ho⟩
        · exact never.elim
      · exact never.elim

/-- Where a deadline is needed that the clock cannot show, nothing comes after the clock was
    read. -/
theorem Procedure.deadline_bind_none {k : Instant → Procedure α} {o : Option α}
    (hd : now.after? d = none)
    (h : ((Task.deadline d).procedure >>= k).Run (⟨.now, now⟩ :: u) o) : u = [] ∧ o = none := by
  obtain ⟨ho, hdeadline⟩ | ⟨t, deadline, v, htv, hdeadline, -⟩ := Program.run_bind.1 h
  · rcases Task.deadline_run (run_procedure.1 hdeadline) with ⟨htr, -⟩ | ⟨now', htr, -⟩
    · cases htr
    · cases htr
      exact ⟨rfl, ho⟩
  · obtain ⟨-, ho⟩ | ⟨now', rfl, ho | ⟨t', ht', -⟩⟩ :=
      Task.deadline_run (run_procedure.1 hdeadline)
    · cases ho
    · cases ho
    · cases htv
      cases hd.symm.trans ht'

/-- The same for a task. -/
theorem Task.deadline_bind_none {k : Instant → Task α} {o : Option α} (hd : now.after? d = none)
    (h : (Task.deadline d >>= k).Run (⟨.now, now⟩ :: u) o) : u = [] ∧ o = none := by
  rw [← Procedure.run_procedure, Task.procedure_bind] at h
  exact Procedure.deadline_bind_none hd h

/-- A reboot needs its deadline before anything else. -/
theorem Command.reboot_execute (p : Plan) (d : Duration) :
    ∃ k, (Command.reboot d).execute p = (Task.deadline d).procedure >>= k := by
  simp only [execute, kept, Plan.reboot, Link.restart, Task.procedure_bind, Program.bind_assoc]
  exact ⟨_, rfl⟩

/-- **After its commands have succeeded, the last stage on the old system ends without a result,
    and without a revert**, if its clock cannot show the deadline of the reboot. -/
theorem Stage.postInstall_none (hp : p.request.preventReboot = false)
    {ds : List Command} (hds : Executed p [.postInstall, .clearTpm] tr ds)
    (hd : now.after? p.rebootTimeout = none) {o : Option (Result StageOutcome)}
    (h : (Stage.postInstall.execute p).Run (tr ++ ⟨.now, now⟩ :: u) o) : u = [] ∧ o = none := by
  have hchain : Stage.postInstall.execute p =
      runChainAfter p Stage.postInstall.title [] ([.postInstall, .clearTpm] ++
        [.reboot p.rebootTimeout]) >>= fun r => pure (r.map fun _ => .completed) := by
    rw [← Stage.commands_postInstall hp]
    rfl
  rw [hchain] at h
  have hreboot := hds.goes_on _ (by decide) h
  obtain ⟨k, hk⟩ := Command.reboot_execute p p.rebootTimeout
  rw [runChainAfter, hk, Program.bind_assoc, Program.bind_assoc] at hreboot
  exact Procedure.deadline_bind_none hd hreboot

/-- The same for the reboot into new firmware. -/
theorem Stage.bootFirmware_none {slot : String} (hd : now.after? p.firmwareRebootTimeout = none)
    {o : Option (Result Unit)} (h : (bootFirmware p (some slot)).Run (⟨.now, now⟩ :: u) o) :
    u = [] ∧ o = none := by
  obtain ⟨k, hk⟩ := Command.reboot_execute p p.firmwareRebootTimeout
  simp only [bootFirmware, Command.executeAlone, hk, Program.bind_assoc] at h
  exact Procedure.deadline_bind_none hd h

end

/-! ## Configurations -/

namespace Config

variable {c : Config} {text : String} {now : Instant}

/-- A configuration that is read has time limits other than zero. -/
theorem limits_pos (h : parse text = .ok c) :
    0 < c.rebootTimeoutSecs.toNat ∧ 0 < c.firmwareRebootTimeoutSecs.toNat := by
  have hvalid : c.validate = .ok () := by
    rw [parse] at h
    split at h
    · cases h
    · rename_i c' _
      cases hc : c'.validate with
      | error e =>
        rw [hc] at h
        cases h
      | ok =>
        rw [hc] at h
        cases h
        exact hc
  rw [validate] at hvalid
  split at hvalid
  · cases hvalid
  · split at hvalid
    · cases hvalid
    · rename_i hzero
      simp only [Bool.or_eq_true, decide_eq_true_eq, not_or] at hzero
      refine ⟨Nat.pos_of_ne_zero fun h => hzero.2 ?_, Nat.pos_of_ne_zero fun h => hzero.1 ?_⟩ <;>
      · exact UInt64.toNat_inj.1 (h.trans UInt64.toNat_zero.symm)

/-- The command line waits for a restart for twice as long, if there is such a span, and ends
    without a result if there is not. -/
theorem perform_restartLimit (timeout : Duration) (machine : Simulation.Host) :
    machine.perform (CommandLine.restartLimit timeout) =
      ((timeout.add? timeout).map .ok, machine) := by
  rw [CommandLine.restartLimit]
  cases timeout.add? timeout <;> rfl

/-- What comes of the time limits of a configuration, where the clock shows `now`. -/
structure Deadlines (c : Config) (now : Instant) : Prop where
  /-- Both limits are at least a second. -/
  pos : 0 < c.rebootTimeoutSecs.toNat ∧ 0 < c.firmwareRebootTimeoutSecs.toNat
  reboot : now.after? c.rebootTimeout = none ↔ 2 ^ 63 ≤ now.secs + c.rebootTimeoutSecs.toNat
  firmware : now.after? c.firmwareRebootTimeout = none ↔
    2 ^ 63 ≤ now.secs + c.firmwareRebootTimeoutSecs.toNat
  /-- The command line needs twice the limit of a reboot, and ends if there is no such span. -/
  doubled (machine : Simulation.Host) :
    machine.perform (CommandLine.restartLimit c.rebootTimeout) =
      (if c.rebootTimeoutSecs.toNat < 2 ^ 63 then
        some (.ok (.ofSecs (2 * c.rebootTimeoutSecs.toNat))) else none, machine)
  doubledDeadline : now.after? (.ofSecs (2 * c.rebootTimeoutSecs.toNat)) = none ↔
    2 ^ 63 ≤ now.secs + 2 * c.rebootTimeoutSecs.toNat
  /-- A restart whose deadline the clock cannot show reads the clock and does nothing more. -/
  restarts (args : List String) (u : List Event) (o : Option (Result String)) :
    now.after? c.rebootTimeout = none →
    (c.link.restart args c.rebootTimeout).Run (⟨.now, now⟩ :: u) o → u = [] ∧ o = none
  /-- So does a wait for an operation. -/
  awaits (op : String) (limit : Duration) (u : List Event) (o : Option (Result Operation)) :
    now.after? limit = none →
    (c.service.awaitOperation op limit).Run (⟨.now, now⟩ :: u) o → u = [] ∧ o = none
  /-- An installation that has made the device boot the new system, and clear its TPM, ends there
    without a result, and undoes neither. -/
  unreverted (request : Request) (t u : List Event) (ds : List Command)
    (o : Option (Result StageOutcome)) : now.after? c.rebootTimeout = none →
    request.preventReboot = false →
    Executed (c.plan request) [.postInstall, .clearTpm] t ds →
    (Stage.postInstall.execute (c.plan request)).Run (t ++ ⟨.now, now⟩ :: u) o → u = [] ∧ o = none
  /-- One that has written new firmware does not get to boot it. -/
  unbooted (request : Request) (slot : String) (u : List Event) (o : Option (Result Unit)) :
    now.after? c.firmwareRebootTimeout = none →
    (Stage.bootFirmware (c.plan request) (some slot)).Run (⟨.now, now⟩ :: u) o → u = [] ∧ o = none

/-- **A clock can show a deadline if and only if that lies less than 2⁶³ seconds ahead of its
    origin.** What is read as a configuration is not bounded by that: its limits are only known not
    to be zero. -/
theorem deadlines_of_parse {text : String} {c : Config} (h : parse text = .ok c) (now : Instant) :
    c.Deadlines now where
  pos := limits_pos h
  reboot := Instant.after?_ofSecs
  firmware := Instant.after?_ofSecs
  doubled machine := by
    have hsum : c.rebootTimeout.add? c.rebootTimeout = _ := Duration.add?_ofSecs _
    rw [perform_restartLimit, hsum]
    split <;> rfl
  doubledDeadline := Instant.after?_ofSecs
  restarts _ _ _ hd hrun := Task.deadline_bind_none hd hrun
  awaits _ _ _ _ hd hrun := Task.deadline_bind_none hd hrun
  unreverted _ _ _ _ _ hd hrequest hds hrun := Stage.postInstall_none hrequest hds hd hrun
  unbooted _ _ _ _ hd hrun := Stage.bootFirmware_none hd hrun

/-- The text of a configuration with a limit for reboots. -/
def limited (secs : Nat) : String :=
  "dut:\n  name: dut1\nreboot_timeout_secs: " ++ toString secs ++ "\n"

/-- A configuration that is read from a text with a reboot limit. -/
theorem exists_of_limit {secs : UInt64}
    (h : (parse text).toOption.map rebootTimeoutSecs = some secs) :
    ∃ c, parse text = .ok c ∧ c.rebootTimeoutSecs = secs := by
  obtain ⟨c, hc, hsecs⟩ := Option.map_eq_some_iff.1 h
  cases hparse : parse text with
  | error e =>
    rw [hparse] at hc
    cases hc
  | ok c' =>
    rw [hparse] at hc
    cases hc
    exact ⟨_, rfl, hsecs⟩

/-- A limit that can just be doubled. A clock that shows one second cannot show its deadline. -/
theorem deadlines_of_parse_doubled : ∃ c,
    parse (limited 9223372036854775807) = .ok c ∧ c.Deadlines ⟨1000000000⟩ ∧
      (⟨1000000000⟩ : Instant).after? c.rebootTimeout = none := by
  obtain ⟨c, hc, hsecs⟩ : ∃ c, parse (limited 9223372036854775807) = .ok c ∧
      c.rebootTimeoutSecs = 9223372036854775807 := exists_of_limit (by decide +kernel)
  have hdeadlines := deadlines_of_parse hc ⟨1000000000⟩
  exact ⟨c, hc, hdeadlines, hdeadlines.reboot.2 (by rw [hsecs]; decide +kernel)⟩

/-- **There is a configuration whose limits have no deadline on any clock**, and cannot be
    doubled. -/
theorem parse_overflows : ∃ c,
    parse (limited 18446744073709551615) = .ok c ∧
      (∀ now : Instant, now.after? c.rebootTimeout = none) ∧
      c.rebootTimeout.add? c.rebootTimeout = none := by
  obtain ⟨c, hc, hsecs⟩ : ∃ c, parse (limited 18446744073709551615) = .ok c ∧
      c.rebootTimeoutSecs = 18446744073709551615 := exists_of_limit (by decide +kernel)
  have hlong : 2 ^ 63 ≤ c.rebootTimeoutSecs.toNat := by
    rw [hsecs]
    decide +kernel
  refine ⟨c, hc, fun now => Instant.after?_ofSecs.2 (Nat.le_add_left_of_le hlong), ?_⟩
  exact (Duration.add?_ofSecs _).trans (if_neg (Nat.not_lt.2 hlong))

end Config

end Reimage
