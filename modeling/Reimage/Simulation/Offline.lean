/-
  A host without a network.

  No name can be looked up, and no numeric address can be reached. Waiting takes as long as it
  should.
-/
import Reimage.Simulation.World
import Reimage.Ssh

namespace Reimage.Simulation

/-- Whether an address with a port is numeric, so that there is nothing to look up. -/
def isNumeric (address : String) : Bool :=
  match Text.splitLastChars ':' address.toList with
  | none => false
  | some (host, _) =>
    let parts := Text.splitChars '.' host
    decide (parts.length = 4) && parts.all fun part =>
      part.head? != some '+' && (Text.readNumeral 256 part).toOption.isSome

/-- What comes of looking an address up. -/
def lookUp (address : String) : Except String (List String) :=
  if address.toList.contains '\x00' then .error "file name contained an unexpected NUL byte"
  else if isNumeric address then .ok [address]
  else .error "failed to lookup address information: Temporary failure in name resolution"

/-- How long something took and what was logged meanwhile. -/
structure Meanwhile where
  takes : Duration := ⟨0⟩
  log : List LogLine := []
  deriving DecidableEq, Repr, Inhabited

/-- What a login finds on a host without a network. -/
def offlineAnswer : (q : Ssh.Ask) → StateM Meanwhile q.Answer
  | .log line => modify fun m => { m with log := m.log ++ [line] }
  | .wait d => modify fun m => { m with takes := ⟨m.takes.nanos + d.nanos⟩ }
  | .resolve address => return lookUp address
  | .connect _ timeout =>
    return if timeout.nanos = 0 then .error "cannot set a 0 duration timeout"
      else .error "Network is unreachable (os error 101)"
  | .handshake | .keyLogin _ _ | .agentLogin _ => return .error "not connected"

/-- Dials a device from a host without a network. -/
def dialOffline (dut : DutConfig) (policy : RetryPolicy) (home : Option String) (address : String) :
    Result String × Meanwhile :=
  ((Ssh.dial dut policy home address).interpret offlineAnswer).run {}

/-- The network of a host without one, as the configured device is dialed. -/
def Network.offline (c : Config) (home : Option String) : Network := fun d address =>
  let (outcome, meanwhile) := dialOffline c.dut c.dialRetry home address
  let result : Result Connection := outcome.map fun address => ⟨d.dials + 1, address⟩
  { result := result, device := d, log := meanwhile.log, takes := meanwhile.takes }

/-- The surroundings of work on the configured device, where `named` operations were named before.
    -/
def World.offline (c : Config) (home : Option String) (named : Nat) : World :=
  { network := .offline c home, address := c.resolve, link := c.link, named := named }

end Reimage.Simulation
