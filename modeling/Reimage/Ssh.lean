/-
  Reaching a device over a secure shell.

  * `login` is one attempt: find the address, connect, and prove who we are, by the configured key
    or else by an agent;
  * `dial` tries again with growing delays and, in the end, gives advice by what went wrong.
-/
import Reimage.Config
import Reimage.Log

namespace Reimage.Ssh

/-! ## Addresses and advice -/

/-- An address with a port: `port`, unless the address has one. -/
def withDefaultPort (address : String) (port : UInt16) : String :=
  let named := match Text.splitLastChars ':' address.toList with
    | none => false
    | some (_, digits) =>
      match Text.readNumeral (Nat.pow 2 16) digits with
      | .ok _ => true
      | .error _ => false
  if named then address else address ++ ":" ++ toString port.toNat

/-- Lower case, as far as it matters for ASCII words: the capital letters of ASCII, and the Kelvin
    sign, whose lower case is a `k`. -/
def lowerChar (c : Char) : Char := if c = '\u212a' then 'k' else c.toLower

/-- What to do about an error, by the words in its message. -/
def suggestions (error : Error) (address : String) (key : Option String) : List String :=
  let message := error.message.toList.map lowerChar
  let mentions := fun words : List String =>
    words.any fun w => Text.containsChars w.toList message
  (if mentions ["connection refused", "timed out", "no route to host"] then
      ["• Verify the device at '" ++ address ++ "' is powered and reachable",
        "• The device may still be rebooting, try again shortly"]
    else [])
    ++ (if mentions ["authentication", "permission denied", "publickey"] then
      match key with
      | some key =>
        ["• Check that the testing key exists: " ++ key,
          "• Verify the device runs a test image accepting that key"]
      | none =>
        ["• Set dut.ssh_key to the testing key in the configuration",
          "• Verify your SSH agent is running (ssh-add -l)"]
    else [])
    ++ (if mentions ["resolve", "no addresses"] then
      ["• Add the device to the `hosts` table of the configuration"]
    else [])

/-- The message of a dial that failed. -/
def diagnose (error : Error) (address : String) (key : Option String) : String :=
  let advice := match suggestions error address key with
    | [] => ["• Test the connection manually: ssh " ++ address]
    | advice => advice
  "SSH connection to " ++ address ++ " failed: " ++ error.message
    ++ "\n\nTroubleshooting suggestions:\n" ++ Text.join "\n" advice

/-! ## Dialing -/

/-- What dialing asks of the network. -/
inductive Ask
  | log (line : LogLine)
  | wait (d : Duration)
  /-- The endpoints an address names. -/
  | resolve (address : String)
  | connect (endpoint : String) (timeout : Duration)
  | handshake
  | keyLogin (user file : String)
  | agentLogin (user : String)
  deriving DecidableEq, Repr

/-- An answer, or the reason why there is none. -/
abbrev Ask.Answer : Ask → Type
  | log _ | wait _ => Unit
  | resolve _ => Except String (List String)
  | connect _ _ | handshake | keyLogin _ _ | agentLogin _ => Except String Unit

/-- A program that uses the network. -/
abbrev Attempt := Program Ask Ask.Answer

def ask (q : Ask) : Attempt q.Answer := Program.query q

/-- Logs in by the configured key. -/
def loginByKey (dut : DutConfig) (home : Option String) : Attempt Bool := do
  match dut.expandedSshKey home with
  | none => return false
  | some file =>
    match ← ask (.keyLogin dut.user file) with
    | .ok () => return true
    | .error reason =>
      ask (.log (.warn ("Public key authentication failed: " ++ reason)))
      return false

/-- Logs in by an agent. -/
def loginByAgent (dut : DutConfig) : Attempt Bool := do
  match ← ask (.agentLogin dut.user) with
  | .ok () => return true
  | .error reason =>
    ask (.log (.warn ("Agent authentication failed: " ++ reason)))
    return false

/-- Proves who we are. -/
def authenticate (dut : DutConfig) (home : Option String) : Attempt (Result Unit) := do
  if ← loginByKey dut home then return .ok ()
  if ← loginByAgent dut then return .ok ()
  return .error (.transport ("SSH authentication failed for user " ++ dut.user ++ ". Tried: "
    ++ dut.sshKey.getD "no key specified" ++ ", agent"))

/-- One attempt to reach an address and to log in. -/
def login (dut : DutConfig) (home : Option String) (address : String) : Attempt (Result Unit) := do
  match ← ask (.resolve address) with
  | .error reason =>
    return .error (.transport ("failed to resolve '" ++ address ++ "': " ++ reason))
  | .ok [] => return .error (.transport ("no addresses found for '" ++ address ++ "'"))
  | .ok (endpoint :: _) =>
    match ← ask (.connect endpoint (.ofSecs dut.timeoutSecs.toNat)) with
    | .error reason =>
      return .error (.io ("failed to connect to " ++ address ++ ": " ++ reason))
    | .ok () =>
      match ← ask .handshake with
      | .error reason => return .error (.transport ("SSH handshake failed: " ++ reason))
      | .ok () => authenticate dut home

/-- What each step of trying again means for a login. -/
def retryStep (dut : DutConfig) (home : Option String) (address : String) :
    (q : RetryStep) → Attempt (RetryStep.Answer Unit q)
  | .call => login dut home address
  | .warn text => ask (.log (.warn text))
  | .wait d => ask (.wait d)

/-- Reaches a device, and gives the address it was reached at. -/
def dial (dut : DutConfig) (policy : RetryPolicy) (home : Option String) (address : String) :
    Attempt (Result String) := do
  let address := withDefaultPort address dut.port
  ask (.log (.info ("Connecting to " ++ address)))
  let outcome ← Program.substitute (retryStep dut home address)
    (retry policy ("SSH connection to " ++ address))
  return match outcome with
    | .ok () => .ok address
    | .error e => .error (.transport (diagnose e address dut.sshKey))

end Reimage.Ssh
