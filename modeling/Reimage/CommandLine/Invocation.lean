/-
  What a command line asks for.

  `Invocation.read` reads the arguments of a command line: the name of a command and the command's
  own arguments, or a request for help. `manual` is what is shown for such a request.
-/
import Reimage.CommandLine.Grammar
import Reimage.Text.Numeral

namespace Reimage.CommandLine

/-- Which device a command is about. -/
structure DeviceChoice where
  /-- The configuration file, if not the usual one. -/
  config : Option String := none
  /-- The device's name or address, if not the configured one. -/
  dut : Option String := none
  deriving DecidableEq, Repr, Inhabited

/-- The device and login that a new configuration is for. -/
structure NewConfig where
  dut : String
  user : String := "root"
  port : UInt16 := 22
  sshKey : Option String := none
  cacheAddress : Option String := none
  /-- Where the configuration goes, if not to the usual place. -/
  path : Option String := none
  /-- Replace a file that is there already. -/
  force : Bool := false
  deriving DecidableEq, Repr, Inhabited

/-- A download onto the device. -/
structure Download where
  url : String
  /-- The one member of an archive to download. -/
  extract : Option String := none
  decompress : Bool := false
  file : Option String := none
  pipe : Option String := none
  deriving DecidableEq, Repr, Inhabited

/-- What is asked for. -/
inductive Invocation
  /-- Install what the request in the file `input` asks for and report in the file `output`. -/
  | provision (device : DeviceChoice) (input output : String)
  /-- Run a command, with a file as its input. -/
  | exec (device : DeviceChoice) (combined : Bool) (stdin : Option String) (command : String)
      (args : List String)
  | restart (device : DeviceChoice) (args : List String)
  | reconnect (device : DeviceChoice)
  | cache (device : DeviceChoice) (download : Download)
  | fetchCrashes (device : DeviceChoice) (core : Bool) (outputDir : Option String)
  | detectConfig (device : DeviceChoice)
  | showConfig (path : Option String)
  | showPath
  | initConfig (new : NewConfig)
  deriving DecidableEq, Repr, Inhabited

/-! ## Values -/

/-- A path is not empty. -/
def isPath (value : String) : Bool := !value.isEmpty

/-- Reads a port: a number of 16 bits, where a zero may have a minus sign. -/
def port? (value : String) : Option UInt16 :=
  match value.toList with
  | '-' :: c :: rest => if (c :: rest).all (· == '0') then some 0 else none
  | digits => (Text.readNumeral (Nat.pow 2 16) digits).toOption.map UInt16.ofNat

/-! ## Commands -/

/-- A command: its name, its arguments, and what they ask for. -/
structure Form where
  name : String
  summary : String
  grammar : Grammar
  invocation : Matches → Except Refusal Invocation

/-- The options that choose a device. -/
def deviceOptions : List OptionSpec :=
  [{ name := "config", short := some 'c', kind := .value isPath },
    { name := "dut", short := some 'd' }]

/-- The chosen device. -/
def Matches.device (m : Matches) : DeviceChoice := ⟨m.value? "config", m.value? "dut"⟩

/-- The commands about a device. -/
def deviceForms : List Form :=
  [{ name := "provision"
     summary := "Install an OS image, firmware and DLCs on the device"
     grammar := { options := deviceOptions ++
       [{ name := "input", short := some 'i', kind := .value isPath },
         { name := "output", short := some 'o', kind := .value isPath }] }
     invocation := fun m => do
       return .provision m.device (← m.required "input") (← m.required "output") },
    { name := "exec"
      summary := "Run a command on the device"
      grammar := { options := deviceOptions ++
        [{ name := "combined", kind := .flag }, { name := "stdin", kind := .value isPath }]
                   words := 1, more := true }
      invocation := fun m => do
        return .exec m.device (m.has "combined") (m.value? "stdin") (← m.word 0) m.more },
    { name := "restart"
      summary := "Reboot the device and wait until it is reachable again"
      grammar := { options := deviceOptions, more := true }
      invocation := fun m => .ok (.restart m.device m.more) },
    { name := "reconnect"
      summary := "Re-resolve the device address and open a new connection"
      grammar := { options := deviceOptions }
      invocation := fun m => .ok (.reconnect m.device) },
    { name := "cache"
      summary := "Download an artifact onto the device through the caching proxy"
      grammar := { options := deviceOptions ++
        [{ name := "extract" }, { name := "decompress", kind := .flag }, { name := "file" },
          { name := "pipe" }]
                   words := 1 }
      invocation := fun m => do
        let d : Download :=
          { url := ← m.word 0, extract := m.value? "extract", decompress := m.has "decompress"
            file := m.value? "file", pipe := m.value? "pipe" }
        Matches.exclude d.extract.isSome d.decompress
        Matches.exclude d.file.isSome d.pipe.isSome
        return .cache m.device d },
    { name := "fetch-crashes"
      summary := "Pull crash reports off the device"
      grammar := { options := deviceOptions ++
        [{ name := "core", kind := .flag },
          { name := "output-dir", short := some 'o', kind := .value isPath }] }
      invocation := fun m => .ok (.fetchCrashes m.device (m.has "core") (m.value? "output-dir")) },
    { name := "detect-config"
      summary := "Print the device's platform, model and SKU"
      grammar := { options := deviceOptions }
      invocation := fun m => .ok (.detectConfig m.device) }]

/-- The commands about the configuration. -/
def configForms : List Form :=
  [{ name := "show"
     summary := "Show current configuration"
     grammar := { options := [{ name := "config", short := some 'c', kind := .value isPath }] }
     invocation := fun m => .ok (.showConfig (m.value? "config")) },
    { name := "path"
      summary := "Show the configuration file path"
      grammar := {}
      invocation := fun _ => .ok .showPath },
    { name := "init"
      summary := "Create a configuration file for a device"
      grammar :=
        { options := [{ name := "user" },
            { name := "port", kind := .value fun v => (port? v).isSome },
            { name := "ssh-key" }, { name := "cache-address" },
            { name := "path", kind := .value isPath }, { name := "force", kind := .flag }]
          words := 1 }
      invocation := fun m => do
        let user := (m.value? "user").getD "root"
        let port := ((m.value? "port").bind port?).getD 22
        return .initConfig
          { dut := ← m.word 0, user := user, port := port, sshKey := m.value? "ssh-key"
            cacheAddress := m.value? "cache-address", path := m.value? "path"
            force := m.has "force" } }]

/-- The command that the commands about the configuration come after. -/
def configWord : String := "config"

/-- The form of a command's name. -/
def form? (forms : List Form) (name : String) : Option Form := forms.find? fun f => f.name == name

/-- Whether an argument asks for help before any command is named. -/
def asksForHelp (argument : String) : Bool :=
  argument = "--help" || ['-', 'h'].isPrefixOf argument.toList

/-- What comes of a first argument that names no command. After `help`, more arguments may name
    one. -/
def refusal (isCommand : List String → Bool) : List String → Refusal
  | "help" :: names => if names.isEmpty || isCommand names then .help else .misuse
  | argument :: _ => if asksForHelp argument then .help else .misuse
  | [] => .misuse

/-- Reads the arguments of a command about the configuration. -/
def readConfig (arguments : List String) : Except Refusal Invocation :=
  match arguments.head?.bind (form? configForms) with
  | some f => (f.grammar.read arguments.tail).bind f.invocation
  | none => .error (refusal
      (fun names => names.length = 1 && (names.head?.bind (form? configForms)).isSome) arguments)

/-- Whether names lead to a command. -/
def isCommand : List String → Bool
  | [name] => name = configWord || name = "help" || (form? deviceForms name).isSome
  | [first, name] => first = configWord && (form? configForms name).isSome
  | _ => false

/-- Reads the arguments of a command line. -/
def Invocation.read (arguments : List String) : Except Refusal Invocation :=
  if arguments.head? = some configWord then readConfig arguments.tail
  else match arguments.head?.bind (form? deviceForms) with
    | some f => (f.grammar.read arguments.tail).bind f.invocation
    | none => .error (refusal isCommand arguments)

/-! ## Help -/

/-- A command and what it does. -/
def Form.line (start : String) (f : Form) : String :=
  "  " ++ start ++ f.name ++ ": " ++ f.summary

/-- What is shown to those who ask for help. -/
def manual : String :=
  Text.join "\n" (["Provision a test device with a new OS image, firmware and DLCs over SSH", "",
      "Usage: dut-provision <COMMAND>", "", "Commands:"]
    ++ deviceForms.map (Form.line "") ++ configForms.map (Form.line (configWord ++ " "))) ++ "\n"

end Reimage.CommandLine
