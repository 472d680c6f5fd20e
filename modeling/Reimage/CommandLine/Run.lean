/-
  Doing what a command line asks for.

  A command about a device first finds its configuration, then does its work on the device, lets go
  of the device, and only then reports how the work went. The exit code is 0 after success, 1 after
  a failure, and 2 if the arguments could not be read.
-/
import Reimage.CommandLine.Ask
import Reimage.CommandLine.Invocation
import Reimage.Crash.Storage
import Reimage.Install.Run
import Reimage.ResponseDocument

namespace Reimage.CommandLine

/-- What is known of the user. -/
structure User where
  /-- The home directory, if it is known. -/
  home : Option String
  /-- The directory of configurations, if the user has chosen one. -/
  configHome : Option String := none
  deriving DecidableEq, Repr, Inhabited

/-- Where the user's configuration is, if there is a directory of configurations. -/
def User.configPath (u : User) : Option String :=
  match u.home with
  | some home => some (Config.defaultPath home u.configHome)
  | none => (u.configHome.filter Path.isAbsolute).map Config.pathIn

/-! ## Configurations -/

/-- Loads a configuration. -/
def loadConfig (path : String) : Terminal (Result Config) := do
  return Config.load path ((← readText path).mapError SystemError.text)

/-- Loads the configuration that is named, or else the user's. -/
def User.loadConfig (u : User) (path : Option String) : Terminal (Result Config) :=
  match path.or u.configPath with
  | some path => CommandLine.loadConfig path
  | none => return .error (.config "could not determine config directory, pass --config explicitly")

/-- The configuration to work with. A device that is named needs no file, unless a file is named
    too. -/
def DeviceChoice.choose (d : DeviceChoice) : Result Config → Except Failure Config
  | .ok c =>
    match d.dut with
    | some dut => .ok { c with dut := { c.dut with name := dut } }
    | none => .ok c
  | .error e =>
    match d.dut, d.config with
    | some dut, none => .ok { dut := { name := dut } }
    | _, _ => .error ⟨e.message
        ++ "\n\nPass --dut <host> or create a config with `dut-provision config init`", []⟩

/-- Finds the configuration to work with. -/
def DeviceChoice.load (d : DeviceChoice) (u : User) : Work Config :=
  ExceptT.mk do return d.choose (← u.loadConfig d.config)

/-- Begins to work on the chosen device. -/
def DeviceChoice.begin (d : DeviceChoice) (u : User) : Work Config := do
  let c ← d.load u
  Work.ask (.use c)
  return c

/-- Writes a file in a directory that is made first. -/
def save (path contents : String) : Terminal (Except SystemError Unit) := do
  match ← Terminal.ask (.createDirs (Path.parent path)) with
  | .error e => return .error e
  | .ok () => Terminal.ask (.writeFile path (Text.Utf8.ofString contents))

/-- The configuration that is asked for. -/
def NewConfig.config (n : NewConfig) : Config :=
  { dut := { name := n.dut, user := n.user, port := n.port, sshKey := n.sshKey }
    cacheAddress := n.cacheAddress.getD "" }

/-- Writes a new configuration to a file. -/
def NewConfig.writeTo (n : NewConfig) (path : String) : Work Unit := do
  if (← Work.ask (.pathExists path)) && !n.force then
    throw ⟨"Configuration file already exists at " ++ path ++ "\nUse --force to overwrite", []⟩
  Work.attempt (save path n.config.document) fun e => .ofError (.io e.text)
  Work.printLine ("✓ Configuration written to " ++ path)

/-- Writes a new configuration where that is asked for, or else as the user's. -/
def NewConfig.write (n : NewConfig) (u : User) : Work Unit :=
  match n.path.or u.configPath with
  | some path => n.writeTo path
  | none => throw ⟨"Could not determine configuration directory, pass --path", []⟩

/-! ## Operations -/

/-- Waits for an operation in the background. -/
def awaitOperation (s : Service) (op : Operation) (timeout : Duration) :
    Work OperationResponse := do
  Work.printLine ("Started " ++ op.name)
  let op ← Work.check (liftM (s.awaitOperation op.name timeout))
  match op.result with
  | none => throw ⟨op.name ++ " still running after " ++ timeout.text, []⟩
  | some (.error f) => throw ⟨op.name ++ " failed (" ++ f.kind.name ++ "): " ++ f.message, []⟩
  | some (.ok response) => return response

/-- Lets go of the device once the work is done or has failed. -/
def thenClose {α : Type} (w : Work α) (s : Service) : Work α := w.andFinally (liftM s.close)

/-- How long to wait for a reboot that may take `timeout`: as long as that, and as long again for
    connecting. -/
def restartLimit (timeout : Duration) : Work Duration := do
  match timeout.add? timeout with
  | some limit => return limit
  | none =>
    let never : Empty ← Work.ask (.abort "overflow when adding durations")
    nomatch never

/-- Reboots the device. -/
def restart (c : Config) (args : List String) : Work Unit := do
  let op ← Work.check (liftM (c.service.restart args))
  let response ← thenClose
    (do awaitOperation c.service op (← restartLimit c.rebootTimeout)) c.service
  if let .restart output := response then
    if !(Text.trim output).isEmpty then Work.printLine (Text.trim output)
  Work.printLine ("✓ " ++ c.dut.name ++ " restarted")

/-- Replaces the connection to the device. -/
def reconnect (c : Config) : Work Unit := do
  let op ← Work.check (liftM c.service.forceReconnect)
  let connect : Work Unit := do
    let _ ← awaitOperation c.service op c.rebootTimeout
    let current : Option Connection ← liftM (Task.ask .current)
    if let some connection := current then
      Work.printLine ("✓ Connected to " ++ c.dut.name ++ " at " ++ connection.address)
  thenClose connect c.service

/-- Downloads can be large. -/
def downloadTimeout : Duration := .ofSecs 3600

/-- The artifact to download. -/
def Download.source (d : Download) : CacheProxy.Source :=
  match d.extract with
  | some member => .member d.url member
  | none => if d.decompress then .archive d.url else .file d.url

/-- Where the download goes. -/
def Download.destination (d : Download) : Except Failure CacheProxy.Destination :=
  match d.file, d.pipe with
  | some path, none => .ok (.file path)
  | none, some commands => .ok (.pipe commands)
  | _, _ => .error ⟨"Specify exactly one of --file or --pipe", []⟩

/-- Downloads an artifact onto the device. -/
def download (c : Config) (d : Download) (destination : CacheProxy.Destination) : Work Unit := do
  let work : Work OperationResponse := do
    let op ← Work.check (liftM (c.service.cache d.source destination))
    awaitOperation c.service op downloadTimeout
  let _ ← thenClose work c.service
  Work.printLine ("✓ Cached " ++ d.url)

/-! ## Single commands -/

/-- Runs a command on the device and passes on what it prints. -/
def exec (c : Config) (combined : Bool) (stdin : Option String) (command : String)
    (args : List String) : Work Unit := do
  let input ← match stdin with
    | none => pure none
    | some path => do
      let bytes ← Work.attempt (Terminal.ask (.readFile path)) fun e => ⟨e.text, []⟩
      pure (some bytes)
  let mode : StderrMode := if combined then .combined else .separate
  let result : ExecResult ← liftM (c.service.exec command args input mode)
  let _ : Unit ← liftM c.service.close
  Work.ask (.print result.stdout)
  Work.ask (.printError result.stderr)
  match result with
  | .notStarted message => throw ⟨"command did not start: " ++ message, []⟩
  | .finished output =>
    if output.status ≠ 0 then
      throw ⟨"command exited with status " ++ toString output.status, []⟩

/-- Prints the identity of the device's configuration. -/
def detectConfig (c : Config) : Work Unit := do
  let id ← thenClose (Work.check (liftM c.service.detect)) c.service
  Work.printLine ("Platform:      " ++ id.platform)
  Work.printLine ("Model:         " ++ id.model)
  Work.printLine ("SKU:           " ++ match id.sku with
    | some sku => toString sku
    | none => "(none)")
  Work.printLine ("Brand:         " ++ id.brand)
  Work.printLine ("Customization: " ++ id.customization)

/-! ## Crashes -/

/-- Adds the data in a message to its file. -/
def store (directory : String) (m : Crash.Message) : Terminal (Result Unit) :=
  match m.stored? with
  | none => pure (.ok ())
  | some (name, data) => do
    let outcome : Except SystemError Unit ←
      Terminal.ask (.appendFile (Path.join directory name) data)
    return outcome.mapError fun e => .io e.text

/-- Prints what a message is about and stores its data, if there is a directory for them. -/
def receive (directory : Option String) (m : Crash.Message) : Terminal (Result Unit) := do
  Terminal.ask (.print (Text.Utf8.ofString (m.summary ++ "\n")))
  match directory with
  | none => return .ok ()
  | some directory => store directory m

/-- Fetches the crash reports of the device. -/
def fetchCrashes (c : Config) (core : Bool) (outputDir : Option String) : Work Unit := do
  if let some directory := outputDir then
    Work.attempt (Terminal.ask (.createDirs directory))
      (.ofSystem ("failed to create " ++ directory))
  let work := c.service.fetchCrashes core (receive outputDir)
  let count ← thenClose (Work.check work) c.service
  Work.printLine ("✓ Received " ++ toString count ++ " crash messages")

/-! ## Installing -/

/-- Writes the report of an installation. -/
def saveResponse (path : String) (r : Response) : Work Unit := do
  Work.attempt (Terminal.ask (.createDirs (Path.parent path)))
    (.ofSystem ("failed to create directory for " ++ path))
  Work.attempt (Terminal.ask (.writeFile path (Text.Utf8.ofString r.pretty)))
    (.ofSystem ("failed to write " ++ path))

/-- Installs what a request asks for, and writes a report even of an installation that failed. -/
def provision (d : DeviceChoice) (u : User) (input output : String) : Work Unit := do
  let contents ← Work.attempt (readText input) (.ofSystem ("failed to read request " ++ input))
  let request ← Work.check (pure (Request.parse contents))
  let c ← d.begin u
  let response : Response ← liftM (c.plan request).provision
  let _ : Unit ← liftM c.link.close
  saveResponse output response
  if response.isSuccess then Work.printLine ("✓ Provisioned " ++ response.dut)
  else
    throw ⟨"failed to provision (" ++ response.status.name ++ "): "
      ++ response.error.getD "unknown error", []⟩

/-! ## Command lines -/

/-- Does what is asked for. -/
def Invocation.perform (u : User) : Invocation → Work Unit
  | .provision d input output => CommandLine.provision d u input output
  | .exec d combined stdin command args => do
    CommandLine.exec (← d.begin u) combined stdin command args
  | .restart d args => do CommandLine.restart (← d.begin u) args
  | .reconnect d => do CommandLine.reconnect (← d.begin u)
  | .cache d what => do
    let destination ← liftM what.destination
    download (← d.begin u) what destination
  | .fetchCrashes d core outputDir => do CommandLine.fetchCrashes (← d.begin u) core outputDir
  | .detectConfig d => do CommandLine.detectConfig (← d.begin u)
  | .showConfig path => do
    let c ← Work.check (u.loadConfig path)
    Work.printLine c.document
  | .showPath =>
    match u.configPath with
    | some path => do
      Work.printLine ("Configuration file path: " ++ path)
      Work.printLine (if ← Work.ask (.pathExists path) then "Status: File exists"
        else "Status: File does not exist")
    | none => Work.printLine "Could not determine configuration directory"
  | .initConfig new => new.write u

/-- Runs a command line and gives its exit code. -/
def run (u : User) (arguments : List String) : Terminal Nat := do
  match Invocation.read arguments with
  | .error .help =>
    Terminal.ask (.print (Text.Utf8.ofString manual))
    return 0
  | .error .misuse =>
    Terminal.ask (.printError (Text.Utf8.ofString manual))
    return 2
  | .ok invocation =>
    match ← (invocation.perform u).run with
    | .ok () => return 0
    | .error f =>
      Terminal.ask (.printError (Text.Utf8.ofString f.report))
      return 1

end Reimage.CommandLine
