/-
  The configuration: which device to work on, how to reach it, and how long things may take.

  * `HostTable` maps device names to addresses, each name once and in order;
  * `Config.validate` is what a configuration that was read must satisfy;
  * `Config.resolve` finds the address of the device.
-/
import Reimage.Install.Plan
import Reimage.Path
import Reimage.Retry
import Reimage.Service

namespace Reimage

/-! ## Hosts -/

/-- Puts an entry into a table that is ordered by name. -/
def putHost (name address : String) : List (String × String) → List (String × String)
  | [] => [(name, address)]
  | e :: rest =>
    if name < e.1 then (name, address) :: e :: rest
    else if name = e.1 then (name, address) :: rest
    else e :: putHost name address rest

/-- Addresses of devices by name. -/
structure HostTable where
  entries : List (String × String) := []
  sorted : entries.Pairwise (fun a b => a.1 < b.1) := by simp
  deriving DecidableEq

/-- Every entry behind a new one comes after it, if that held before. -/
theorem putHost_all_lt {bound name address : String} {entries : List (String × String)}
    (hbound : bound < name) (h : ∀ e ∈ entries, bound < e.1) :
    ∀ e ∈ putHost name address entries, bound < e.1 := by
  induction entries with
  | nil => intro e he; simp only [putHost, List.mem_singleton] at he; rw [he]; exact hbound
  | cons f rest ih =>
    have hrest := ih fun e he => h e (List.mem_cons_of_mem _ he)
    intro e he
    unfold putHost at he
    split at he
    · rcases List.mem_cons.1 he with rfl | he
      · exact hbound
      · exact h e he
    · split at he
      · rcases List.mem_cons.1 he with rfl | he
        · exact hbound
        · exact h e (List.mem_cons_of_mem _ he)
      · rcases List.mem_cons.1 he with rfl | he
        · exact h _ List.mem_cons_self
        · exact hrest e he

/-- A table stays in order. -/
theorem putHost_sorted {name address : String} {entries : List (String × String)}
    (h : entries.Pairwise fun a b => a.1 < b.1) :
    (putHost name address entries).Pairwise fun a b => a.1 < b.1 := by
  induction entries with
  | nil => simp [putHost]
  | cons f rest ih =>
    have hf := (List.pairwise_cons.1 h).1
    have hrest := (List.pairwise_cons.1 h).2
    unfold putHost
    split
    · rename_i hlt
      refine List.pairwise_cons.2 ⟨?_, h⟩
      intro e he
      rcases List.mem_cons.1 he with rfl | he
      · exact hlt
      · exact String.lt_trans hlt (hf e he)
    · split
      · rename_i heq
        refine List.pairwise_cons.2 ⟨?_, hrest⟩
        intro e he
        rw [heq]
        exact hf e he
      · rename_i hnlt hne
        refine List.pairwise_cons.2 ⟨putHost_all_lt ?_ hf, ih hrest⟩
        exact Std.lt_of_le_of_ne (String.not_lt.1 hnlt) (Ne.symm hne)

namespace HostTable

/-- The table without entries. -/
def empty : HostTable := {}

instance : Inhabited HostTable := ⟨empty⟩

/-- The table with the address of a device, in place of an earlier one. -/
def insert (t : HostTable) (name address : String) : HostTable :=
  ⟨putHost name address t.entries, putHost_sorted t.sorted⟩

/-- The table of some entries; of two for one name the later counts. -/
def ofList (entries : List (String × String)) : HostTable :=
  entries.foldl (fun t e => t.insert e.1 e.2) empty

/-- The address of a device. Without any entries a name is its own address. -/
def resolve (t : HostTable) (dut : String) : Result String :=
  if t.entries.isEmpty then .ok dut
  else match t.entries.lookup dut with
    | some address => .ok address
    | none => .error (.notFound ("address for device " ++ dut))

end HostTable

/-! ## Configuration -/

/-- The device under test and how to log in to it. -/
structure DutConfig where
  /-- The device's name, or its address. -/
  name : String
  user : String := "root"
  /-- The port for addresses that have none. -/
  port : UInt16 := 22
  /-- The file of the key to log in with. -/
  sshKey : Option String := none
  /-- How many seconds connecting may take. -/
  timeoutSecs : UInt64 := 60
  deriving DecidableEq, Repr, Inhabited

/-- The path of the key, where `~/` in front means the home directory if there is one. -/
def DutConfig.expandedSshKey (d : DutConfig) (home : Option String) : Option String :=
  d.sshKey.map fun key =>
    match home, Text.dropStart? ['~', '/'] key.toList with
    | some home, some rest => Path.join home (String.ofList rest)
    | _, _ => key

structure Config where
  dut : DutConfig
  hosts : HostTable := .empty
  /-- The address of the caching proxy, empty if there is none. -/
  cacheAddress : String := ""
  /-- Where the crash report helper is on the device. -/
  serializerPath : String := "/usr/local/sbin/crash_serializer"
  /-- The largest chunk the helper may send. -/
  chunkSize : UInt64 := 1048576
  rebootTimeoutSecs : UInt64 := 120
  firmwareRebootTimeoutSecs : UInt64 := 300
  dialRetry : RetryPolicy := {}
  deriving DecidableEq

instance : Inhabited Config := ⟨{ dut := default }⟩

namespace Config

/-- Refuses a configuration without a device or with time limits of zero. -/
def validate (c : Config) : Result Unit :=
  if (Text.trimChars c.dut.name.toList).isEmpty then
    .error (.config "dut.name must not be empty")
  else if c.firmwareRebootTimeoutSecs = 0 || c.rebootTimeoutSecs = 0 then
    .error (.config "reboot timeouts must be greater than zero")
  else .ok ()

def rebootTimeout (c : Config) : Duration := .ofSecs c.rebootTimeoutSecs.toNat

def firmwareRebootTimeout (c : Config) : Duration := .ofSecs c.firmwareRebootTimeoutSecs.toNat

/-- The address of the configured device. -/
def resolve (c : Config) : Result String := c.hosts.resolve c.dut.name

/-- The link to the configured device. -/
def link (c : Config) : Link := { dut := c.dut.name, cacheAddress := c.cacheAddress }

/-- The service for the configured device. -/
def service (c : Config) : Service :=
  { link := c.link, helperPath := c.serializerPath, chunkSize := c.chunkSize.toNat
    rebootTimeout := c.rebootTimeout }

/-- The plan of installing what a request asks for on the configured device. -/
def plan (c : Config) (request : Request) : Plan :=
  { link := c.link, request := request, rebootTimeout := c.rebootTimeout
    firmwareRebootTimeout := c.firmwareRebootTimeout }

/-- Where the configuration is in a directory of configurations. -/
def pathIn (dir : String) : String := Path.join (Path.join dir "dut-provision") "config.yml"

/-- Where the configuration is, given the home directory and the directory of configurations, which
    only counts if its path is absolute. -/
def defaultPath (home : String) (configHome : Option String) : String :=
  pathIn ((configHome.filter Path.isAbsolute).getD (Path.join home ".config"))

end Config

end Reimage
