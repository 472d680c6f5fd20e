import Reimage.Text.Blank
import Reimage.Text.Hex
import Reimage.Text.Numeral
import Reimage.Text.Quoted
import Reimage.Text.Shapeless
import Reimage.Text.Utf8
import Reimage.Binary64
import Reimage.Json
import Reimage.Path
import Reimage.Program
import Reimage.SystemError
import Reimage.Time
import Reimage.Error
import Reimage.Log
import Reimage.Retry
import Reimage.Yaml.Cursor
import Reimage.Yaml.Lexeme
import Reimage.Yaml.Token
import Reimage.Yaml.Node
import Reimage.Yaml.Scalar
import Reimage.Yaml.Record
import Reimage.Yaml.Printer
import Reimage.Shell
import Reimage.GsPath
import Reimage.CacheProxy
import Reimage.Exec
import Reimage.Partition
import Reimage.Crosid
import Reimage.Request
import Reimage.ResponseDocument
import Reimage.Protobuf.Wire
import Reimage.Crash.Message
import Reimage.Crash.Frame
import Reimage.Crash.Delivery
import Reimage.Crash.Storage
import Reimage.Operation
import Reimage.Link.Current
import Reimage.Link.Ask
import Reimage.Link.Basic
import Reimage.Service
import Reimage.Install.Plan
import Reimage.Install.Command
import Reimage.Install.Stage
import Reimage.Install.Run
import Reimage.Config
import Reimage.Config.Document
import Reimage.Ssh
import Reimage.Ssh.Pump
import Reimage.CommandLine.Grammar
import Reimage.CommandLine.Invocation
import Reimage.CommandLine.Ask
import Reimage.CommandLine.Run
import Reimage.Simulation.Device
import Reimage.Simulation.World
import Reimage.Simulation.Session
import Reimage.Simulation.FileTree
import Reimage.Simulation.Offline
import Reimage.Simulation.Host
import Reimage.Main
import Reimage.Proofs.Install.Chain
import Reimage.Proofs.Asks
import Reimage.Proofs.Install.Lines
import Reimage.Proofs.Install.Utters
import Reimage.Proofs.Link.Lines
import Reimage.Proofs.Install.Probe
import Reimage.Proofs.Install.Stages
import Reimage.Proofs.Install.Target
import Reimage.Proofs.Install.Success
import Reimage.Proofs.Play
import Reimage.Proofs.Simulation.Memory
import Reimage.Proofs.Crash.Stream
import Reimage.Proofs.Link.Reboot
import Reimage.Proofs.GsPath
import Reimage.Proofs.Install.Source
import Reimage.Proofs.Operation.Registry
import Reimage.Proofs.Operation.Waiter
import Reimage.Proofs.Service.Closing
import Reimage.Proofs.Path
import Reimage.Proofs.Install.Packages
import Reimage.Proofs.Install.Slots
import Reimage.Proofs.Install.Places
import Reimage.Proofs.Install.Marks
import Reimage.Proofs.Drop
import Reimage.Proofs.Link.Open
import Reimage.Proofs.Install.Daemon
import Reimage.Proofs.Crash.Delivery
import Reimage.Proofs.Crash.Remarks
import Reimage.Proofs.Link.FirstUse
import Reimage.Proofs.Install.Legs
import Reimage.Proofs.Install.Reboots
import Reimage.Proofs.Link.Timetable
import Reimage.Proofs.Link.Restart
import Reimage.Proofs.Install.Firmware
import Reimage.Proofs.Install.CleanUp
import Reimage.Proofs.Link.Issues
import Reimage.Proofs.Install.Writes
import Reimage.Proofs.Install.Transfers
import Reimage.Proofs.Ssh.Pump
import Reimage.Proofs.Text.Blank
import Reimage.Proofs.Text.Numeral
import Reimage.Proofs.Crosid
import Reimage.Proofs.Simulation.FileTree
import Reimage.Proofs.Simulation.Host
import Reimage.Proofs.Crash.Storage
import Reimage.Proofs.Install.Stabilize
import Reimage.Proofs.Deadlines
import Reimage.Proofs.Json
import Reimage.Proofs.ResponseDocument
import Reimage.Proofs.Binary64
import Reimage.Proofs.Yaml.Scalar
import Reimage.Proofs.Yaml.Lexeme
import Reimage.Proofs.Yaml.Printer
import Reimage.Proofs.Yaml.Block
import Reimage.Proofs.Yaml.Token
import Reimage.Proofs.Yaml.Node
import Reimage.Proofs.Config.Document
import Reimage.Proofs.Config.File
import Reimage.Proofs.CommandLine.Configuration
import Reimage.Proofs.Habits
import Reimage.Proofs.InStep
import Reimage.Proofs.Install.Pace
import Reimage.Proofs.Install.Preserving
import Reimage.Proofs.Error
import Reimage.Proofs.Retry
import Reimage.Proofs.Simulation.Session
