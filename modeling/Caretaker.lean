import Caretaker.Command.LogFilter
import Caretaker.Command.Run
import Caretaker.Container.Basic
import Caretaker.Container.Call
import Caretaker.Container.Fault
import Caretaker.Container.Memory
import Caretaker.Crew.FairLock
import Caretaker.Crew.Operation
import Caretaker.Crew.Replace
import Caretaker.Crew.ReplaceError
import Caretaker.Crew.Request
import Caretaker.Crew.Roster
import Caretaker.Crew.World
import Caretaker.Dictionary
import Caretaker.Engine.Answer
import Caretaker.Engine.Archive
import Caretaker.Engine.Client
import Caretaker.Engine.CreateRequest
import Caretaker.Engine.Exchange
import Caretaker.Engine.Scripted
import Caretaker.Event
import Caretaker.Health
import Caretaker.Images.Refs
import Caretaker.Images.Store
import Caretaker.Json.Lines
import Caretaker.Json.Reader
import Caretaker.Json.Record
import Caretaker.Json.Shape
import Caretaker.Json.Token
import Caretaker.Json.Tree
import Caretaker.Launch
import Caretaker.Main
import Caretaker.Net.Http
import Caretaker.Net.IpAddress
import Caretaker.Net.Percent
import Caretaker.Net.Punycode
import Caretaker.Net.SocketAddress
import Caretaker.Net.Url
import Caretaker.Probe
import Caretaker.Proofs.Account
import Caretaker.Proofs.Addresses
import Caretaker.Proofs.Adrift
import Caretaker.Proofs.Advance
import Caretaker.Proofs.Aftermath
import Caretaker.Proofs.Alike
import Caretaker.Proofs.Alone
import Caretaker.Proofs.AnyRegistry
import Caretaker.Proofs.Applied
import Caretaker.Proofs.Attempts
import Caretaker.Proofs.Attended
import Caretaker.Proofs.BlindEngine
import Caretaker.Proofs.BlindMemory
import Caretaker.Proofs.BlockNumber
import Caretaker.Proofs.Bystander
import Caretaker.Proofs.Bytes
import Caretaker.Proofs.Chronicle
import Caretaker.Proofs.Commute
import Caretaker.Proofs.Concealed
import Caretaker.Proofs.Converge
import Caretaker.Proofs.Course
import Caretaker.Proofs.CrewAlike
import Caretaker.Proofs.Dialogue
import Caretaker.Proofs.Digits
import Caretaker.Proofs.Docket
import Caretaker.Proofs.Ensures
import Caretaker.Proofs.EntryNames
import Caretaker.Proofs.ExitEvidence
import Caretaker.Proofs.FairLock
import Caretaker.Proofs.Faithful
import Caretaker.Proofs.Finishing
import Caretaker.Proofs.Grammar
import Caretaker.Proofs.Headers
import Caretaker.Proofs.Heard
import Caretaker.Proofs.History
import Caretaker.Proofs.HostAlias
import Caretaker.Proofs.ImageStream
import Caretaker.Proofs.Immaterial
import Caretaker.Proofs.Incidents
import Caretaker.Proofs.Inventory
import Caretaker.Proofs.Kept
import Caretaker.Proofs.LastKnown
import Caretaker.Proofs.LastPasses
import Caretaker.Proofs.Lexemes
import Caretaker.Proofs.Line
import Caretaker.Proofs.LiveEvidence
import Caretaker.Proofs.Lone
import Caretaker.Proofs.LoneService
import Caretaker.Proofs.Memory
import Caretaker.Proofs.Mounts
import Caretaker.Proofs.Names
import Caretaker.Proofs.Numerals
import Caretaker.Proofs.Owned
import Caretaker.Proofs.Passes
import Caretaker.Proofs.Passphrase
import Caretaker.Proofs.Phases
import Caretaker.Proofs.Polling
import Caretaker.Proofs.Ports
import Caretaker.Proofs.Preconditions
import Caretaker.Proofs.Protocol
import Caretaker.Proofs.Pulling
import Caretaker.Proofs.Quantities
import Caretaker.Proofs.Records
import Caretaker.Proofs.RefsText
import Caretaker.Proofs.ReleaseRef
import Caretaker.Proofs.ReleaseVariable
import Caretaker.Proofs.Replace
import Caretaker.Proofs.Rest
import Caretaker.Proofs.Revive
import Caretaker.Proofs.RoundTrip
import Caretaker.Proofs.Rounds
import Caretaker.Proofs.Running
import Caretaker.Proofs.Scene
import Caretaker.Proofs.Scheduled
import Caretaker.Proofs.Serial
import Caretaker.Proofs.Serializable
import Caretaker.Proofs.Session
import Caretaker.Proofs.Settled
import Caretaker.Proofs.Shipshape
import Caretaker.Proofs.Spellings
import Caretaker.Proofs.Stages
import Caretaker.Proofs.StartPlan
import Caretaker.Proofs.StatusOfCopy
import Caretaker.Proofs.Stray
import Caretaker.Proofs.Successor
import Caretaker.Proofs.SupervisorOnly
import Caretaker.Proofs.Tending
import Caretaker.Proofs.Transcript
import Caretaker.Proofs.Turns
import Caretaker.Proofs.Unpack
import Caretaker.Proofs.Unreceivable
import Caretaker.Proofs.Updates
import Caretaker.Proofs.UpdatesEnd
import Caretaker.Proofs.Usage
import Caretaker.Proofs.Variables
import Caretaker.Proofs.Watchers
import Caretaker.Proofs.WatchersEnd
import Caretaker.Proofs.Work
import Caretaker.Registry
import Caretaker.Role
import Caretaker.Script
import Caretaker.Service.Activities
import Caretaker.Service.Error
import Caretaker.Service.Request
import Caretaker.Service.Simulation
import Caretaker.Service.Startup
import Caretaker.Service.World
import Caretaker.Settings
import Caretaker.Shutdown
import Caretaker.Tasks
import Caretaker.Text.Number
import Caretaker.Text.Quoted
import Caretaker.Text.Split
import Caretaker.Text.Utf8
