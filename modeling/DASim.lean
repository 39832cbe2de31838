import DASim.Lib.OrdMap
import DASim.Lib.NodeList
import DASim.Lib.Pool
import DASim.Lib.Placement
import DASim.Lib.Run
import DASim.Lib.Dialogue
import DASim.Lib.Bytes
import DASim.Lib.Ensures
import DASim.Lib.Rearrange
import DASim.Buffer.State
import DASim.Buffer.Operations
import DASim.Buffer.Ownership
import DASim.Buffer.Effects
import DASim.Buffer.Invariants
import DASim.Buffer.Layout
import DASim.Buffer.Files
import DASim.Buffer.Capacity
import DASim.Buffer.Victim
import DASim.Buffer.Residency
import DASim.Buffer.Contents
import DASim.Buffer.Refinement
import DASim.Buffer.Flat
import DASim.Buffer.Transfer
import DASim.Buffer.Restart
import DASim.Buffer.Record
import DASim.Buffer.Isolation
import DASim.Client.Faults
import DASim.Client.Manager
import DASim.Client.Sections
import DASim.Client.Effects
import DASim.Client.Isolation
import DASim.Client.Requests
import DASim.Client.Agreement
import DASim.Client.Dispatch
import DASim.Client.Refcount
import DASim.Client.Persist
import DASim.Client.Blocking
import DASim.Client.View
import DASim.Client.Absence
import DASim.Client.Lifecycle
import DASim.Client.Queries
import DASim.Client.Access
import DASim.Client.Durability
import DASim.Client.Crash
import DASim.Client.Registration
import DASim.Client.Programs
import DASim.Library.Map
import DASim.Library.Calls
import DASim.Demo.File
import DASim.Library.Errors
import DASim.Demo.Vfs
import DASim.Demo.Isolation
import DASim.Demo.Sync
import DASim.Demo.Quicksort
import DASim.Protocol.Wire
import DASim.Protocol.System
import DASim.Protocol.Steps
import DASim.Protocol.Connections
import DASim.Protocol.Registry
import DASim.Protocol.Threads
import DASim.Protocol.Serial
import DASim.Protocol.Progress
import DASim.Demo.Backing
