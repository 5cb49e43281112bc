import Rift.Lib.Bytes
import Rift.Lib.Dialogue
import Rift.Lib.Feed
import Rift.Lib.History
import Rift.Lib.Interference
import Rift.Lib.Map
import Rift.Lib.Selection
import Rift.Lib.AsyncIo
import Rift.Lib.Directory
import Rift.Lib.Duo
import Rift.Lib.File
import Rift.Lib.Framing
import Rift.Lib.Hex
import Rift.Lib.Lifecycle
import Rift.Lib.Paging
import Rift.Lib.Postcard
import Rift.Lib.RecordLog
import Rift.Lib.Totals
import Rift.Lib.FrameIo
import Rift.Lib.Json
import Rift.Lib.Recording
import Rift.Core
import Rift.Trust.Journal
import Rift.Trust.Replay
import Rift.Trust.Store
import Rift.Trust.Refinement
import Rift.Trust.Abandoned
import Rift.Trust.History
import Rift.Trust.Recovery
import Rift.Trust.Corruption
import Rift.Trust.Decisions
import Rift.Protocol.Transfer
import Rift.Protocol.Messages
import Rift.Protocol.Wire
import Rift.Protocol.Codec
import Rift.Protocol.FileName
import Rift.Protocol.Stream
import Rift.Protocol.Data
import Rift.Ipc.Messages
import Rift.Ipc.Encoding
import Rift.Ipc.Server
import Rift.Session.Machine
import Rift.Session.Pairing
import Rift.Session.Admission
import Rift.Session.Honest
import Rift.Session.Safety
import Rift.Transport.Control
import Rift.Identity.Envelope
import Rift.Identity.Creation
import Rift.Identity.Election
import Rift.Transfer.Machine
import Rift.Transfer.Streaming
import Rift.Transfer.Fencing
import Rift.Transfer.Payload
import Rift.Transfer.Record
import Rift.Transfer.Decoding
import Rift.Transfer.Discipline
import Rift.Transfer.Progress
import Rift.Transfer.Resume
import Rift.Transfer.Scan
import Rift.Transfer.Markers
import Rift.Transfer.RecordReading
import Rift.Transfer.StateScan
import Rift.Transfer.Agreement
import Rift.Daemon.Connectivity
import Rift.Daemon.Backoff
import Rift.Daemon.Scheduling
import Rift.Daemon.State
import Rift.Daemon.Tasks
import Rift.Daemon.Supervisor
import Rift.Daemon.Evolution
import Rift.Daemon.Handlers
import Rift.Daemon.Moves
import Rift.Daemon.Shutdown
import Rift.Daemon.Registry
import Rift.Daemon.Spawned
import Rift.Daemon.Connections
import Rift.Daemon.Sound
import Rift.Daemon.Fence
import Rift.Daemon.Registration
import Rift.Daemon.Dialling
import Rift.Daemon.Handled
import Rift.Daemon.Runs
import Rift.Daemon.Authorization
import Rift.Daemon.Coherence
import Rift.Daemon.Limits
import Rift.Daemon.Listing
import Rift.Daemon.Reconnect
import Rift.Daemon.Restart
import Rift.Daemon.SessionEvents
import Rift.Daemon.Attempts
import Rift.Daemon.FrameSize
import Rift.Daemon.Reports
import Rift.Daemon.Suspension
import Rift.Daemon.Commits
import Rift.Daemon.Ledger
import Rift.Daemon.PairingEvents
import Rift.Daemon.DialReplies
import Rift.Daemon.Favoured
import Rift.Daemon.Managed
import Rift.Daemon.Confirmations
import Rift.Daemon.FavouredSteps
import Rift.Daemon.Convergence
import Rift.Daemon.Setup
import Rift.Transfer.Source
import Rift.Ipc.Client
