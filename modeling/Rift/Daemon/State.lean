import Rift.Daemon.Connectivity
import Rift.Session.Admission
import Rift.Trust.Decisions

/-! # The state of the daemon

One supervisor owns the registries of pairings, sessions, dials and managed peers. It shares the
trust store, the connections and the pairing slots with the tasks it has spawned, whose states are
here too: a task is at one of its awaits, or done and not yet joined. What the supervisor sends, as
events, as replies and as commands to its pairing tasks, is kept as three logs.

The connections stand for the handles of the transport: `closed` holds those whose close reason is
set. A session record also keeps the trust generation its connection was admitted at, which in the
source only the session task holds. -/

namespace Rift.Daemon

open Rift.Lib Rift.Core Rift.Ipc Rift.Protocol Rift.Session Std
open Rift.Trust hiding Event

/-! ### Bounds and configuration -/

/-- The most connections that may be set up at once. -/
def hardMaxInflightConnections : ℕ := 256

/-- The most sessions. -/
def hardMaxActiveSessions : ℕ := 128

/-- The most dials at once. -/
def hardMaxOutboundConnects : ℕ := 64

/-- The most callers that wait for one dial. -/
def maxDialWaiters : ℕ := 16

/-- The most tasks. -/
def hardMaxOwnedTasks : ℕ := 1024

/-- The most pairings that may be pending. -/
def hardMaxPendingPairings : ℕ := 64

/-- The most local clients. -/
def hardMaxIpcClients : ℕ := 64

/-- The most peers with a transient address. -/
def maxPeerHints : ℕ := 4096

/-- The most paths of one address. -/
def maxHintPaths : ℕ := 32

/-- What the daemon is started with; durations are in nanoseconds. -/
structure DaemonConfig where
  deviceName : String
  platform : String
  connectionTimeout : ℕ
  handshakeTimeout : ℕ
  pairingTimeout : ℕ
  maxInflightConnections : ℕ
  maxActiveSessions : ℕ
  maxOutboundConnects : ℕ
  maxPendingPairings : ℕ
  maxIpcClients : ℕ
  shutdownTimeout : ℕ
  deriving DecidableEq

/-- Startup failures. -/
inductive DaemonError
  | invalidConfiguration (what : String)
  | trust (error : TrustStoreError)
  deriving DecidableEq

/-- Refuses a duration of zero. -/
def validateNonzeroDuration (duration : ℕ) (name : String) : Except DaemonError Unit :=
  if duration = 0 then .error (.invalidConfiguration name) else .ok ()

/-- Refuses a bound of zero and one over its maximum. -/
def validateCount (value maximum : ℕ) (name : String) : Except DaemonError Unit :=
  if value = 0 ∨ maximum < value then .error (.invalidConfiguration name) else .ok ()

/-- The checks at startup, in their order. -/
def DaemonConfig.validate (config : DaemonConfig) : Except DaemonError Unit := do
  validateNonzeroDuration config.connectionTimeout "connection_timeout"
  validateNonzeroDuration config.handshakeTimeout "handshake_timeout"
  validateNonzeroDuration config.pairingTimeout "pairing_timeout"
  validateNonzeroDuration config.shutdownTimeout "shutdown_timeout"
  validateCount config.maxInflightConnections hardMaxInflightConnections "max_inflight_connections"
  validateCount config.maxOutboundConnects hardMaxOutboundConnects "max_outbound_connects"
  validateCount config.maxActiveSessions hardMaxActiveSessions "max_active_sessions"
  validateCount config.maxPendingPairings hardMaxPendingPairings "max_pending_pairings"
  validateCount config.maxIpcClients hardMaxIpcClients "max_ipc_clients"

/-! ### Failed operations -/

/-- The text of a failed operation: a fixed one, or the display of an error, cut to 512 bytes. -/
inductive ErrorMessage
  | text (message : String)
  | trustStore (error : TrustStoreError)
  | pairing (error : PairingError)
  deriving DecidableEq

/-- A failed operation, as a client is told. -/
structure ErrorResponse where
  code : ErrorCode
  message : ErrorMessage
  deriving DecidableEq

/-- What an operation gives. -/
abbrev OperationResult (α : Type) := Except ErrorResponse α

/-- A failure with a fixed text. -/
def operationError (code : ErrorCode) (message : String) : ErrorResponse := ⟨code, .text message⟩

/-- How a failure of the transport is told. -/
def connectionError : TransportFailure → ErrorResponse
  | .unresolved => operationError .peerUnresolved "no reachability source for peer"
  | .intentRejected => operationError .purposeRejected "remote connection purpose rejected"
  | .invalidPeer => operationError .invalidRequest "invalid peer identity"
  | .hintCapacityExceeded => operationError .capacityExceeded "peer hint capacity exceeded"
  | .retryable => operationError .connectionFailed "peer connection failed"
  | .other => operationError .protocolRejected "connection protocol or invariant failed"

/-- How a failed admission is told. -/
def sessionError : SessionError → ErrorResponse
  | .intent error => connectionError error
  | .purposeNotAllowed _ _ =>
    operationError .peerNotTrusted "requested connection purpose is not allowed"
  | .peerRevoked _ => operationError .peerNotTrusted "peer is durably revoked"

/-- How a failure of the trust store is told. -/
def persistenceError (error : TrustStoreError) : ErrorResponse :=
  ⟨.persistenceFailed, .trustStore error⟩

/-- How a failed pairing is told. -/
def pairingError : PairingError → ErrorResponse
  | .transport _ source => connectionError (.ofTransport (.call source))
  | .trust error => persistenceError error
  | error => ⟨.connectionFailed, .pairing error⟩

/-- What a failed dial says about the peer. -/
def failureCategory : ErrorCode → ConnectivityFailure
  | .peerUnresolved => .unresolved
  | .connectionFailed => .network
  | .capacityExceeded => .capacity
  | .purposeRejected => .purposeRejected
  | .peerNotTrusted => .notTrusted
  | .peerAlreadyTrusted => .notTrusted
  | .shuttingDown => .cancelled
  | _ => .protocol

/-! ### Replies -/

/-- Stands for the receiving end of one reply channel. -/
abbrev ReplyId := ℕ

/-- What a dial gives its callers. -/
inductive DialResult
  | pairing (attemptId : PairingAttemptId)
  | session (deviceId : DeviceId) (sessionId : SessionId)
  deriving DecidableEq

/-- What is sent on a reply channel. -/
inductive Reply
  | response (result : OperationResult Response)
  | pairing (result : OperationResult PairingAttemptId)
  | session (result : OperationResult SessionId)
  | handle (result : OperationResult ConnectionId)
  | remembered (result : OperationResult DeviceId)
  deriving DecidableEq

/-- A caller that waits for a dial. -/
inductive OutboundReply
  | ipc (reply : ReplyId)
  | pairing (reply : ReplyId)
  | session (reply : ReplyId)
  deriving DecidableEq

/-- The result as the answer to a client. -/
def DialResult.response : DialResult → Response
  | .pairing attemptId => .pairingStarted attemptId
  | .session deviceId sessionId => .peerConnected deviceId sessionId

/-- The result as a pairing attempt. -/
def DialResult.attempt : DialResult → OperationResult PairingAttemptId
  | .pairing id => .ok id
  | .session _ _ => .error (operationError .internal "pairing result invariant failed")

/-- The result as a session. -/
def DialResult.sessionId : DialResult → OperationResult SessionId
  | .session _ id => .ok id
  | .pairing _ => .error (operationError .internal "session result invariant failed")

/-- What a caller is sent for the result of its dial. -/
def OutboundReply.message (result : OperationResult DialResult) : OutboundReply → ReplyId × Reply
  | .ipc reply => (reply, .response (result.map DialResult.response))
  | .pairing reply => (reply, .pairing (result.bind DialResult.attempt))
  | .session reply => (reply, .session (result.bind DialResult.sessionId))

/-! ### Candidates -/

/-- An admitted connection. -/
structure Authorized where
  connection : ConnectionId
  admitted : AuthorizedConnection
  deriving DecidableEq

namespace Authorized

def remoteDeviceId (c : Authorized) : DeviceId := c.admitted.peer.deviceId

def trustGeneration (c : Authorized) : ℕ := c.admitted.trustGeneration

end Authorized

/-- A pairing whose code is ready, on its connection. -/
structure Pending where
  connection : ConnectionId
  pairing : PendingPairing

namespace Pending

def remoteDeviceId (p : Pending) : DeviceId := p.pairing.peer.deviceId

def trustGeneration (p : Pending) : ℕ := p.pairing.trustGeneration

end Pending

/-- What setting up a connection gives. A pending candidate holds one of the pairing slots. -/
inductive ConnectionCandidate
  | authorized (connection : Authorized)
  | pending (pending : Pending)

/-! ### Tasks -/

/-- Where setting up a connection stands. The reads of the trust store are steps of their own. -/
inductive SetupPhase
  | connecting
  | capturing (b : BootstrappedConnection)
  | receivingIntent (b : BootstrappedConnection) (generation : ℕ)
  | checking (b : BootstrappedConnection) (generation : ℕ) (purpose : ConnectionPurpose)
  | exchanging (b : BootstrappedConnection) (generation : ℕ) (purpose : ConnectionPurpose)
      (entry : Option TrustEntry)
  | admitting (b : BootstrappedConnection) (generation : ℕ) (purpose : ConnectionPurpose)
  | deciding (b : BootstrappedConnection) (generation : ℕ) (purpose : ConnectionPurpose)
  | pairable (b : BootstrappedConnection) (generation : ℕ)
  | pairing (b : BootstrappedConnection) (generation : ℕ)
  | done (result : OperationResult ConnectionCandidate)

/-- What the supervisor sends a pairing task. -/
inductive PairingCommand
  | confirm (accepted : Bool) (reply : ReplyId)
  | cancel
  deriving DecidableEq

/-- How a pairing task ends. -/
inductive PairingTaskResult
  | authorized (connection : Authorized)
  | rejected
  | expired
  | cancelled
  | failed (error : ErrorResponse)
  deriving DecidableEq

/-- Where a pairing task stands: waiting for the local decision, carrying it out before or after the
trust commit, or done. -/
inductive PairingTaskPhase
  | waiting
  | confirming (accepted : Bool) (reply : ReplyId)
  | committed (reply : ReplyId)
  | done (result : PairingTaskResult) (reply : Option ReplyId)

/-- The task has nothing left to do. -/
def PairingTaskPhase.isDone : PairingTaskPhase → Bool
  | .done _ _ => true
  | _ => false

/-- A task that the supervisor has spawned and not yet joined. The commands of a pairing task are
those in its channel. -/
inductive Task
  | incoming (phase : SetupPhase)
  | outbound (deviceId : DeviceId) (token : ℕ) (pairing : Bool) (phase : SetupPhase)
  | pairing (attemptId : PairingAttemptId) (pending : Pending) (commands : List PairingCommand)
      (phase : PairingTaskPhase)
  | session (sessionId : SessionId) (connection : Authorized)
      (ended : Option ConnectivityFailure)
  | ipcClient (ended : Bool)

/-- What a task leaves behind for the supervisor. -/
inductive TaskOutput
  | incoming (result : OperationResult ConnectionCandidate)
  | outbound (deviceId : DeviceId) (token : ℕ) (result : OperationResult ConnectionCandidate)
  | pairingEnded (attemptId : PairingAttemptId) (deviceId : DeviceId) (result : PairingTaskResult)
      (reply : Option ReplyId)
  | sessionEnded (sessionId : SessionId) (deviceId : DeviceId) (reason : SessionCloseReason)
      (failure : ConnectivityFailure)
  | ipcClient

/-- What joining a task gives, once it is done. -/
def Task.output : Task → Option TaskOutput
  | .incoming (.done result) => some (.incoming result)
  | .outbound deviceId token _ (.done result) => some (.outbound deviceId token result)
  | .pairing attemptId pending _ (.done result reply) =>
    some (.pairingEnded attemptId pending.remoteDeviceId result reply)
  | .session sessionId connection (some failure) =>
    some (.sessionEnded sessionId connection.remoteDeviceId .connectionClosed failure)
  | .ipcClient true => some .ipcClient
  | _ => none

/-! ### Registries -/

/-- Who dialled. -/
inductive SessionOrigin
  | inbound
  | outbound
  deriving DecidableEq

/-- Of two connections between the same devices, the one dialled by the smaller identity stays. -/
def SessionOrigin.replaces (origin existing : SessionOrigin) (localId remote : DeviceId) : Bool :=
  let preferred : SessionOrigin := if compare localId remote = .lt then .outbound else .inbound
  origin = preferred ∧ existing ≠ preferred

/-- A registered session; `closer` is the connection it closes. -/
structure SessionRecord where
  origin : SessionOrigin
  info : SessionInfo
  closer : ConnectionId
  trustGeneration : ℕ
  deriving DecidableEq

/-- A pending pairing; `resolving` is the decision, once there is one. -/
structure PendingRecord where
  info : PendingPairingInfo
  deadline : ℕ
  closer : ConnectionId
  resolving : Option Bool
  origin : SessionOrigin
  deriving DecidableEq

/-- A dial under way, with those who wait for it. -/
structure OutboundRecord where
  token : ℕ
  pairing : Bool
  replies : List OutboundReply
  cancelled : Bool
  deriving DecidableEq

/-- A transient address of a peer, by the number of its paths. -/
structure EndpointAddr where
  deviceId : DeviceId
  paths : ℕ
  deriving DecidableEq

/-- What the supervisor shares with its tasks and the outside. `entropy` is what the operating
system's randomness gives next, and `lookup` whether there is an external route to an identity. -/
structure Shared where
  store : StoreInner
  closed : Finset ConnectionId
  permits : ℕ
  clock : ℕ
  entropy : Option UInt32
  lookup : DeviceId → Except TransportFailure Bool
  nextConnection : ConnectionId

end Rift.Daemon

namespace Rift

open Rift.Core Rift.Ipc Rift.Daemon Std

/-- The supervisor's own state, the tasks, what is shared with them, and what was sent. -/
structure Daemon where
  config : DaemonConfig
  deviceId : DeviceId
  shared : Shared
  hints : Finset DeviceId
  tasks : ExtTreeMap ℕ Task
  nextTask : ℕ
  pendingPairings : ExtTreeMap PairingAttemptId PendingRecord
  sessions : ExtTreeMap SessionId SessionRecord
  nextPairingId : ℕ
  nextSessionId : ℕ
  ipcClients : ℕ
  state : RuntimeState
  connectivity : Scheduler
  outbound : ExtTreeMap DeviceId OutboundRecord
  nextDialId : ℕ
  events : List Event
  replies : List (ReplyId × Reply)
  sent : List (PairingAttemptId × PairingCommand)

end Rift
