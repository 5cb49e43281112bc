import Rift.Daemon.Tasks

/-! # What the supervisor does to its state

The updates that the handlers of the daemon's loop are made of. Each is what a handler does between
two looks at what it shares with the tasks, and so a function on the state. Each is one update of the
record: what it does not mention it leaves alone by definition. -/

namespace Rift.Daemon

open Rift.Lib Rift.Core Rift.Ipc Rift.Session Std
open Rift.Trust hiding Event

/-! ### Peers, dials and replies -/

section Updates

variable (σ : Daemon)

/-- Tells the clients of an event. -/
def emit (event : Ipc.Event) : Daemon := { σ with events := σ.events ++ [event] }

/-- Answers on a reply channel. -/
def send (reply : ReplyId) (message : Reply) : Daemon :=
  { σ with replies := σ.replies ++ [(reply, message)] }

def close (connection : ConnectionId) : Daemon := { σ with shared := σ.shared.close connection }

/-- The trust store after a call. -/
def setStore (store : StoreInner) : Daemon := { σ with shared := { σ.shared with store } }

/-- The connection has been closed. -/
def isClosed (connection : ConnectionId) : Bool := connection ∈ σ.shared.closed

/-- What `getrandom::u32` gives; a failure counts as the upper end of the jitter. -/
def sample : ℕ := (σ.shared.entropy.map UInt32.toNat).getD u32Max

/-- Spawns a task under a fresh number. -/
def spawn (task : Task) : Daemon :=
  { σ with tasks := σ.tasks.insert σ.nextTask task, nextTask := σ.nextTask + 1 }

/-- Replaces the managed peers. -/
def setPeers (peers : ExtTreeMap DeviceId Peer) : Daemon :=
  { σ with connectivity := { σ.connectivity with peers } }

/-- Changes a managed peer without reporting it. -/
def modifyPeer (deviceId : DeviceId) (f : Peer → Peer) : Daemon :=
  σ.setPeers (σ.connectivity.peers.modify deviceId f)

/-- Manages one more peer, if there is room. -/
def insertPeer (deviceId : DeviceId) : Option Daemon :=
  (σ.connectivity.insert deviceId σ.shared.clock).map fun connectivity => { σ with connectivity }

/-- The session of a device whose connection is not closed. -/
def canonicalSession (deviceId : DeviceId) : Option SessionId :=
  (σ.sessions.toList.find? fun entry =>
    entry.2.info.deviceId = deviceId ∧ entry.2.closer ∉ σ.shared.closed).map Prod.fst

/-- Changes a peer and reports its connectivity. -/
def changePeer (deviceId : DeviceId) (f : Peer → Peer) : Daemon :=
  let now := σ.shared.clock
  let report := σ.connectivity.peers[deviceId]?.bind fun peer => (f peer).report deviceId now
  { σ with
    connectivity :=
      { σ.connectivity with
        peers := σ.connectivity.peers.modify deviceId fun peer => (f peer).reported deviceId now }
    events := σ.events ++ report.toList.map Event.peerConnectivityChanged }

/-- A dial to the peer has failed, and clients are told. -/
def connectivityFailed (deviceId : DeviceId) (failure : ConnectivityFailure) : Daemon :=
  σ.changePeer deviceId fun peer => peer.failed failure σ.shared.clock σ.sample

/-- The callers that wait for a dial. -/
def waiters (deviceId : DeviceId) : List OutboundReply :=
  (σ.outbound[deviceId]?.map OutboundRecord.replies).getD []

/-- Cancels the dial to a peer and answers its callers. -/
def cancelOutbound (deviceId : DeviceId) (result : OperationResult DialResult) : Daemon :=
  { σ with
    outbound := σ.outbound.modify deviceId fun record =>
      { record with cancelled := true, replies := [] }
    replies := σ.replies ++ (σ.waiters deviceId).map (OutboundReply.message result) }

/-- Sends a dial result to the callers that wait for it. -/
def answer (waiting : List OutboundReply) (result : OperationResult DialResult) : Daemon :=
  { σ with replies := σ.replies ++ waiting.map (OutboundReply.message result) }

/-- Lets a caller wait for the dial that is under way. -/
def addWaiter (deviceId : DeviceId) (waiting : List OutboundReply) : Daemon :=
  let error := operationError .internal "outbound registry invariant failed"
  let unserved := if deviceId ∈ σ.outbound then [] else waiting
  { σ with
    outbound := σ.outbound.modify deviceId fun record =>
      { record with replies := record.replies ++ waiting }
    replies := σ.replies ++ unserved.map (OutboundReply.message (.error error)) }

/-- Whether a dial has a route to take. -/
def hasRouteSource (deviceId : DeviceId) : Except TransportFailure Bool :=
  (σ.shared.lookup deviceId).map fun external => external || deviceId ∈ σ.hints

/-- Keeps an address hint; the hints that are kept then go with the result. -/
def rememberPeerAddr (peer : EndpointAddr) :
    Except TransportFailure DeviceId × Finset DeviceId :=
  if peer.deviceId = σ.deviceId then (.error .invalidPeer, σ.hints)
  else if maxHintPaths < peer.paths then (.error .hintCapacityExceeded, σ.hints)
  else if peer.paths = 0 then (.ok peer.deviceId, σ.hints)
  else if peer.deviceId ∉ σ.hints ∧ maxPeerHints ≤ σ.hints.card then
    (.error .hintCapacityExceeded, σ.hints)
  else (.ok peer.deviceId, insert peer.deviceId σ.hints)

/-- The peer is unresolved and may be dialled. -/
def awaitsRoute (deviceId : DeviceId) : Bool :=
  σ.connectivity.peers[deviceId]?.any fun peer =>
    peer.state = .unresolved ∧ peer.suspended = false

/-- A caller wants the peer dialled again. -/
def resumePeer (deviceId : DeviceId) : Daemon :=
  σ.modifyPeer deviceId fun peer => peer.resume σ.shared.clock

/-- Starts a dial, with its record and its task. -/
def startDial (deviceId : DeviceId) (pairing : Bool) : Daemon :=
  let record : OutboundRecord :=
    { token := σ.nextDialId, pairing, replies := [], cancelled := false }
  { σ.changePeer deviceId Peer.dialling with
    nextDialId := σ.nextDialId + 1
    outbound := σ.outbound.insert deviceId record
    tasks := σ.tasks.insert σ.nextTask (.outbound deviceId record.token pairing .connecting)
    nextTask := σ.nextTask + 1 }

end Updates

/-! ### Pairings -/

/-- A command arrives in the channel of a pairing task that still listens to it. -/
def Task.receive (attempts : List PairingAttemptId) (command : PairingCommand) : Task → Task
  | .pairing id pending commands phase =>
    let listening := id ∈ attempts ∧ phase.isDone = false
    .pairing id pending (if listening then commands ++ [command] else commands) phase
  | task => task

/-- The task is that of the pairing and has not ended. -/
def Task.listensFor (attemptId : PairingAttemptId) : Task → Bool
  | .pairing id _ _ phase => id = attemptId ∧ phase.isDone = false
  | _ => false

/-- The time left until a deadline, in milliseconds. -/
def remainingMillis (deadline now : ℕ) : ℕ := min ((deadline - now) / nanosPerMilli) u64Max

/-- Exactly six decimal characters. -/
def verificationText (code : ℕ) : String :=
  let digits := toString code
  String.ofList (List.replicate (6 - digits.length) '0') ++ digits

section Pairings

variable (σ : Daemon)

/-- The channel of a pairing has a receiver. -/
def listens (attemptId : PairingAttemptId) : Bool :=
  σ.tasks.toList.any fun entry => entry.2.listensFor attemptId

/-- Puts a command into the channel of a pairing task. -/
def deliver (attemptId : PairingAttemptId) (command : PairingCommand) : Daemon :=
  { σ with
    tasks := σ.tasks.map fun _ task => task.receive [attemptId] command
    sent := σ.sent ++ [(attemptId, command)] }

/-- A pending candidate is dropped: its connection is closed and its slot is free. -/
def dropPending (pending : Pending) : Daemon :=
  { σ with shared := (σ.shared.close pending.connection).release }

/-- The record of a new pairing that waits for the local decision. -/
def pendingRecord (pending : Pending) (origin : SessionOrigin) : PendingRecord :=
  let peer := pending.pairing.peer
  let deadline := pending.pairing.localConfirmationDeadline
  { info :=
      { attemptId := σ.nextPairingId
        deviceId := peer.deviceId
        deviceName := peer.deviceName
        platform := peer.platform
        verificationCode := verificationText pending.pairing.code
        timeoutRemainingMs := remainingMillis deadline σ.shared.clock }
    deadline
    closer := pending.connection
    resolving := none
    origin }

/-- Registers a pairing and spawns its task. -/
def addPending (pending : Pending) (origin : SessionOrigin) : Daemon :=
  let record := σ.pendingRecord pending origin
  { σ with
    nextPairingId := σ.nextPairingId + 1
    pendingPairings := σ.pendingPairings.insert σ.nextPairingId record
    tasks := σ.tasks.insert σ.nextTask (.pairing σ.nextPairingId pending [] .waiting)
    nextTask := σ.nextTask + 1
    events := σ.events ++ [.pairingPending record.info] }

/-- Registers a pending pairing. -/
def setPending (attemptId : PairingAttemptId) (record : PendingRecord) : Daemon :=
  { σ with pendingPairings := σ.pendingPairings.insert attemptId record }

/-- Forgets a pending pairing. -/
def removePending (attemptId : PairingAttemptId) : Daemon :=
  { σ with pendingPairings := σ.pendingPairings.erase attemptId }

end Pairings

/-! ### Sessions -/

section Sessions

variable (σ : Daemon)

/-- The record of a device in the session registry. -/
def existingSession (deviceId : DeviceId) : Option (SessionId × SessionRecord) :=
  σ.sessions.toList.find? fun entry => entry.2.info.deviceId = deviceId

/-- Takes out the session that a new one replaces; `closed` says how it was found. -/
def retire (sessionId : SessionId) (record : SessionRecord) (closed : Bool) : Daemon :=
  let lost (peer : Peer) : Peer := if closed then peer.lost σ.shared.clock σ.sample else peer
  let reason : SessionCloseReason := if closed then .connectionClosed else .superseded
  { σ.modifyPeer record.info.deviceId lost with
    sessions := σ.sessions.erase sessionId
    shared := σ.shared.close record.closer
    events := σ.events ++ [.sessionClosed sessionId record.info.deviceId reason] }

/-- The record of a new session. -/
def sessionRecord (connection : Authorized) (origin : SessionOrigin) : SessionRecord :=
  { origin
    info :=
      { sessionId := σ.nextSessionId
        deviceId := connection.remoteDeviceId
        deviceName := connection.admitted.peer.deviceName
        platform := connection.admitted.peer.platform }
    closer := connection.connection
    trustGeneration := connection.trustGeneration }

/-- Registers a session and spawns its task. -/
def openSession (connection : Authorized) (origin : SessionOrigin) : Daemon :=
  let connected (peer : Peer) : Peer := peer.connected σ.nextSessionId σ.shared.clock
  { σ.changePeer connection.remoteDeviceId connected with
    nextSessionId := σ.nextSessionId + 1
    sessions := σ.sessions.insert σ.nextSessionId (σ.sessionRecord connection origin)
    tasks := σ.tasks.insert σ.nextTask (.session σ.nextSessionId connection none)
    nextTask := σ.nextTask + 1 }

/-- An inbound session that is preferred ends the dial to the same device. -/
def yieldDial (deviceId : DeviceId) (origin : SessionOrigin) (sessionId : SessionId) : Daemon :=
  if origin = .inbound ∧ compare σ.deviceId deviceId = .gt then
    σ.cancelOutbound deviceId (.ok (.session deviceId sessionId))
  else σ

/-- Ends everything that rests on trust in a peer: it is no longer managed, its dial is cancelled,
and every pairing and session with it leaves its registry. -/
def invalidatePeer (deviceId : DeviceId) (reason : SessionCloseReason) : Daemon :=
  let failed (peer : Peer) : Peer :=
    { peer with sessionId := none }.failed .notTrusted σ.shared.clock 0
  let reported := σ.changePeer deviceId failed
  let error := operationError .peerNotTrusted "durable trust invalidated outbound work"
  let cancelled := reported.cancelOutbound deviceId (.error error)
  let pairings := σ.pendingPairings.toList.filter fun entry => entry.2.info.deviceId = deviceId
  let sessions := σ.sessions.toList.filter fun entry => entry.2.info.deviceId = deviceId
  let closers := pairings.map (fun entry => entry.2.closer) ++
    sessions.map fun entry => entry.2.closer
  { cancelled with
    connectivity :=
      { σ.connectivity with peers := reported.connectivity.peers.erase deviceId }
    pendingPairings := σ.pendingPairings.filter fun _ record => record.info.deviceId ≠ deviceId
    sessions := σ.sessions.filter fun _ record => record.info.deviceId ≠ deviceId
    shared := { σ.shared with closed := σ.shared.closed ∪ closers.toFinset }
    tasks := σ.tasks.map fun _ task => task.receive (pairings.map Prod.fst) .cancel
    sent := σ.sent ++ pairings.map fun entry => (entry.1, .cancel)
    events := cancelled.events ++
      pairings.map (fun entry => Event.pairingResolved entry.1 deviceId .cancelled) ++
      sessions.map fun entry => Event.sessionClosed entry.1 deviceId reason }

/-- Disconnects a session on request and suspends reconnecting to its peer. -/
def disconnect (sessionId : SessionId) (record : SessionRecord) : Daemon :=
  let deviceId := record.info.deviceId
  let suspended := σ.changePeer deviceId fun peer => peer.suspend.lost σ.shared.clock 0
  let error := operationError .connectionFailed "local outbound reconnect suspended"
  let cancelled := suspended.cancelOutbound deviceId (.error error)
  { cancelled with
    sessions := σ.sessions.erase sessionId
    shared := σ.shared.close record.closer
    events := cancelled.events ++ [.sessionClosed sessionId deviceId .disconnected] }

/-- A session whose task has ended leaves the registry. -/
def sessionLost (sessionId : SessionId) (deviceId : DeviceId) (reason : SessionCloseReason)
    (failure : ConnectivityFailure) : Daemon :=
  let ended := σ.changePeer deviceId fun peer => peer.ended failure σ.shared.clock σ.sample
  { ended with
    sessions := σ.sessions.erase sessionId
    events := ended.events ++ [.sessionClosed sessionId deviceId reason] }

end Sessions

end Rift.Daemon
