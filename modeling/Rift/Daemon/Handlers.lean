import Rift.Daemon.Supervisor
import Rift.Lib.Interference

/-! # The daemon's loop

Each handler is a program that shares its state with the tasks: before every look at the trust store,
at whether a connection is closed or a channel has a receiver, and at the pairing slots, the tasks
may take any number of steps. A step of the daemon is one handled event, against a script of what the
tasks do meanwhile, or a step of a task between two events.

`Shutdown` and the failures that end the loop are not steps: a run is a daemon up to then. -/

namespace Rift.Daemon

open Rift.Lib Rift.Lib.Interference Rift.Core Rift.Ipc Rift.Session Std
open Rift.Trust hiding Event

/-- A handler of the supervisor, which tasks interrupt wherever it waits. -/
abbrev Handler := Program Daemon TaskStep

variable (blake3 : Blake3)

/-- Looks at what the tasks may have changed. -/
def look {α : Type} (f : Daemon → α) : Handler α := observe (taskStep blake3) f

/-! ### Sessions -/

/-- The session that a new one replaces, if there is one, and whether its connection is closed. -/
abbrev Existing := Option (SessionId × SessionRecord × Bool)

/-- The registry without the session that a new one replaces. -/
def retireExisting (σ : Daemon) : Existing → Daemon
  | some (sessionId, record, closed) => σ.retire sessionId record closed
  | none => σ

/-- Registers an admitted connection, unless trust has changed since. -/
def registerSession (connection : Authorized) (origin : SessionOrigin) :
    Handler (OperationResult SessionId) := do
  let deviceId := connection.remoteDeviceId
  let state ← look blake3 fun σ => σ.shared.store.state deviceId
  let generation ← look blake3 fun σ => σ.shared.store.currentGeneration deviceId
  if state ≠ some .trusted ∨ generation ≠ connection.trustGeneration then
    update (close · connection.connection)
    return .error (operationError .peerNotTrusted "durable trust no longer authorizes this peer")
  else
  if ← look blake3 (isClosed · connection.connection) then
    match ← look blake3 (canonicalSession · deviceId) with
    | some sessionId => return .ok sessionId
    | none =>
      return .error (operationError .connectionFailed "candidate connection already closed")
  else
  match ← owned (insertPeer · deviceId) with
  | none =>
    update (close · connection.connection)
    return .error (operationError .capacityExceeded "connectivity peer capacity reached")
  | some managed =>
    update fun _ => managed
    registerManaged
where
  /-- The rest, once the peer is managed. -/
  registerManaged : Handler (OperationResult SessionId) := do
    let deviceId := connection.remoteDeviceId
    match ← owned (existingSession · deviceId) with
    | some (sessionId, record) =>
      let closed ← look blake3 (isClosed · record.closer)
      let localId ← owned Daemon.deviceId
      if closed = false ∧ origin.replaces record.origin localId deviceId = false then
        update (close · connection.connection)
        return .ok sessionId
      else registerOpen (some (sessionId, record, closed))
    | none =>
      if ← owned fun σ => decide (σ.config.maxActiveSessions ≤ σ.sessions.size) then
        update (close · connection.connection)
        return .error (operationError .capacityExceeded "active session capacity reached")
      else registerOpen none
  /-- The rest, once the session that is to be replaced is known. -/
  registerOpen (existing : Existing) :
      Handler (OperationResult SessionId) := do
    -- One slot stays free for the incoming worker that is respawned after this result.
    if ← owned fun σ => decide (hardMaxOwnedTasks - 1 ≤ σ.tasks.size) then
      update (close · connection.connection)
      return .error (operationError .capacityExceeded "owned task capacity reached")
    else
    let sessionId ← owned Daemon.nextSessionId
    if sessionId = u64Max then
      update (close · connection.connection)
      return .error (operationError .internal "session ID space exhausted")
    else
    let info := (← owned (sessionRecord · connection origin)).info
    update fun σ => (retireExisting σ existing).openSession connection origin
    update (yieldDial · info.deviceId origin sessionId)
    update (emit · (.sessionOpened info))
    return .ok sessionId

/-! ### Pairings -/

/-- Registers a pairing, unless trust has changed since. -/
def registerPending (pending : Pending) (origin : SessionOrigin) :
    Handler (OperationResult PairingAttemptId) := do
  let deviceId := pending.remoteDeviceId
  let state ← look blake3 fun σ => σ.shared.store.state deviceId
  let generation ← look blake3 fun σ => σ.shared.store.currentGeneration deviceId
  if state ≠ none ∨ generation ≠ pending.trustGeneration then
    update (dropPending · pending)
    return .error (operationError .peerNotTrusted
      "pairing setup was invalidated before registration")
  else
  if ← owned fun σ => decide (σ.config.maxPendingPairings ≤ σ.pendingPairings.size ∨
      hardMaxOwnedTasks - 1 ≤ σ.tasks.size) then
    update (dropPending · pending)
    return .error (operationError .capacityExceeded "pending pairing capacity reached")
  else
  let attemptId ← owned Daemon.nextPairingId
  if attemptId = u64Max then
    update (dropPending · pending)
    return .error (operationError .internal "pairing attempt ID space exhausted")
  else
  update (addPending · pending origin)
  return .ok attemptId

/-- The managed peers and the accepted pairings fill the room there is. -/
def managedFull (σ : Daemon) : Bool :=
  maxManagedPeers ≤ σ.connectivity.peers.size +
    (σ.pendingPairings.values.filter fun record => record.resolving = some true).length

/-- The answer to a decision on a pairing that is not pending. -/
def notFound (message : String) : Reply :=
  .response (.error (operationError .pairingNotFound message))

/-- Hands the local decision to the task of a pairing. -/
def confirmPairing (attemptId : PairingAttemptId) (accepted : Bool) (reply : ReplyId) :
    Handler Unit := do
  if ← owned fun σ => accepted && managedFull σ then
    update (send · reply (.response (.error (operationError .capacityExceeded
      "managed peer capacity reached before trust confirmation"))))
  else
  match ← owned fun σ => σ.pendingPairings[attemptId]? with
  | none => update (send · reply (notFound "pending pairing was not found"))
  | some record =>
    if record.resolving ≠ none then
      update (send · reply (notFound "pending pairing is already resolving"))
    else
    update (setPending · attemptId { record with resolving := some accepted })
    if ← look blake3 (listens · attemptId) then
      update (deliver · attemptId (.confirm accepted reply))
    else update (removePending · attemptId)

/-- The outcome and the answer of a pairing that ended without a connection. -/
def pairingEnd (attemptId : PairingAttemptId) :
    PairingTaskResult → PairingOutcome × OperationResult Response
  | .rejected => (.rejected, .ok (.pairingResolved attemptId false none))
  | .expired =>
    (.expired, .error (operationError .pairingNotFound "pairing confirmation expired"))
  | .cancelled => (.cancelled, .error (operationError .pairingNotFound "pairing was cancelled"))
  | .failed error => (.failed, .error error)
  | .authorized _ =>
    (.cancelled,
      .error (operationError .pairingNotFound "pairing was invalidated before authorization"))

/-- Reports the end of a pairing that was still registered and answers the local decision. -/
def resolvePairing (σ : Daemon) (attemptId : PairingAttemptId) (deviceId : DeviceId)
    (registered : Bool) (reply : Option ReplyId)
    (result : PairingOutcome × OperationResult Response) : Daemon :=
  let reported :=
    if registered then σ.emit (.pairingResolved attemptId deviceId result.1) else σ
  match reply with
  | none => reported
  | some reply => reported.send reply (.response result.2)

/-- A pairing task has ended: an authorized connection is registered as a session. -/
def finishPairing (attemptId : PairingAttemptId) (deviceId : DeviceId) (result : PairingTaskResult)
    (reply : Option ReplyId) : Handler Unit := do
  let record ← owned fun σ => σ.pendingPairings[attemptId]?
  update (removePending · attemptId)
  match result, record with
  | .authorized connection, some record =>
    match ← registerSession blake3 connection record.origin with
    | .ok sessionId =>
      let resolved := Response.pairingResolved attemptId true (some sessionId)
      update (resolvePairing · attemptId deviceId true reply (.accepted, .ok resolved))
    | .error error => update (resolvePairing · attemptId deviceId true reply (.failed, .error error))
  | .authorized connection, none =>
    update (close · connection.connection)
    update (resolvePairing · attemptId deviceId false reply (pairingEnd attemptId result))
  | result, record =>
    update (resolvePairing · attemptId deviceId record.isSome reply (pairingEnd attemptId result))

/-! ### Dials -/

/-- Whether the trust in a peer fits the purpose of a dial. -/
def dialEligible : Option TrustState → Bool → OperationResult Unit
  | none, true => .ok ()
  | some .trusted, false => .ok ()
  | some .trusted, true => .error (operationError .peerAlreadyTrusted "peer is already trusted")
  | _, _ =>
    .error (operationError .peerNotTrusted "peer is not eligible for requested purpose")

/-- The answer to a dial that cannot join the one under way. -/
def boundedWork : ErrorResponse :=
  operationError .capacityExceeded "peer already has bounded outbound work"

/-- Joins the dial that is under way, or starts one. -/
def placeDial (deviceId : DeviceId) (pairing : Bool) :
    Handler (OperationResult (Option SessionId)) := do
  match ← owned fun σ => σ.outbound[deviceId]? with
  | some record =>
    if record.cancelled ∨ pairing ∨ record.pairing ∨ maxDialWaiters ≤ record.replies.length then
      return .error boundedWork
    else
    update (modifyPeer · deviceId Peer.dialling)
    return .ok none
  | none =>
  if ← owned fun σ => decide (σ.config.maxOutboundConnects ≤ σ.outbound.size ∨
      hardMaxOwnedTasks ≤ σ.tasks.size) then
    return .error (operationError .capacityExceeded "outbound setup capacity reached")
  else
  if ← look blake3 fun σ => pairing && (σ.shared.permits = 0 ||
      σ.pendingPairings.values.any fun record => record.info.deviceId = deviceId) then
    return .error (operationError .capacityExceeded "pending pairing capacity reached")
  else
  match ← look blake3 (hasRouteSource · deviceId) with
  | .error error => return .error (connectionError error)
  | .ok false => return .error (operationError .peerUnresolved "no reachability source for peer")
  | .ok true =>
  if (← owned Daemon.nextDialId) = u64Max then
    return .error (operationError .internal "outbound generation exhausted")
  else
  update (startDial · deviceId pairing)
  return .ok none

/-- What a dial for a session needs first: the peer is managed, and a caller resumes it. -/
def prepareDial (deviceId : DeviceId) (manual : Bool) :
    Handler (OperationResult (Option SessionId)) := do
  match ← owned (insertPeer · deviceId) with
  | none =>
    return .error (operationError .capacityExceeded "connectivity peer capacity reached")
  | some managed =>
  update fun _ => managed
  if ← look blake3 fun σ => (σ.canonicalSession deviceId).isNone &&
      σ.outbound[deviceId]?.any fun record =>
        record.cancelled || record.pairing || maxDialWaiters ≤ record.replies.length then
    return .error boundedWork
  else
  update fun σ => if manual then σ.resumePeer deviceId else σ
  match ← look blake3 (canonicalSession · deviceId) with
  | some sessionId => return .ok (some sessionId)
  | none => placeDial blake3 deviceId false

/-- Checks a dial and starts it; gives the session if there is one already. -/
def startOutbound (deviceId : DeviceId) (pairing manual : Bool) :
    Handler (OperationResult (Option SessionId)) := do
  if (← owned Daemon.state) ≠ .running then
    return .error (operationError .shuttingDown "daemon is shutting down")
  else
  if deviceId = (← owned Daemon.deviceId) then
    return .error (operationError .invalidRequest "cannot dial the local device")
  else
  match dialEligible (← look blake3 fun σ => σ.shared.store.state deviceId) pairing with
  | .error error => return .error error
  | .ok () =>
  if ← look blake3 fun σ => σ.outbound[deviceId]?.any OutboundRecord.cancelled &&
      (σ.canonicalSession deviceId).isNone then
    return .error (operationError .capacityExceeded
      "cancelled outbound task is still being joined")
  else
  if pairing then placeDial blake3 deviceId true else prepareDial blake3 deviceId manual

/-- Dials a peer for a caller, who is answered now or waits. -/
def spawnOutbound (deviceId : DeviceId) (pairing : Bool) (reply : Option OutboundReply) :
    Handler Unit := do
  match ← startOutbound blake3 deviceId pairing reply.isSome with
  | .ok (some sessionId) => update (answer · reply.toList (.ok (.session deviceId sessionId)))
  | .ok none => update (addWaiter · deviceId reply.toList)
  | .error error =>
    let failed ← look blake3 fun σ => !pairing && (σ.canonicalSession deviceId).isNone &&
      !σ.outbound.contains deviceId
    update fun σ =>
      if failed then σ.connectivityFailed deviceId (failureCategory error.code) else σ
    update (answer · reply.toList (.error error))

/-! ### Requests -/

/-- What a listing says of a decision. -/
def peerInfo : TrustEntry → PeerInfo
  | .trusted peer => ⟨peer.deviceId, .trusted, some peer.deviceName, some peer.platform⟩
  | .revoked deviceId => ⟨deviceId, .revoked, none, none⟩

/-- The answer to a request for the status. -/
def status (σ : Daemon) : Status :=
  { daemonVersion := "0.1.0"
    deviceId := σ.deviceId
    deviceName := σ.config.deviceName
    platform := σ.config.platform
    state := σ.state
    activeSessions := min σ.sessions.size u32Max
    pendingPairings := min σ.pendingPairings.size u32Max
    pairingEnabled := true }

/-- A pending pairing with the time that is left now. -/
def PendingRecord.currentInfo (record : PendingRecord) (now : ℕ) : PendingPairingInfo :=
  { record.info with timeoutRemainingMs := remainingMillis record.deadline now }

/-- A page of the decisions. -/
def listPeers (σ : Daemon) (after : Option DeviceId) (limit : ℕ) : OperationResult Response :=
  if limit = 0 then
    .error (operationError .invalidRequest "peer page limit must be greater than zero")
  else
    match σ.shared.store.listPage after (min limit maxPeerPageSize) with
    | .error error => .error (persistenceError error)
    | .ok (entries, next) => .ok (.peers ⟨entries.map peerInfo, next⟩)

/-- A page of the managed peers. -/
def listPeerConnectivity (σ : Daemon) (after : Option DeviceId) (limit : ℕ) :
    OperationResult Response :=
  if limit = 0 then
    .error (operationError .invalidRequest "peer page limit must be greater than zero")
  else
    let limit := min limit maxPeerPageSize
    let entries := ((Paging.after σ.connectivity.peers.toList after).take (limit + 1)).map
      fun entry => entry.2.info entry.1 σ.shared.clock
    if limit < entries.length then
      let kept := entries.dropLast
      .ok (.peerConnectivity ⟨kept, kept.getLast?.map PeerConnectivityInfo.deviceId⟩)
    else .ok (.peerConnectivity ⟨entries, none⟩)

/-- Commits a mutation of the trust store. -/
def mutate (mutation : StoreInner → Except TrustStoreError Unit × StoreInner) :
    Handler (Except TrustStoreError Unit) := do
  let result ← look blake3 fun σ => mutation σ.shared.store
  update (setStore · result.2)
  return result.1

/-- What follows a revocation or a forget. The tasks may run between the commit and the rest. -/
def invalidate (deviceId : DeviceId) (reason : SessionCloseReason) (state : Option TrustState) :
    Handler Unit := do
  look blake3 fun _ => ()
  update (invalidatePeer · deviceId reason)
  update (emit · (.trustChanged deviceId state))

/-- A request that is answered at once; `io` is what the disk does if it commits. -/
def executeRequest (request : Request) (io : IoOutcome) : Handler (OperationResult Response) :=
  match request with
  | .getStatus => return .ok (.status (← owned status))
  | .listPeers after limit => look blake3 (listPeers · after limit)
  | .listPeerConnectivity after limit => owned (listPeerConnectivity · after limit)
  | .listSessions => return .ok (.sessions ((← owned Daemon.sessions).values.map SessionRecord.info))
  | .listPendingPairings => do
    let pairings ← owned fun σ => σ.pendingPairings.values.map (·.currentInfo σ.shared.clock)
    return .ok (.pendingPairings pairings)
  | .revokePeer deviceId => do
    match ← mutate blake3 fun store => revoke blake3 store deviceId io with
    | .error error => return .error (persistenceError error)
    | .ok () =>
      invalidate blake3 deviceId .revoked (some .revoked)
      return .ok (.peerRevoked deviceId)
  | .forgetPeer deviceId => do
    match ← mutate blake3 fun store => forget blake3 store deviceId io with
    | .error error => return .error (persistenceError error)
    | .ok () =>
      invalidate blake3 deviceId .forgotten none
      return .ok (.peerForgotten deviceId)
  | .disconnectSession sessionId => do
    match ← owned fun σ => σ.sessions[sessionId]? with
    | none =>
      return .error (operationError .sessionNotFound "active session was not found")
    | some record =>
      update (disconnect · sessionId record)
      return .ok (.sessionDisconnected sessionId)
  | .confirmPairing _ _ | .beginPairing _ | .connectPeer _ =>
    return .error (operationError .internal "pairing confirmation dispatch invariant failed")

/-- What the runtime's handle asks of the supervisor. -/
inductive Command
  | request (request : Request) (reply : ReplyId) (io : IoOutcome)
  | beginPairing (peer : EndpointAddr) (reply : ReplyId)
  | connectAuthenticated (peer : EndpointAddr) (reply : ReplyId)
  | sessionHandle (sessionId : SessionId) (reply : ReplyId)
  | rememberPeer (peer : EndpointAddr) (reply : ReplyId)

/-- A hint for a peer that could not be resolved makes it worth dialling again. -/
def resumeUnresolved (σ : Daemon) : Except TransportFailure DeviceId → Daemon
  | .error _ => σ
  | .ok id =>
    if σ.awaitsRoute id then σ.changePeer id fun peer => peer.resume σ.shared.clock else σ

/-- Dials the peer at a transient address. -/
def dialAddr (peer : EndpointAddr) (pairing : Bool) (reply : OutboundReply) : Handler Unit := do
  let (result, hints) ← owned (rememberPeerAddr · peer)
  update fun σ => { σ with hints }
  match result with
  | .ok deviceId => spawnOutbound blake3 deviceId pairing (some reply)
  | .error error => update (answer · [reply] (.error (connectionError error)))

/-- Carries out a command. -/
def handleCommand : Command → Handler Unit
  | .request (.confirmPairing attemptId accepted) reply _ =>
    confirmPairing blake3 attemptId accepted reply
  | .request (.beginPairing deviceId) reply _ =>
    spawnOutbound blake3 deviceId true (some (.ipc reply))
  | .request (.connectPeer deviceId) reply _ =>
    spawnOutbound blake3 deviceId false (some (.ipc reply))
  | .request request reply io => do
    let response ← executeRequest blake3 request io
    update (send · reply (.response response))
  | .beginPairing peer reply => dialAddr blake3 peer true (.pairing reply)
  | .connectAuthenticated peer reply => dialAddr blake3 peer false (.session reply)
  | .sessionHandle sessionId reply => do
    let result := match ← owned fun σ => σ.sessions[sessionId]? with
      | some record => .ok record.closer
      | none => .error (operationError .sessionNotFound "active session was not found")
    update (send · reply (.handle result))
  | .rememberPeer peer reply => do
    let (result, hints) ← owned (rememberPeerAddr · peer)
    update fun σ => { σ with hints }
    update (resumeUnresolved · result)
    update (send · reply (.remembered (result.mapError connectionError)))

/-! ### Task outputs -/

/-- What is lost with a candidate that nobody takes. -/
def dropCandidate (σ : Daemon) : OperationResult ConnectionCandidate → Daemon
  | .error _ => σ
  | .ok (.authorized connection) => σ.close connection.connection
  | .ok (.pending pending) => σ.dropPending pending

/-- Registers what an incoming connection has become. -/
def registerCandidate (candidate : ConnectionCandidate) : Handler Unit :=
  match candidate with
  | .authorized connection => do
    let _ ← registerSession blake3 connection .inbound
  | .pending pending => do
    let _ ← registerPending blake3 pending .inbound

/-- Registers what a dial gave, if that is what it was for. -/
def registerDialled (deviceId : DeviceId) (pairing : Bool)
    (result : OperationResult ConnectionCandidate) : Handler (OperationResult DialResult) := do
  match result, pairing with
  | .ok (.pending pending), true =>
    return (← registerPending blake3 pending .outbound).map DialResult.pairing
  | .ok (.authorized connection), false =>
    return (← registerSession blake3 connection .outbound).map (DialResult.session deviceId)
  | .ok candidate, _ =>
    update (dropCandidate · (.ok candidate))
    return .error (operationError .internal "outbound purpose invariant failed")
  | .error error, _ => return .error error

/-- Notes the failure of a dial for a session. -/
def dialFailed (σ : Daemon) (deviceId : DeviceId) : OperationResult DialResult → Daemon
  | .error error => σ.connectivityFailed deviceId (failureCategory error.code)
  | .ok _ => σ

/-- Handles the result of a dial that was not cancelled. -/
def finishDial (deviceId : DeviceId) (record : OutboundRecord)
    (result : OperationResult ConnectionCandidate) : Handler Unit := do
  let result ← registerDialled blake3 deviceId record.pairing result
  let lost ← look blake3 fun σ => !record.pairing && (σ.canonicalSession deviceId).isNone
  update fun σ => if lost then σ.dialFailed deviceId result else σ
  -- An inbound session that came first satisfies the callers of a dial that lost against it.
  let canonical ← look blake3 fun σ =>
    if record.pairing then none else σ.canonicalSession deviceId
  let result := match canonical with
    | some id => .ok (.session deviceId id)
    | none => result
  update (answer · record.replies result)

/-- Handles the output of a joined task; an incoming worker is respawned. -/
def handleTaskOutput : TaskOutput → Handler Unit
  | .incoming result => do
    match result with
    | .ok candidate => registerCandidate blake3 candidate
    | .error _ => pure ()
    update (spawn · (.incoming .connecting))
  | .outbound deviceId token result => do
    match ← owned fun σ => σ.outbound[deviceId]? with
    | none => update (dropCandidate · result)
    | some record =>
      if record.token ≠ token then update (dropCandidate · result)
      else
      update fun σ => { σ with outbound := σ.outbound.erase deviceId }
      if record.cancelled then update (dropCandidate · result)
      else finishDial blake3 deviceId record result
  | .pairingEnded attemptId deviceId result reply =>
    finishPairing blake3 attemptId deviceId result reply
  | .sessionEnded sessionId deviceId reason failure => do
    if ← owned fun σ => σ.sessions.contains sessionId then
      update (sessionLost · sessionId deviceId reason failure)
    else pure ()
  | .ipcClient => update fun σ => { σ with ipcClients := σ.ipcClients - 1 }

/-! ### The loop -/

/-- The retry timer has fired. -/
def timerFired : Handler Unit := do
  match ← look blake3 fun σ => σ.connectivity.takeDue σ.shared.clock with
  | none => pure ()
  | some (deviceId, connectivity) =>
    update fun σ => { σ with connectivity }
    spawnOutbound blake3 deviceId false none

/-- The retry timer is armed and its deadline has passed. -/
def timerDue (σ : Daemon) : Bool :=
  σ.outbound.size < σ.config.maxOutboundConnects &&
    σ.connectivity.deadline.any fun deadline => deadline ≤ σ.shared.clock

/-- An event of the loop, with what the tasks do while it is handled, or a step of a task. -/
inductive Step
  | task (step : TaskStep)
  | timer (script : List (List TaskStep))
  | acceptClient
  | command (command : Command) (script : List (List TaskStep))
  | join (id : ℕ) (script : List (List TaskStep))

/-- What an event of the loop, or a step of a task, does to the daemon. -/
def step (σ : Daemon) : Step → Daemon
  | .task s => taskStep blake3 σ s
  | .timer script => if timerDue σ then (exec (timerFired blake3) σ script).2 else σ
  | .acceptClient =>
    if σ.ipcClients < σ.config.maxIpcClients ∧ σ.tasks.size < hardMaxOwnedTasks then
      { σ with ipcClients := σ.ipcClients + 1 }.spawn (.ipcClient false)
    else σ
  | .command command script => (exec (handleCommand blake3 command) σ script).2
  | .join id script =>
    match σ.tasks[id]?.bind Task.output with
    | some output =>
      (exec (handleTaskOutput blake3 output) { σ with tasks := σ.tasks.erase id } script).2
    | none => σ

/-- The daemon after some steps. -/
def run (σ : Daemon) (steps : List Step) : Daemon := steps.foldl (step blake3) σ

/-! ### Starting -/

/-- Manages a peer that the trust store holds as trusted. -/
def loadEntry (deviceId : DeviceId) (now : ℕ) (scheduler : Scheduler) (entry : TrustEntry) :
    Except DaemonError Scheduler :=
  match entry with
  | .revoked _ => .ok scheduler
  | .trusted peer =>
    if peer.deviceId = deviceId then .ok scheduler
    else
      match scheduler.insert peer.deviceId now with
      | some scheduler => .ok scheduler
      | none => .error (.invalidConfiguration "trusted peer connectivity capacity exceeded")

/-- Starts a daemon over the journal at its path, if there is one; `fails` are the steps of opening
it that fail. The outside is given by the time, the randomness and the external lookup. -/
def start (fails : OpenStep → Bool) (config : DaemonConfig) (deviceId : DeviceId)
    (existing : Option Bytes) (now : ℕ) (entropy : Option UInt32)
    (lookup : DeviceId → Except TransportFailure Bool) : Except DaemonError Daemon := do
  config.validate
  if maxDeviceNameLen < config.deviceName.utf8ByteSize ∨
      maxPlatformLen < config.platform.utf8ByteSize then
    .error (.invalidConfiguration "device_name or platform exceeds Hello bounds")
  else
  let store ← (openStore blake3 fails existing).mapError .trust
  let connectivity ← (store.listPages maxPeerPageSize).foldlM (loadEntry deviceId now)
    (Scheduler.new now)
  return {
    config
    deviceId
    shared :=
      { store, closed := ∅, permits := config.maxPendingPairings, clock := now, entropy, lookup
        nextConnection := 0 }
    hints := ∅
    tasks := ∅
    nextTask := 0
    pendingPairings := ∅
    sessions := ∅
    nextPairingId := 1
    nextSessionId := 1
    ipcClients := 0
    state := .running
    connectivity
    outbound := ∅
    nextDialId := 1
    events := []
    replies := []
    sent := [] }

/-- The loop begins with its incoming workers. -/
def serve (σ : Daemon) : Daemon :=
  (List.replicate σ.config.maxInflightConnections (Task.incoming .connecting)).foldl spawn σ

end Rift.Daemon
