import Rift.Daemon.State

/-! # The tasks

What the tasks of the daemon do between two looks of the supervisor: they set up connections, reading
the trust store at separate moments, carry out pairings, serve sessions and clients. What the network
and the disk give them is an input, as are the passing of time, the loss of a connection, and the
operating system's randomness. A step that is not possible changes nothing.

The trust commit of a pairing is one step, because `commit` holds the lock of the store throughout.
Its future is dropped only by a command or a closed channel, both of which follow a revocation or a
forget of the same peer that took the lock before; from then on the commit is refused before it
writes. Shutdown, which may drop it anywhere, is not a step here. -/

namespace Rift.Daemon

open Rift.Lib Rift.Core Rift.Ipc Rift.Protocol Rift.Session Std
open Rift.Trust hiding Event

/-- What happens to a task. -/
inductive TaskEvent
  | bootstrap (result : Except TransportFailure Hello)
  | proceed
  | intent (result : Except TransportFailure ConnectionPurpose)
  | exchange (result : Except TransportFailure Unit)
  | paired (result : Except PairingError PendingPairing)
  | cancelled
  | command
  | expired
  | lost
  | commit (io : IoOutcome)
  | fails (error : PairingError)
  | completes
  | ended (result : Except TransportFailure Unit)
  | disconnected

/-- A step of anything but the supervisor. -/
inductive TaskStep
  | task (id : ℕ) (event : TaskEvent)
  | closes (connection : ConnectionId)
  | elapses (nanos : ℕ)
  | entropy (value : Option UInt32)
  | lookup (lookup : DeviceId → Except TransportFailure Bool)

namespace Shared

def close (sh : Shared) (connection : ConnectionId) : Shared :=
  { sh with closed := insert connection sh.closed }

/-- A pairing slot is given back. -/
def release (sh : Shared) : Shared := { sh with permits := sh.permits + 1 }

end Shared

/-! ### Setting up a connection -/

/-- What is left when a setup is dropped: its connection is closed and its slot is free. -/
def SetupPhase.dropped (sh : Shared) : SetupPhase → Shared
  | .connecting => sh
  | .capturing b => sh.close b.connection
  | .receivingIntent b _ => sh.close b.connection
  | .checking b _ _ => sh.close b.connection
  | .exchanging b _ _ _ => sh.close b.connection
  | .admitting b _ _ => sh.close b.connection
  | .deciding b _ _ => sh.close b.connection
  | .pairable b _ => sh.close b.connection
  | .pairing b _ => (sh.close b.connection).release
  | .done _ => sh

/-- Setting up has failed: its connection is closed. -/
def SetupPhase.failed (sh : Shared) (phase : SetupPhase) (error : ErrorResponse) :
    SetupPhase × Shared :=
  (.done (.error error), phase.dropped sh)

/-- The purpose that a dial asks for. -/
def dialPurpose (pairing : Bool) : ConnectionPurpose :=
  if pairing then .pairing else .authorizedSession

/-- One step of `accept_incoming`, or of `prepare_outbound` if there is a dial: the identity it is
for, and whether it is to pair. -/
def SetupPhase.step (dial : Option (DeviceId × Bool)) (sh : Shared) (phase : SetupPhase)
    (event : TaskEvent) : Option (SetupPhase × Shared) :=
  match phase, event with
  | .connecting, .bootstrap (.ok hello) =>
    -- The transport authenticates the identity that was dialled.
    if dial.all fun d => d.1 = hello.deviceId then
      some (.capturing ⟨sh.nextConnection, hello⟩,
        { sh with nextConnection := sh.nextConnection + 1 })
    else none
  | .connecting, .bootstrap (.error e) => some (phase.failed sh (connectionError e))
  | .capturing b, .proceed =>
    let generation := sh.store.currentGeneration b.remoteDeviceId
    match dial with
    | none => some (.receivingIntent b generation, sh)
    | some (_, pairs) => some (.checking b generation (dialPurpose pairs), sh)
  | .receivingIntent b generation, .intent (.ok purpose) =>
    some (.checking b generation purpose, sh)
  | .receivingIntent _ _, .intent (.error e) => some (phase.failed sh (sessionError (.intent e)))
  | .checking b generation purpose, .proceed =>
    let entry := sh.store.entry b.remoteDeviceId
    -- An acceptor tells the dialer of a refusal before it gives up, a dialer does not even ask.
    if dial.isSome ∧ purposeAllowed entry purpose = false then
      some (phase.failed sh (sessionError (localPurposeError b.remoteDeviceId entry purpose)))
    else some (.exchanging b generation purpose entry, sh)
  | .exchanging b generation purpose entry, .exchange (.ok ()) =>
    if purposeAllowed entry purpose then some (.admitting b generation purpose, sh)
    else some (phase.failed sh (sessionError (localPurposeError b.remoteDeviceId entry purpose)))
  | .exchanging _ _ _ _, .exchange (.error e) => some (phase.failed sh (sessionError (.intent e)))
  | .admitting b generation purpose, .proceed =>
    if sh.store.currentGeneration b.remoteDeviceId = generation then
      some (.deciding b generation purpose, sh)
    else some (phase.failed sh (sessionError (.purposeNotAllowed b.remoteDeviceId purpose)))
  | .deciding b generation purpose, .proceed =>
    match admitEntry b.remoteDeviceId generation purpose (sh.store.entry b.remoteDeviceId) with
    | .error e => some (phase.failed sh (sessionError e))
    | .ok (.authorized c) => some (.done (.ok (.authorized ⟨b.connection, c⟩)), sh)
    | .ok .pairable =>
      if dial.all fun d => d.2 then some (.pairable b generation, sh)
      else
        some (phase.failed sh (operationError .peerNotTrusted
          "peer requires pairing before authenticated connection"))
  | .pairable b generation, .proceed =>
    if sh.permits = 0 then
      some (phase.failed sh (operationError .capacityExceeded "pending pairing capacity reached"))
    else some (.pairing b generation, { sh with permits := sh.permits - 1 })
  | .pairing b generation, .paired (.ok p) =>
    let pairing :=
      { p with peer := trustedPeerFromHello b.peerHello, trustGeneration := generation }
    some (.done (.ok (.pending ⟨b.connection, pairing⟩)), sh)
  | .pairing _ _, .paired (.error e) => some (phase.failed sh (pairingError e))
  | _, _ => none

/-! ### Carrying out a pairing -/

/-- How a pairing task ends on an error. -/
def pairingTaskResult : PairingError → PairingTaskResult
  | .rejected _ _ => .rejected
  | .timeout _ => .expired
  | error => .failed (pairingError error)

/-- A pairing task ends without a session: its connection is closed and its slot is free. -/
def Pending.ended (pending : Pending) (sh : Shared) (result : PairingTaskResult)
    (reply : Option ReplyId) : List PairingCommand × PairingTaskPhase × Shared :=
  ([], .done result reply, (sh.close pending.connection).release)

/-- One step of `run_pending_pairing` and `resolve_pending_pairing`. The channel is open as long as
the supervisor keeps the record of the pairing. -/
def PairingTaskPhase.step (blake3 : Blake3) (channelOpen : Bool)
    (pending : Pending) (commands : List PairingCommand) (sh : Shared) (phase : PairingTaskPhase)
    (event : TaskEvent) : Option (List PairingCommand × PairingTaskPhase × Shared) :=
  match phase, event with
  | .waiting, .command =>
    match commands with
    | .confirm accepted reply :: rest => some (rest, .confirming accepted reply, sh)
    | .cancel :: _ => some (pending.ended sh .cancelled none)
    | [] => if channelOpen then none else some (pending.ended sh .cancelled none)
  | .waiting, .expired =>
    if pending.pairing.localConfirmationDeadline ≤ sh.clock then
      some (pending.ended sh .expired none)
    else none
  | .waiting, .lost =>
    if pending.connection ∈ sh.closed then
      some (pending.ended sh (.failed (operationError .connectionFailed
        "pairing connection closed before confirmation")) none)
    else none
  | .confirming true reply, .commit io =>
    match trustIfGeneration blake3 sh.store pending.pairing.peer pending.trustGeneration io with
    | (.ok (), store) => some (commands, .committed reply, { sh with store })
    | (.error e, store) =>
      some (pending.ended { sh with store } (pairingTaskResult (.trust e)) (some reply))
  | .confirming _ reply, .fails e => some (pending.ended sh (pairingTaskResult e) (some reply))
  | .confirming _ reply, .command =>
    if commands = [] ∧ channelOpen then none else some (pending.ended sh .cancelled (some reply))
  | .committed reply, .fails e => some (pending.ended sh (pairingTaskResult e) (some reply))
  | .committed reply, .command =>
    if commands = [] ∧ channelOpen then none else some (pending.ended sh .cancelled (some reply))
  | .committed reply, .completes =>
    let connection : Authorized :=
      ⟨pending.connection, ⟨pending.trustGeneration, pending.pairing.peer⟩⟩
    some ([], .done (.authorized connection) (some reply), sh.release)
  | _, _ => none

/-! ### All tasks -/

/-- The category under which the loss of a session counts. -/
def sessionFailure : Except TransportFailure Unit → ConnectivityFailure
  | .ok () => .network
  | .error e => failureCategory (connectionError e).code

/-- The cancel signal of a dial is set, or its sender is gone. -/
def cancelSignalled (σ : Daemon) (deviceId : DeviceId) (token : ℕ) : Bool :=
  match σ.outbound[deviceId]? with
  | some record => record.token ≠ token ∨ record.cancelled
  | none => true

/-- One step of a task; `none` if the event means nothing to it. -/
def Task.step (blake3 : Blake3) (σ : Daemon) (task : Task)
    (event : TaskEvent) : Option (Task × Shared) :=
  match task, event with
  | .incoming phase, event =>
    (phase.step none σ.shared event).map fun r => (.incoming r.1, r.2)
  | .outbound _ _ _ (.done _), _ => none
  | .outbound deviceId token pairs phase, .cancelled =>
    if cancelSignalled σ deviceId token then
      let error := operationError .peerNotTrusted "outbound work invalidated"
      some (.outbound deviceId token pairs (.done (.error error)), phase.dropped σ.shared)
    else none
  | .outbound deviceId token pairs phase, event =>
    (phase.step (some (deviceId, pairs)) σ.shared event).map fun r =>
      (.outbound deviceId token pairs r.1, r.2)
  | .pairing attemptId pending commands phase, event =>
    (phase.step blake3 (σ.pendingPairings.contains attemptId) pending commands σ.shared event).map
      fun r => (.pairing attemptId pending r.1 r.2.1, r.2.2)
  | .session sessionId connection none, .ended result =>
    some (.session sessionId connection (some (sessionFailure result)),
      σ.shared.close connection.connection)
  | .ipcClient false, .disconnected => some (.ipcClient true, σ.shared)
  | _, _ => none

/-- What a step of a task, or of what is around the daemon, does. -/
def taskStep (blake3 : Blake3) (σ : Daemon) : TaskStep → Daemon
  | .task id event =>
    match σ.tasks[id]?.bind fun task => task.step blake3 σ event with
    | some (task, shared) => { σ with tasks := σ.tasks.insert id task, shared }
    | none => σ
  | .closes connection => { σ with shared := σ.shared.close connection }
  | .elapses nanos => { σ with shared := { σ.shared with clock := σ.shared.clock + nanos } }
  | .entropy value => { σ with shared := { σ.shared with entropy := value } }
  | .lookup lookup => { σ with shared := { σ.shared with lookup } }

end Rift.Daemon
