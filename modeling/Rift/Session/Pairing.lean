import Rift.Session.Machine
import Rift.Trust.Store

/-! # The pairing drivers

The two roles of a pairing attempt and the local confirmation that both end in, against any peer:
what each read and each write of the control stream gives is an input, and so is the answer of the
disk to the trust commit. An attempt keeps a log of what it does on its connection. -/

namespace Rift.Session

open Rift.Lib Rift.Core Rift.Protocol Rift.Transport Rift.Trust

/-! ### The connection of one attempt -/

/-- What reading the next control message gives. -/
inductive Inbound
  | message (message : ControlMessage)
  | frame (error : FrameError)
  | timeout
  deriving DecidableEq

/-- What writing a control message gives. -/
inductive Outbound
  | written
  | frame (error : FrameError)
  | timeout
  deriving DecidableEq

/-- What an attempt does on its connection, or is asked to do. -/
inductive Action
  | sent (message : PairingMessage)
  | received (message : ControlMessage)
  | confirmed (accepted : Bool) (now : ℕ)
  | trustIfGeneration (generation : ℕ) (result : Except TrustStoreError Unit)
  | closed
  deriving DecidableEq

/-- One attempt in its environment. A peer that has nothing more `inbound` stays silent, and writes
succeed once `outbound` is used up. `store` is the trust store at the only moment the attempt uses
it, and `commitIo` the disk then; `readyAt` is the time at which the code is ready. -/
structure Attempt where
  inbound : List Inbound
  outbound : List Outbound
  store : StoreInner
  commitIo : IoOutcome
  readyAt : ℕ
  control : Bool
  closed : Bool
  log : List Action

namespace Attempt

/-- A fresh connection. -/
def start (inbound : List Inbound) (outbound : List Outbound) (store : StoreInner)
    (commitIo : IoOutcome) (readyAt : ℕ) : Attempt :=
  { inbound, outbound, store, commitIo, readyAt, control := true, closed := false, log := [] }

/-- One more action. -/
def push (a : Attempt) (action : Action) : Attempt := { a with log := a.log ++ [action] }

/-- The connection is closed. -/
def close (a : Attempt) : Attempt := { a with closed := true, log := a.log ++ [.closed] }

/-- The connection is closed and its control stream is lost. -/
def poison (a : Attempt) : Attempt := { a.close with control := false }

end Attempt

/-- Pairing code: it can fail, and what it did stays done. -/
abbrev Pairing := ExceptT PairingError (StateM Attempt)

/-- Sends a message; a failure poisons the stream. -/
def sendPairing (message : PairingMessage) : Pairing (Except TransportError Unit) := do
  let a ← get
  if a.control = false then return .error .controlConnectionPoisoned
  set { a.push (.sent message) with outbound := a.outbound.tail }
  match a.outbound.headD .written with
  | .written => return .ok ()
  | .frame error =>
    modify Attempt.poison
    return .error (.pairingFrame error)
  | .timeout =>
    modify Attempt.poison
    return .error .controlTimeout

/-- Receives a message; a failure poisons the stream. -/
def receivePairing : Pairing (Except TransportError PairingMessage) := do
  let a ← get
  if a.control = false then return .error .controlConnectionPoisoned
  set { a with inbound := a.inbound.tail }
  match a.inbound.headD .timeout with
  | .message message =>
    modify fun a => a.push (.received message)
    match message.intoPairing with
    | .ok pairing => return .ok pairing
    | .error received =>
      modify Attempt.poison
      return .error (.unexpectedPairingMessage received)
  | .frame error =>
    modify Attempt.poison
    return .error (.pairingFrame error)
  | .timeout =>
    modify Attempt.poison
    return .error .controlTimeout

/-- Sends a message or closes the connection. -/
def sendOrClose (message : PairingMessage) (phase : PairingPhase) : Pairing Unit := do
  match ← sendPairing message with
  | .ok () => return ()
  | .error .controlTimeout =>
    modify Attempt.close
    throw (.timeout phase)
  | .error source =>
    modify Attempt.close
    throw (.transport phase source)

/-- Receives a message or closes the connection. -/
def receiveOrClose (phase : PairingPhase) : Pairing PairingMessage := do
  match ← receivePairing with
  | .ok message => return message
  | .error .controlTimeout =>
    modify Attempt.close
    throw (.timeout phase)
  | .error source =>
    modify Attempt.close
    throw (.transport phase source)

/-- A transition of the state machine; a failed one closes the connection. -/
def orClose {α : Type} (transition : Except PairingError α) : Pairing α := do
  match transition with
  | .ok value => return value
  | .error error =>
    modify Attempt.close
    throw error

/-! ### The drivers -/

/-- An authenticated unknown peer isolated to pairing behavior. -/
structure PairableConnection where
  trustGeneration : ℕ
  localDeviceId : DeviceId
  peerHello : Hello
  pairingTimeout : ℕ
  deriving DecidableEq

/-- A connection admitted by a durable local trust decision. -/
structure AuthorizedConnection where
  trustGeneration : ℕ
  peer : TrustedPeer
  deriving DecidableEq

/-- A pairing transcript ready for local confirmation. -/
structure PendingPairing where
  peer : TrustedPeer
  pairingId : PairingId
  code : ℕ
  machine : PairingStateMachine
  localConfirmationDeadline : ℕ
  trustGeneration : ℕ

/-- What the initiator draws at random. -/
structure InitiatorPairingMaterial where
  pairingId : PairingId
  nonce : PairingNonce
  deriving DecidableEq

/-- What the responder draws at random. -/
structure ResponderPairingMaterial where
  nonce : PairingNonce
  deriving DecidableEq

/-- The peer as it introduced itself. -/
def trustedPeerFromHello (hello : Hello) : TrustedPeer :=
  { deviceId := hello.deviceId, deviceName := hello.deviceName, platform := hello.platform }

namespace PairableConnection

variable (conn : PairableConnection)

/-- The peer says that it can pair. -/
def supportsPairing : Bool := conn.peerHello.capabilities.contains .pairingV1

/-- Closes the connection to a peer that cannot pair. -/
def requirePairingCapability : Pairing Unit := do
  if conn.supportsPairing then return ()
  else
    modify Attempt.close
    throw (.pairingUnsupported conn.peerHello.deviceId)

variable (blake3 : Blake3)

/-- The initiator up to the code. -/
def initiatePairing (material : InitiatorPairingMaterial) : Pairing PendingPairing := do
  conn.requirePairingCapability
  let peer := trustedPeerFromHello conn.peerHello
  let machine := PairingStateMachine.initiator material.pairingId
  let initiatorCommitment := PairingCommitment.derive blake3 .initiator conn.localDeviceId
    peer.deviceId material.pairingId material.nonce
  sendOrClose (.request material.pairingId initiatorCommitment) machine.phase
  let response ← receiveOrClose machine.phase
  let (responderCommitment, machine) ← orClose (machine.receiveResponse response)
  sendOrClose (.reveal material.pairingId material.nonce) machine.phase
  let reveal ← receiveOrClose machine.phase
  let (responderNonce, machine) ← orClose (machine.receiveReveal reveal)
  if responderCommitment.verifies blake3 .responder conn.localDeviceId peer.deviceId
      material.pairingId responderNonce then
    return {
      peer
      pairingId := material.pairingId
      code := PairingTranscript.code blake3 ⟨conn.localDeviceId, peer.deviceId, material.pairingId,
        material.nonce, responderNonce⟩
      machine
      localConfirmationDeadline := (← get).readyAt + conn.pairingTimeout
      trustGeneration := conn.trustGeneration }
  else
    modify Attempt.close
    throw (.commitmentMismatch .awaitingReveal)

/-- The responder up to the code. -/
def respondToPairing (material : ResponderPairingMaterial) : Pairing PendingPairing := do
  conn.requirePairingCapability
  let peer := trustedPeerFromHello conn.peerHello
  let machine := PairingStateMachine.responder
  let request ← receiveOrClose machine.phase
  let ((pairingId, initiatorCommitment), machine) ← orClose (machine.receiveRequest request)
  let responderCommitment := PairingCommitment.derive blake3 .responder peer.deviceId
    conn.localDeviceId pairingId material.nonce
  sendOrClose (.response pairingId responderCommitment) machine.phase
  sendOrClose (.reveal pairingId material.nonce) machine.phase
  let reveal ← receiveOrClose machine.phase
  let (initiatorNonce, machine) ← orClose (machine.receiveReveal reveal)
  if initiatorCommitment.verifies blake3 .initiator peer.deviceId conn.localDeviceId pairingId
      initiatorNonce then
    return {
      peer
      pairingId
      code := PairingTranscript.code blake3 ⟨peer.deviceId, conn.localDeviceId, pairingId,
        initiatorNonce, material.nonce⟩
      machine
      localConfirmationDeadline := (← get).readyAt + conn.pairingTimeout
      trustGeneration := conn.trustGeneration }
  else
    modify Attempt.close
    throw (.commitmentMismatch .awaitingReveal)

end PairableConnection

namespace PendingPairing

variable (blake3 : Blake3)

/-- The durable commit of the trust in the peer. -/
def commitTrust (pending : PendingPairing) : Pairing (Except TrustStoreError Unit) := do
  let a ← get
  let (result, store) :=
    trustIfGeneration blake3 a.store pending.peer pending.trustGeneration a.commitIo
  set { a.push (.trustIfGeneration pending.trustGeneration result) with store }
  return result

/-- What follows when both sides have accepted. -/
def commitAndComplete (pending : PendingPairing) (machine : PairingStateMachine) :
    Pairing AuthorizedConnection := do
  match ← pending.commitTrust blake3 with
  | .error error =>
    modify Attempt.close
    throw (.trust error)
  | .ok () =>
    let machine ← orClose machine.trustCommitted
    sendOrClose (.complete pending.pairingId) machine.phase
    let complete ← receiveOrClose machine.phase
    let _ ← orClose (machine.remoteCompletion complete)
    return { trustGeneration := pending.trustGeneration, peer := pending.peer }

/-- The local human decision, given at the time `now`. -/
def confirm (pending : PendingPairing) (accepted : Bool) (now : ℕ) :
    Pairing AuthorizedConnection := do
  modify fun a => a.push (.confirmed accepted now)
  if pending.localConfirmationDeadline ≤ now then
    modify Attempt.close
    throw (.timeout .awaitingLocalDecision)
  else
    let machine ← orClose (pending.machine.localDecision accepted)
    sendOrClose (.decision pending.pairingId accepted) machine.phase
    let decision ← receiveOrClose machine.phase
    let (remoteAccepted, machine) ← orClose (machine.remoteDecision decision)
    if accepted = false ∨ remoteAccepted = false then
      modify Attempt.close
      throw (.rejected accepted remoteAccepted)
    else
      pending.commitAndComplete blake3 machine

end PendingPairing

/-- What the local side brings to an attempt; its role goes with it. -/
inductive Material
  | initiator (material : InitiatorPairingMaterial)
  | responder (material : ResponderPairingMaterial)
  deriving DecidableEq

/-- The driver of the local role. -/
def PairableConnection.startPairing (blake3 : Blake3)
    (conn : PairableConnection) : Material → Pairing PendingPairing
  | .initiator material => conn.initiatePairing blake3 material
  | .responder material => conn.respondToPairing blake3 material

/-- The local decision and its time. Without one the pending pairing is dropped, which closes its
connection. -/
def PendingPairing.settle (blake3 : Blake3) (pending : PendingPairing) :
    Option (Bool × ℕ) → Pairing (Option AuthorizedConnection)
  | none => do
    modify Attempt.close
    return none
  | some (accepted, now) => return some (← pending.confirm blake3 accepted now)

/-- A whole attempt. -/
def pair (blake3 : Blake3) (conn : PairableConnection)
    (material : Material) (decision : Option (Bool × ℕ)) :
    Pairing (Option AuthorizedConnection) := do
  let pending ← conn.startPairing blake3 material
  pending.settle blake3 decision

end Rift.Session
