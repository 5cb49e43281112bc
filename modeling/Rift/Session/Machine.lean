import Rift.Lib.History
import Rift.Transport.Control
import Rift.Trust.Journal

/-! # The pairing state machine

Which message a pairing attempt takes next, and what it fails with on any other. One lemma per
transition says which message it took if it succeeds, and what it gives then (`receiveRequest_ok` and
so on); the drivers are verified from these alone. -/

namespace Rift.Session

open Rift.Lib Rift.Core Rift.Protocol Rift.Transport

/-! ### Phases and failures -/

/-- Who began the pairing. -/
inductive PairingRole
  | initiator
  | responder
  deriving DecidableEq

/-- The explicit phase of one pairing attempt. -/
inductive PairingPhase
  | awaitingRequest
  | awaitingResponse
  | awaitingReveal
  | awaitingLocalDecision
  | awaitingRemoteDecision
  | committingTrust
  | awaitingCompletion
  | complete
  | rejected
  | failed
  deriving DecidableEq

/-- Typed pairing failures. -/
inductive PairingError
  | pairingUnsupported (deviceId : DeviceId)
  | timeout (phase : PairingPhase)
  | transport (phase : PairingPhase) (source : TransportError)
  | unexpectedMessage (phase : PairingPhase) (expected received : MessageKind)
  | pairingIdMismatch (phase : PairingPhase)
  | commitmentMismatch (phase : PairingPhase)
  | duplicateDecision (phase : PairingPhase)
  | completionTooEarly (phase : PairingPhase)
  | alreadyFinished (phase : PairingPhase)
  | rejected (localAccepted remoteAccepted : Bool)
  | trust (error : Trust.TrustStoreError)
  deriving DecidableEq

/-- The kind of message that a phase waits for. -/
def expectedKind (phase : PairingPhase) (role : PairingRole) : MessageKind :=
  match phase with
  | .awaitingRequest => .pairingRequest
  | .awaitingResponse => .pairingResponse
  | .awaitingReveal => .pairingReveal
  | .awaitingLocalDecision | .awaitingRemoteDecision => .pairingDecision
  | .committingTrust | .awaitingCompletion => .pairingComplete
  | .complete | .rejected | .failed =>
    match role with
    | .initiator => .pairingResponse
    | .responder => .pairingRequest

/-! ### Transitions -/

/-- Where a pairing stands, as one side sees it. -/
structure PairingStateMachine where
  role : PairingRole
  phase : PairingPhase
  pairingId : Option PairingId
  localAccepted : Option Bool
  remoteAccepted : Option Bool
  deriving DecidableEq

namespace PairingStateMachine

/-- The machine of the side that begins. -/
def initiator (pairingId : PairingId) : PairingStateMachine :=
  { role := .initiator, phase := .awaitingResponse, pairingId := some pairingId,
    localAccepted := none, remoteAccepted := none }

/-- The machine of the side that answers. -/
def responder : PairingStateMachine :=
  { role := .responder, phase := .awaitingRequest, pairingId := none,
    localAccepted := none, remoteAccepted := none }

variable (machine : PairingStateMachine)

/-- The pairing is not over and in this phase. -/
def requireActive (expected : PairingPhase) : Except PairingError Unit :=
  if machine.phase = .complete ∨ machine.phase = .rejected ∨ machine.phase = .failed then
    .error (.alreadyFinished machine.phase)
  else if machine.phase = expected then .ok ()
  else
    .error (.unexpectedMessage machine.phase (expectedKind expected machine.role)
      (expectedKind machine.phase machine.role))

/-- The message belongs to this pairing. -/
def requirePairingId (received : PairingId) : Except PairingError Unit :=
  if machine.pairingId = some received then .ok ()
  else .error (.pairingIdMismatch machine.phase)

/-- The error for another message. -/
def unexpected (expected received : MessageKind) : PairingError :=
  .unexpectedMessage machine.phase expected received

/-- The request, which fixes the number of the pairing. -/
def receiveRequest (message : PairingMessage) :
    Except PairingError ((PairingId × PairingCommitment) × PairingStateMachine) := do
  machine.requireActive .awaitingRequest
  match message with
  | .request pairingId commitment =>
    return ((pairingId, commitment),
      { machine with pairingId := some pairingId, phase := .awaitingReveal })
  | message => .error (machine.unexpected .pairingRequest message.kind)

/-- The response to the request. -/
def receiveResponse (message : PairingMessage) :
    Except PairingError (PairingCommitment × PairingStateMachine) := do
  machine.requireActive .awaitingResponse
  match message with
  | .response pairingId commitment =>
    machine.requirePairingId pairingId
    return (commitment, { machine with phase := .awaitingReveal })
  | message => .error (machine.unexpected .pairingResponse message.kind)

/-- The nonce of the other side. -/
def receiveReveal (message : PairingMessage) :
    Except PairingError (PairingNonce × PairingStateMachine) := do
  machine.requireActive .awaitingReveal
  match message with
  | .reveal pairingId nonce =>
    machine.requirePairingId pairingId
    return (nonce, { machine with phase := .awaitingLocalDecision })
  | message => .error (machine.unexpected .pairingReveal message.kind)

/-- The decision of the local user. -/
def localDecision (accepted : Bool) : Except PairingError PairingStateMachine := do
  if machine.localAccepted.isSome then .error (.duplicateDecision machine.phase) else
  machine.requireActive .awaitingLocalDecision
  return { machine with localAccepted := some accepted, phase := .awaitingRemoteDecision }

/-- The decision of the other side. -/
def remoteDecision (message : PairingMessage) :
    Except PairingError (Bool × PairingStateMachine) := do
  if machine.remoteAccepted.isSome ∨ machine.phase = .committingTrust then
    .error (.duplicateDecision machine.phase) else
  machine.requireActive .awaitingRemoteDecision
  match message with
  | .decision pairingId accepted =>
    machine.requirePairingId pairingId
    let phase :=
      if machine.localAccepted = some true ∧ accepted then .committingTrust else .rejected
    return (accepted, { machine with remoteAccepted := some accepted, phase })
  | .complete _ => .error (.completionTooEarly machine.phase)
  | message => .error (machine.unexpected .pairingDecision message.kind)

/-- The trust is durable. -/
def trustCommitted : Except PairingError PairingStateMachine := do
  machine.requireActive .committingTrust
  return { machine with phase := .awaitingCompletion }

/-- The other side has committed too. -/
def remoteCompletion (message : PairingMessage) : Except PairingError PairingStateMachine := do
  machine.requireActive .awaitingCompletion
  match message with
  | .complete pairingId =>
    machine.requirePairingId pairingId
    return { machine with phase := .complete }
  | .decision _ _ => .error (.duplicateDecision machine.phase)
  | message => .error (machine.unexpected .pairingComplete message.kind)

/-! ### When a transition succeeds -/

variable {machine}

theorem requirePairingId_ok {received : PairingId}
    (h : machine.requirePairingId received = .ok ()) : machine.pairingId = some received := by
  unfold requirePairingId at h
  split_ifs at h with h1
  exact h1

theorem receiveRequest_ok {m : PairingMessage} {r : PairingId × PairingCommitment}
    {machine' : PairingStateMachine} (h : machine.receiveRequest m = .ok (r, machine')) :
    m = .request r.1 r.2 ∧
      machine' = { machine with pairingId := some r.1, phase := .awaitingReveal } := by
  obtain ⟨_, -, h⟩ := bind_eq_ok h
  rcases m with ⟨id, c⟩ | ⟨id, c⟩ | ⟨id, b⟩ | id | ⟨id, n⟩ <;>
    simp only [pure, Except.pure, Except.ok.injEq, Prod.mk.injEq, reduceCtorEq] at h
  obtain ⟨rfl, rfl⟩ := h
  exact ⟨rfl, rfl⟩

theorem receiveResponse_ok {m : PairingMessage} {c : PairingCommitment}
    {machine' : PairingStateMachine} (h : machine.receiveResponse m = .ok (c, machine')) :
    (∃ id, machine.pairingId = some id ∧ m = .response id c) ∧
      machine' = { machine with phase := .awaitingReveal } := by
  obtain ⟨_, -, h⟩ := bind_eq_ok h
  rcases m with ⟨id, c⟩ | ⟨id, c⟩ | ⟨id, b⟩ | id | ⟨id, n⟩ <;> try cases h
  obtain ⟨_, hid, h⟩ := bind_eq_ok h
  cases h
  exact ⟨⟨id, requirePairingId_ok hid, rfl⟩, rfl⟩

theorem receiveReveal_ok {m : PairingMessage} {n : PairingNonce}
    {machine' : PairingStateMachine} (h : machine.receiveReveal m = .ok (n, machine')) :
    (∃ id, machine.pairingId = some id ∧ m = .reveal id n) ∧
      machine' = { machine with phase := .awaitingLocalDecision } := by
  obtain ⟨_, -, h⟩ := bind_eq_ok h
  rcases m with ⟨id, c⟩ | ⟨id, c⟩ | ⟨id, b⟩ | id | ⟨id, n⟩ <;> try cases h
  obtain ⟨_, hid, h⟩ := bind_eq_ok h
  cases h
  exact ⟨⟨id, requirePairingId_ok hid, rfl⟩, rfl⟩

theorem localDecision_ok {accepted : Bool} {machine' : PairingStateMachine}
    (h : machine.localDecision accepted = .ok machine') :
    machine' = { machine with localAccepted := some accepted, phase := .awaitingRemoteDecision } := by
  unfold localDecision at h
  split_ifs at h
  obtain ⟨_, -, h⟩ := bind_eq_ok h
  exact (Except.ok.inj h).symm

theorem remoteDecision_ok {m : PairingMessage} {accepted : Bool} {machine' : PairingStateMachine}
    (h : machine.remoteDecision m = .ok (accepted, machine')) :
    (∃ id, machine.pairingId = some id ∧ m = .decision id accepted) ∧
      machine'.pairingId = machine.pairingId := by
  unfold remoteDecision at h
  split_ifs at h
  obtain ⟨_, -, h⟩ := bind_eq_ok h
  rcases m with ⟨id, c⟩ | ⟨id, c⟩ | ⟨id, b⟩ | id | ⟨id, n⟩ <;> try cases h
  obtain ⟨_, hid, h⟩ := bind_eq_ok h
  cases h
  exact ⟨⟨id, requirePairingId_ok hid, rfl⟩, rfl⟩

theorem trustCommitted_ok {machine' : PairingStateMachine}
    (h : machine.trustCommitted = .ok machine') :
    machine' = { machine with phase := .awaitingCompletion } := by
  obtain ⟨_, -, h⟩ := bind_eq_ok h
  exact (Except.ok.inj h).symm

theorem remoteCompletion_ok {m : PairingMessage} {machine' : PairingStateMachine}
    (h : machine.remoteCompletion m = .ok machine') :
    ∃ id, machine.pairingId = some id ∧ m = .complete id := by
  obtain ⟨_, -, h⟩ := bind_eq_ok h
  rcases m with ⟨id, c⟩ | ⟨id, c⟩ | ⟨id, b⟩ | id | ⟨id, n⟩ <;> try cases h
  obtain ⟨_, hid, h⟩ := bind_eq_ok h
  exact ⟨id, requirePairingId_ok hid, rfl⟩

end PairingStateMachine

end Rift.Session
