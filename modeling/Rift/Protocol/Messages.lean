import Rift.Protocol.Transfer

/-! # Control messages

The v1 control messages, the view of them that a pairing-only connection takes, and the two digests
that bind a pairing attempt: the commitment to a nonce and the code that two humans compare. BLAKE3
is a parameter. -/

namespace Rift.Protocol

open Rift.Lib Rift.Core

/-! ### Bounds and domains -/

/-- The production protocol version. -/
def protocolVersion : ℕ := 1

/-- The length of the number of a pairing. -/
def pairingIdLen : ℕ := 16

/-- The length of a nonce. -/
def pairingNonceLen : ℕ := 32

/-- The length of a commitment. -/
def pairingCommitmentLen : ℕ := 32

/-- The bytes of `rift-pairing-commitment-v1`. -/
def pairingCommitmentDomain : Bytes :=
  [114, 105, 102, 116, 45, 112, 97, 105, 114, 105, 110, 103, 45, 99, 111, 109, 109, 105, 116, 109,
    101, 110, 116, 45, 118, 49]

/-- The bytes of `rift-pairing-v1`. -/
def pairingDomain : Bytes := [114, 105, 102, 116, 45, 112, 97, 105, 114, 105, 110, 103, 45, 118, 49]

/-- A code has six decimal digits. -/
def pairingCodeModulus : ℕ := 1000000

/-- The number of a pairing. -/
abbrev PairingId := FixedBytes pairingIdLen

/-- What a party commits to and reveals. -/
abbrev PairingNonce := FixedBytes pairingNonceLen

/-! ### Hello -/

/-- A forward-compatible capability identifier. -/
structure Capability where
  value : UInt16
  deriving DecidableEq

/-- Pairing protocol v1 support. -/
def Capability.pairingV1 : Capability := ⟨2⟩

/-- The bootstrap message of a peer. -/
structure Hello where
  protocolVersion : UInt16
  deviceId : DeviceId
  deviceName : String
  platform : String
  capabilities : List Capability
  deriving DecidableEq

/-! ### Commitments and codes -/

/-- The role bound into a pairing nonce commitment. -/
inductive PairingCommitmentRole
  | initiator
  | responder
  deriving DecidableEq

/-- The byte that tells the roles apart. -/
def PairingCommitmentRole.discriminator : PairingCommitmentRole → UInt8
  | .initiator => 0
  | .responder => 1

/-- A commitment to one pairing nonce. -/
structure PairingCommitment where
  bytes : FixedBytes pairingCommitmentLen
  deriving DecidableEq

/-- What a commitment hashes. -/
def commitmentInput (role : PairingCommitmentRole) (initiatorDeviceId responderDeviceId : DeviceId)
    (pairingId : PairingId) (nonce : PairingNonce) : Bytes :=
  pairingCommitmentDomain ++ toBE 2 protocolVersion ++ [role.discriminator] ++
    initiatorDeviceId.bytes.toList ++ responderDeviceId.bytes.toList ++ pairingId.toList ++
    nonce.toList

section Digest

variable (blake3 : Bytes → FixedBytes pairingCommitmentLen)

/-- The commitment of a party to its nonce. -/
def PairingCommitment.derive (role : PairingCommitmentRole)
    (initiatorDeviceId responderDeviceId : DeviceId) (pairingId : PairingId)
    (nonce : PairingNonce) : PairingCommitment :=
  ⟨blake3 (commitmentInput role initiatorDeviceId responderDeviceId pairingId nonce)⟩

/-- Verifies a revealed nonce against this commitment and its public context. -/
def PairingCommitment.verifies (commitment : PairingCommitment) (role : PairingCommitmentRole)
    (initiatorDeviceId responderDeviceId : DeviceId) (pairingId : PairingId)
    (nonce : PairingNonce) : Bool :=
  commitment = derive blake3 role initiatorDeviceId responderDeviceId pairingId nonce

/-- The role-ordered input to one verification code. -/
structure PairingTranscript where
  initiatorDeviceId : DeviceId
  responderDeviceId : DeviceId
  pairingId : PairingId
  initiatorNonce : PairingNonce
  responderNonce : PairingNonce
  deriving DecidableEq

/-- The six-digit human comparison value of a transcript. -/
def PairingTranscript.code (t : PairingTranscript) : ℕ :=
  ofBE ((blake3 (pairingDomain ++ toBE 2 protocolVersion ++ t.initiatorDeviceId.bytes.toList ++
    t.responderDeviceId.bytes.toList ++ t.pairingId.toList ++ t.initiatorNonce.toList ++
    t.responderNonce.toList)).toList.take 4) % pairingCodeModulus

/-- **A commitment binds its nonce.** Two nonces that open one commitment in one context are equal,
or their inputs are a collision of BLAKE3. -/
theorem PairingCommitment.verifies_binding {commitment : PairingCommitment}
    {role : PairingCommitmentRole} {initiator responder : DeviceId} {pairingId : PairingId}
    {n n' : PairingNonce} (h : commitment.verifies blake3 role initiator responder pairingId n)
    (h' : commitment.verifies blake3 role initiator responder pairingId n')
    (hinj : blake3 (commitmentInput role initiator responder pairingId n) =
        blake3 (commitmentInput role initiator responder pairingId n') →
      commitmentInput role initiator responder pairingId n =
        commitmentInput role initiator responder pairingId n') : n = n' := by
  have hd : commitment = derive blake3 role initiator responder pairingId n := by
    simpa [verifies] using h
  have hd' : commitment = derive blake3 role initiator responder pairingId n' := by
    simpa [verifies] using h'
  have hb := congrArg PairingCommitment.bytes (hd.symm.trans hd')
  have hin := hinj hb
  unfold commitmentInput at hin
  exact FixedBytes.toList_inj.mp (List.append_cancel_left hin)

end Digest

/-! ### Messages -/

/-- Explicit purpose selected by the dialer after Hello. -/
inductive ConnectionPurpose
  | authorizedSession
  | pairing
  deriving DecidableEq

/-- A payload-free control message kind. -/
inductive MessageKind
  | hello
  | ping
  | pong
  | pairingRequest
  | pairingResponse
  | pairingDecision
  | pairingComplete
  | pairingReveal
  | connectionIntent
  | connectionIntentResult
  | transferOffer
  | transferAccept
  | transferTerminal
  | transferTerminalAck
  deriving DecidableEq

/-- The production control message set. -/
inductive ControlMessage
  | hello (hello : Hello)
  | ping (nonce : UInt64)
  | pong (nonce : UInt64)
  | pairingRequest (pairingId : PairingId) (commitment : PairingCommitment)
  | pairingResponse (pairingId : PairingId) (commitment : PairingCommitment)
  | pairingDecision (pairingId : PairingId) (accepted : Bool)
  | pairingComplete (pairingId : PairingId)
  | pairingReveal (pairingId : PairingId) (nonce : PairingNonce)
  | connectionIntent (purpose : ConnectionPurpose)
  | connectionIntentResult (accepted : Bool)
  | transferOffer (transferId : TransferId) (metadata : TransferMetadata)
  | transferAccept (transferId : TransferId) (offset : UInt64)
  | transferTerminal (transferId : TransferId) (status : TransferTerminalStatus)
  | transferTerminalAck (transferId : TransferId)
  deriving DecidableEq

def ControlMessage.kind : ControlMessage → MessageKind
  | .hello _ => .hello
  | .ping _ => .ping
  | .pong _ => .pong
  | .pairingRequest _ _ => .pairingRequest
  | .pairingResponse _ _ => .pairingResponse
  | .pairingDecision _ _ => .pairingDecision
  | .pairingComplete _ => .pairingComplete
  | .pairingReveal _ _ => .pairingReveal
  | .connectionIntent _ => .connectionIntent
  | .connectionIntentResult _ => .connectionIntentResult
  | .transferOffer _ _ => .transferOffer
  | .transferAccept _ _ => .transferAccept
  | .transferTerminal _ _ => .transferTerminal
  | .transferTerminalAck _ => .transferTerminalAck

/-- A pairing-only view of the control messages. -/
inductive PairingMessage
  | request (pairingId : PairingId) (commitment : PairingCommitment)
  | response (pairingId : PairingId) (commitment : PairingCommitment)
  | decision (pairingId : PairingId) (accepted : Bool)
  | complete (pairingId : PairingId)
  | reveal (pairingId : PairingId) (nonce : PairingNonce)
  deriving DecidableEq

def PairingMessage.kind : PairingMessage → MessageKind
  | .request _ _ => .pairingRequest
  | .response _ _ => .pairingResponse
  | .decision _ _ => .pairingDecision
  | .complete _ => .pairingComplete
  | .reveal _ _ => .pairingReveal

/-- The control message that carries a pairing message. -/
def ControlMessage.ofPairing : PairingMessage → ControlMessage
  | .request pairingId commitment => .pairingRequest pairingId commitment
  | .response pairingId commitment => .pairingResponse pairingId commitment
  | .decision pairingId accepted => .pairingDecision pairingId accepted
  | .complete pairingId => .pairingComplete pairingId
  | .reveal pairingId nonce => .pairingReveal pairingId nonce

/-- The pairing view of a control message, or the kind of one that has none. -/
def ControlMessage.intoPairing : ControlMessage → Except MessageKind PairingMessage
  | .pairingRequest pairingId commitment => .ok (.request pairingId commitment)
  | .pairingResponse pairingId commitment => .ok (.response pairingId commitment)
  | .pairingDecision pairingId accepted => .ok (.decision pairingId accepted)
  | .pairingComplete pairingId => .ok (.complete pairingId)
  | .pairingReveal pairingId nonce => .ok (.reveal pairingId nonce)
  | message => .error message.kind

theorem ControlMessage.intoPairing_ok_iff {c : ControlMessage} {m : PairingMessage} :
    c.intoPairing = .ok m ↔ c = ofPairing m := by
  constructor
  · intro h
    cases c <;> simp only [intoPairing, Except.ok.injEq, reduceCtorEq] at h <;> subst h <;> rfl
  · rintro rfl
    cases m <;> rfl

end Rift.Protocol
