import Rift.Session.Pairing
import Rift.Transport.Endpoint

/-! # Admission

What the session manager decides about a bootstrapped connection from one entry of the trust store.
The manager reads the store at several separate moments; each read is a step of its caller. -/

namespace Rift.Session

open Rift.Core Rift.Protocol Rift.Transport Rift.Trust

/-- Stands for the handle of one network connection. -/
abbrev ConnectionId := ℕ

/-- What callers of the transport tell apart in its errors. -/
inductive TransportFailure
  | unresolved
  | intentRejected
  | invalidPeer
  | hintCapacityExceeded
  | retryable
  | other
  deriving DecidableEq

/-- What callers make of a failure of the transport. -/
def TransportFailure.ofTransport : EndpointError → TransportFailure
  | .unresolved _ => .unresolved
  | .call .intentRejected => .intentRejected
  | .invalidDeviceId | .selfConnect => .invalidPeer
  | .hintCapacityExceeded => .hintCapacityExceeded
  | error => if error.isRetryable then .retryable else .other

/-- Why a connection is not admitted. -/
inductive SessionError
  | purposeNotAllowed (deviceId : DeviceId) (purpose : ConnectionPurpose)
  | intent (error : TransportFailure)
  | peerRevoked (deviceId : DeviceId)
  deriving DecidableEq

/-- A connection after the mandatory Hello, which names the authenticated identity. -/
structure BootstrappedConnection where
  connection : ConnectionId
  peerHello : Hello
  deriving DecidableEq

/-- The identity that the hello was checked against. -/
def BootstrappedConnection.remoteDeviceId (b : BootstrappedConnection) : DeviceId :=
  b.peerHello.deviceId

/-- What an admitted connection may be used for. -/
inductive SessionAdmission
  | authorized (connection : AuthorizedConnection)
  | pairable
  deriving DecidableEq

/-- The purposes that a decision allows. -/
def purposeAllowed : Option TrustEntry → ConnectionPurpose → Bool
  | some (.trusted _), .authorizedSession => true
  | none, .pairing => true
  | _, _ => false

/-- Why the purpose is not allowed. -/
def localPurposeError (deviceId : DeviceId) (entry : Option TrustEntry)
    (purpose : ConnectionPurpose) : SessionError :=
  match entry with
  | some (.revoked _) => .peerRevoked deviceId
  | _ => .purposeNotAllowed deviceId purpose

/-- The last step of `admit`: what the entry makes of a connection whose generation still holds. -/
def admitEntry (deviceId : DeviceId) (generation : ℕ) (purpose : ConnectionPurpose)
    (entry : Option TrustEntry) : Except SessionError SessionAdmission :=
  match entry, purpose with
  | some (.trusted peer), .authorizedSession => .ok (.authorized ⟨generation, peer⟩)
  | none, .pairing => .ok .pairable
  | entry, purpose => .error (localPurposeError deviceId entry purpose)

theorem admitEntry_eq_authorized {deviceId : DeviceId} {generation : ℕ} {purpose : ConnectionPurpose}
    {entry : Option TrustEntry} {c : AuthorizedConnection}
    (h : admitEntry deviceId generation purpose entry = .ok (.authorized c)) :
    c.trustGeneration = generation ∧ entry = some (.trusted c.peer) := by
  unfold admitEntry at h
  split at h
  · cases h; exact ⟨rfl, rfl⟩
  · cases h
  · cases h

/-- The purpose that an admission serves. -/
def SessionAdmission.purpose : SessionAdmission → ConnectionPurpose
  | .authorized _ => .authorizedSession
  | .pairable => .pairing

theorem admitEntry_purpose {deviceId : DeviceId} {generation : ℕ} {purpose : ConnectionPurpose}
    {entry : Option TrustEntry} {admission : SessionAdmission}
    (h : admitEntry deviceId generation purpose entry = .ok admission) :
    purpose = admission.purpose := by
  unfold admitEntry at h
  split at h <;> cases h <;> rfl

end Rift.Session
