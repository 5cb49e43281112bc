import Rift.Ipc.Messages
import Rift.Lib.Json

/-! # The JSON of what the daemon sends

Every message of the daemon as the JSON that goes into one frame. An enumeration is the name of its
variant, a message or an answer is an object with its name in the field `type`, an identity is the
array of its bytes.

The main results are `Response.length_json_le`, `Event.length_json_le`,
`ErrorResponse.length_json_le` and `encodeJsonFrame_ok`. -/

namespace Rift.Ipc

open Rift.Lib Rift.Lib.Json Rift.Core

/-- One failed response. -/
structure ErrorResponse where
  code : ErrorCode
  message : String
  deriving DecidableEq

/-- Messages of the daemon. -/
inductive ServerMessage
  | authenticated (version : ℕ)
  | response (id : ℕ) (result : Response)
  | error (id : ℕ) (error : ErrorResponse)
  | event (event : Event)
  deriving DecidableEq

/-! ### The names of the variants -/

def RuntimeState.name : RuntimeState → String
  | .starting => "starting"
  | .running => "running"
  | .shuttingDown => "shutting_down"
  | .stopped => "stopped"
  | .failed => "failed"

def trustStateName : TrustState → String
  | .trusted => "Trusted"
  | .revoked => "Revoked"

def ConnectivityState.name : ConnectivityState → String
  | .disconnected => "disconnected"
  | .connecting => "connecting"
  | .connected => "connected"
  | .backoff => "backoff"
  | .suspended => "suspended"
  | .unresolved => "unresolved"
  | .blocked => "blocked"

def ConnectivityFailure.name : ConnectivityFailure → String
  | .unresolved => "unresolved"
  | .network => "network"
  | .purposeRejected => "purpose_rejected"
  | .protocol => "protocol"
  | .notTrusted => "not_trusted"
  | .capacity => "capacity"
  | .cancelled => "cancelled"

def PairingOutcome.name : PairingOutcome → String
  | .accepted => "accepted"
  | .rejected => "rejected"
  | .expired => "expired"
  | .cancelled => "cancelled"
  | .failed => "failed"

def SessionCloseReason.name : SessionCloseReason → String
  | .connectionClosed => "connection_closed"
  | .disconnected => "disconnected"
  | .revoked => "revoked"
  | .forgotten => "forgotten"
  | .shutdown => "shutdown"
  | .superseded => "superseded"

def ErrorCode.name : ErrorCode → String
  | .invalidRequest => "invalid_request"
  | .pairingNotFound => "pairing_not_found"
  | .sessionNotFound => "session_not_found"
  | .peerNotTrusted => "peer_not_trusted"
  | .peerAlreadyTrusted => "peer_already_trusted"
  | .capacityExceeded => "capacity_exceeded"
  | .persistenceFailed => "persistence_failed"
  | .connectionFailed => "connection_failed"
  | .shuttingDown => "shutting_down"
  | .internal => "internal"
  | .peerUnresolved => "peer_unresolved"
  | .purposeRejected => "purpose_rejected"
  | .protocolRejected => "protocol_rejected"

/-! ### The JSON of the messages -/

section Rendering

variable (escape : UInt8 → Bytes)

/-- An identity is an array of numbers. -/
def deviceIdJson (deviceId : DeviceId) : Bytes :=
  array (deviceId.bytes.toList.map fun byte => number byte.toNat)

/-- An object with the name of its variant. -/
def tagged (tag : String) (fields : List (String × Bytes)) : Bytes :=
  object escape (("type", string escape tag) :: fields)

def Status.json (status : Status) : Bytes :=
  object escape
    [("daemon_version", string escape status.daemonVersion),
     ("device_id", deviceIdJson status.deviceId),
     ("device_name", string escape status.deviceName),
     ("platform", string escape status.platform),
     ("state", string escape status.state.name),
     ("active_sessions", number status.activeSessions),
     ("pending_pairings", number status.pendingPairings),
     ("pairing_enabled", bool status.pairingEnabled)]

def PeerInfo.json (peer : PeerInfo) : Bytes :=
  object escape
    [("device_id", deviceIdJson peer.deviceId),
     ("state", string escape (trustStateName peer.state)),
     ("device_name", option (string escape) peer.deviceName),
     ("platform", option (string escape) peer.platform)]

def PeerConnectivityInfo.json (info : PeerConnectivityInfo) : Bytes :=
  object escape
    [("device_id", deviceIdJson info.deviceId),
     ("state", string escape info.state.name),
     ("session_id", option number info.sessionId),
     ("retry_attempt", number info.retryAttempt),
     ("retry_in_ms", option number info.retryInMs),
     ("last_failure", option (fun failure => string escape failure.name) info.lastFailure)]

/-- `PeerPage` and `PeerConnectivityPage`. -/
def pageJson {α : Type} (entry : α → Bytes) (page : Page α) : Bytes :=
  object escape
    [("entries", array (page.entries.map entry)),
     ("next_cursor", option deviceIdJson page.nextCursor)]

def SessionInfo.json (session : SessionInfo) : Bytes :=
  object escape
    [("session_id", number session.sessionId),
     ("device_id", deviceIdJson session.deviceId),
     ("device_name", string escape session.deviceName),
     ("platform", string escape session.platform)]

def PendingPairingInfo.json (pairing : PendingPairingInfo) : Bytes :=
  object escape
    [("attempt_id", number pairing.attemptId),
     ("device_id", deviceIdJson pairing.deviceId),
     ("device_name", string escape pairing.deviceName),
     ("platform", string escape pairing.platform),
     ("verification_code", string escape pairing.verificationCode),
     ("timeout_remaining_ms", number pairing.timeoutRemainingMs)]

def Response.json : Response → Bytes
  | .status current => tagged escape "status" [("status", current.json escape)]
  | .peers page => tagged escape "peers" [("page", pageJson escape (PeerInfo.json escape) page)]
  | .sessions infos =>
    tagged escape "sessions" [("sessions", array (infos.map (SessionInfo.json escape)))]
  | .pendingPairings pairings =>
    tagged escape "pending_pairings"
      [("pairings", array (pairings.map (PendingPairingInfo.json escape)))]
  | .pairingResolved attemptId accepted sessionId =>
    tagged escape "pairing_resolved"
      [("attempt_id", number attemptId), ("accepted", bool accepted),
       ("session_id", option number sessionId)]
  | .peerRevoked deviceId => tagged escape "peer_revoked" [("device_id", deviceIdJson deviceId)]
  | .peerForgotten deviceId =>
    tagged escape "peer_forgotten" [("device_id", deviceIdJson deviceId)]
  | .sessionDisconnected sessionId =>
    tagged escape "session_disconnected" [("session_id", number sessionId)]
  | .pairingStarted attemptId => tagged escape "pairing_started" [("attempt_id", number attemptId)]
  | .peerConnected deviceId sessionId =>
    tagged escape "peer_connected"
      [("device_id", deviceIdJson deviceId), ("session_id", number sessionId)]
  | .peerConnectivity page =>
    tagged escape "peer_connectivity"
      [("page", pageJson escape (PeerConnectivityInfo.json escape) page)]

def Event.json : Event → Bytes
  | .pairingPending pairing =>
    tagged escape "pairing_pending" [("pairing", pairing.json escape)]
  | .pairingResolved attemptId deviceId outcome =>
    tagged escape "pairing_resolved"
      [("attempt_id", number attemptId), ("device_id", deviceIdJson deviceId),
       ("outcome", string escape outcome.name)]
  | .sessionOpened session => tagged escape "session_opened" [("session", session.json escape)]
  | .sessionClosed sessionId deviceId reason =>
    tagged escape "session_closed"
      [("session_id", number sessionId), ("device_id", deviceIdJson deviceId),
       ("reason", string escape reason.name)]
  | .trustChanged deviceId state =>
    tagged escape "trust_changed"
      [("device_id", deviceIdJson deviceId),
       ("state", option (fun state => string escape (trustStateName state)) state)]
  | .daemonShuttingDown => tagged escape "daemon_shutting_down" []
  | .peerConnectivityChanged connectivity =>
    tagged escape "peer_connectivity_changed" [("connectivity", connectivity.json escape)]

def ErrorResponse.json (error : ErrorResponse) : Bytes :=
  object escape
    [("code", string escape error.code.name), ("message", string escape error.message)]

def ServerMessage.json : ServerMessage → Bytes
  | .authenticated version => tagged escape "authenticated" [("version", number version)]
  | .response id result =>
    tagged escape "response" [("id", number id), ("result", result.json escape)]
  | .error id failure => tagged escape "error" [("id", number id), ("error", failure.json escape)]
  | .event occurred => tagged escape "event" [("event", occurred.json escape)]

/-- One value in its complete bounded frame. -/
def encodeJsonFrameWithLimit (payload : Bytes) (limit : ℕ) : Except FrameError Bytes :=
  if limit < payload.length then .error (.frameTooLarge payload.length limit)
  else if 2 ^ 32 ≤ payload.length then .error (.frameTooLarge payload.length limit)
  else .ok (toBE 4 payload.length ++ payload)

/-- The frame of a message, unless it is too large. -/
def encodeJsonFrame (message : ServerMessage) : Except FrameError Bytes :=
  encodeJsonFrameWithLimit (message.json escape) maxIpcFrameLen

end Rendering

/-! ### Bounded messages -/

/-- The names of a device that its `Hello` or the trust store accepted. -/
def Named (deviceName platform : String) : Prop :=
  deviceName.utf8ByteSize ≤ maxDeviceNameLen ∧ platform.utf8ByteSize ≤ maxPlatformLen

def Status.Within (status : Status) : Prop :=
  status.daemonVersion.utf8ByteSize ≤ 32 ∧ Named status.deviceName status.platform ∧
    status.activeSessions < 2 ^ 32 ∧ status.pendingPairings < 2 ^ 32

def PeerInfo.Within (peer : PeerInfo) : Prop :=
  (∀ name ∈ peer.deviceName, name.utf8ByteSize ≤ maxDeviceNameLen) ∧
    ∀ platform ∈ peer.platform, platform.utf8ByteSize ≤ maxPlatformLen

def PeerConnectivityInfo.Within (info : PeerConnectivityInfo) : Prop :=
  (∀ sessionId ∈ info.sessionId, sessionId < 2 ^ 64) ∧ info.retryAttempt < 2 ^ 32 ∧
    ∀ ms ∈ info.retryInMs, ms < 2 ^ 64

def SessionInfo.Within (session : SessionInfo) : Prop :=
  session.sessionId < 2 ^ 64 ∧ Named session.deviceName session.platform

/-- The code is shown as six characters. -/
def PendingPairingInfo.Within (pairing : PendingPairingInfo) : Prop :=
  pairing.attemptId < 2 ^ 64 ∧ Named pairing.deviceName pairing.platform ∧
    pairing.verificationCode.utf8ByteSize ≤ 6 ∧ pairing.timeoutRemainingMs < 2 ^ 64

/-- An answer with at most `sessions` sessions, `pairings` pairings and `entries` entries. -/
def Response.Within (sessions pairings entries : ℕ) : Response → Prop
  | .status current => current.Within
  | .peers page => page.entries.length ≤ entries ∧ ∀ peer ∈ page.entries, peer.Within
  | .sessions infos => infos.length ≤ sessions ∧ ∀ info ∈ infos, info.Within
  | .pendingPairings infos => infos.length ≤ pairings ∧ ∀ info ∈ infos, info.Within
  | .pairingResolved attemptId _ sessionId => attemptId < 2 ^ 64 ∧ ∀ id ∈ sessionId, id < 2 ^ 64
  | .peerRevoked _ | .peerForgotten _ => True
  | .sessionDisconnected sessionId => sessionId < 2 ^ 64
  | .pairingStarted attemptId => attemptId < 2 ^ 64
  | .peerConnected _ sessionId => sessionId < 2 ^ 64
  | .peerConnectivity page => page.entries.length ≤ entries ∧ ∀ info ∈ page.entries, info.Within

def Event.Within : Event → Prop
  | .pairingPending pairing => pairing.Within
  | .pairingResolved attemptId _ _ => attemptId < 2 ^ 64
  | .sessionOpened session => session.Within
  | .sessionClosed sessionId _ _ => sessionId < 2 ^ 64
  | .trustChanged _ _ | .daemonShuttingDown => True
  | .peerConnectivityChanged connectivity => connectivity.Within

section Lengths

variable {escape : UInt8 → Bytes} (h : EscapesTo escape 6)

theorem length_u64_le {n : ℕ} (hn : n < 2 ^ 64) : (number n).length ≤ 20 :=
  length_number_le (by decide) (hn.trans (by decide))

theorem length_u32_le {n : ℕ} (hn : n < 2 ^ 32) : (number n).length ≤ 10 :=
  length_number_le (by decide) (hn.trans (by decide))

theorem length_deviceIdJson_le (deviceId : DeviceId) : (deviceIdJson deviceId).length ≤ 130 := by
  refine length_array_le (fun byte : UInt8 => number byte.toNat) (n := 32) (c := 3) ?_
    fun byte _ => ?_
  · rw [deviceId.bytes.length_eq]
    exact le_refl 32
  · exact length_number_le (by decide) (byte.toNat_lt.trans (by decide))

include h

theorem length_tagged_le {tag : String} (htag : tag.utf8ByteSize ≤ 32)
    {fields : List (String × Bytes)}
    (hn : (fields.map Prod.fst).all (·.utf8ByteSize ≤ 20) = true) :
    (tagged escape tag fields).length ≤
      320 + (fields.map fun field => field.2.length + 124).sum := by
  have hall : ((("type", string escape tag) :: fields).map Prod.fst).all
      (·.utf8ByteSize ≤ 20) = true := by
    rw [List.map_cons, List.all_cons, hn]
    rfl
  have hobject := length_object_le h hall
  have hname := length_string_le h htag
  simp only [List.map_cons, List.sum_cons, Nat.reduceMul, Nat.reduceAdd] at hobject
  rw [tagged]
  omega

theorem length_tagged_one_le {tag name : String} {value : Bytes} {c : ℕ}
    (htag : tag.utf8ByteSize ≤ 32) (hname : name.utf8ByteSize ≤ 20) (hvalue : value.length ≤ c) :
    (tagged escape tag [(name, value)]).length ≤ 444 + c := by
  refine (length_tagged_le h htag (by simpa using hname)).trans ?_
  simp only [List.map_cons, List.map_nil, List.sum_cons, List.sum_nil]
  omega

theorem Status.length_json_le {status : Status} (hs : status.Within) :
    (status.json escape).length ≤ 3000 := by
  obtain ⟨hversion, ⟨hname, hplatform⟩, hactive, hpending⟩ := hs
  have hversion := length_string_le h hversion
  have hid := length_deviceIdJson_le status.deviceId
  have hname := length_string_le h hname
  have hplatform := length_string_le h hplatform
  have hstate := length_string_le (n := 32) h (s := status.state.name)
    (by cases status.state <;> decide)
  have hactive := length_u32_le hactive
  have hpending := length_u32_le hpending
  have henabled := length_bool_le status.pairingEnabled
  refine (length_object_le (n := 20) h rfl).trans ?_
  simp only [List.map_cons, List.map_nil, List.sum_cons, List.sum_nil]
  simp only [maxDeviceNameLen, maxPlatformLen] at hname hplatform
  omega

theorem PeerInfo.length_json_le {peer : PeerInfo} (hp : peer.Within) :
    (peer.json escape).length ≤ 1980 := by
  have hid := length_deviceIdJson_le peer.deviceId
  have hstate := length_string_le (n := 32) h (s := trustStateName peer.state)
    (by cases peer.state <;> decide)
  have hname := length_option_le (string escape) (a := peer.deviceName) (c := 770) (by decide)
    fun name hn => length_string_le h (hp.1 name hn)
  have hplatform := length_option_le (string escape) (a := peer.platform) (c := 386) (by decide)
    fun platform hn => length_string_le h (hp.2 platform hn)
  refine (length_object_le (n := 20) h rfl).trans ?_
  simp only [List.map_cons, List.map_nil, List.sum_cons, List.sum_nil]
  omega

theorem PeerConnectivityInfo.length_json_le {info : PeerConnectivityInfo} (hi : info.Within) :
    (info.json escape).length ≤ 1980 := by
  obtain ⟨hsession, hattempt, hretry⟩ := hi
  have hid := length_deviceIdJson_le info.deviceId
  have hstate := length_string_le (n := 32) h (s := info.state.name)
    (by cases info.state <;> decide)
  have hsession := length_option_le number (a := info.sessionId) (c := 20) (by decide)
    fun id hn => length_u64_le (hsession id hn)
  have hattempt := length_u32_le hattempt
  have hretry := length_option_le number (a := info.retryInMs) (c := 20) (by decide)
    fun ms hn => length_u64_le (hretry ms hn)
  have hfailure := length_option_le (fun failure => string escape failure.name)
    (a := info.lastFailure) (c := 194) (by decide)
    fun failure _ => length_string_le (n := 32) h (by cases failure <;> decide)
  refine (length_object_le (n := 20) h rfl).trans ?_
  simp only [List.map_cons, List.map_nil, List.sum_cons, List.sum_nil]
  omega

theorem SessionInfo.length_json_le {session : SessionInfo} (hs : session.Within) :
    (session.json escape).length ≤ 1980 := by
  obtain ⟨hsession, hname, hplatform⟩ := hs
  have hsession := length_u64_le hsession
  have hid := length_deviceIdJson_le session.deviceId
  have hname := length_string_le h hname
  have hplatform := length_string_le h hplatform
  refine (length_object_le (n := 20) h rfl).trans ?_
  simp only [List.map_cons, List.map_nil, List.sum_cons, List.sum_nil]
  simp only [maxDeviceNameLen, maxPlatformLen] at hname hplatform
  omega

theorem PendingPairingInfo.length_json_le {pairing : PendingPairingInfo} (hp : pairing.Within) :
    (pairing.json escape).length ≤ 3000 := by
  obtain ⟨hattempt, ⟨hname, hplatform⟩, hcode, htimeout⟩ := hp
  have hattempt := length_u64_le hattempt
  have hid := length_deviceIdJson_le pairing.deviceId
  have hname := length_string_le h hname
  have hplatform := length_string_le h hplatform
  have hcode := length_string_le h hcode
  have htimeout := length_u64_le htimeout
  refine (length_object_le (n := 20) h rfl).trans ?_
  simp only [List.map_cons, List.map_nil, List.sum_cons, List.sum_nil]
  simp only [maxDeviceNameLen, maxPlatformLen] at hname hplatform
  omega

theorem length_pageJson_le {α : Type} (render : α → Bytes) {page : Page α} {n c : ℕ}
    (hn : page.entries.length ≤ n) (hc : ∀ entry ∈ page.entries, (render entry).length ≤ c) :
    (pageJson escape render page).length ≤ 400 + n * (c + 1) := by
  have hentries := length_array_le render hn hc
  have hcursor := length_option_le deviceIdJson (a := page.nextCursor) (c := 130) (by decide)
    fun d _ => length_deviceIdJson_le d
  refine (length_object_le (n := 20) h rfl).trans ?_
  simp only [List.map_cons, List.map_nil, List.sum_cons, List.sum_nil]
  omega

theorem Response.length_json_le {response : Response} (hr : response.Within 128 64 128) :
    (response.json escape).length ≤ 260000 := by
  cases response with
  | status current =>
    have hstatus := Status.length_json_le h hr
    exact (length_tagged_one_le h (by decide) (by decide) hstatus).trans (by decide)
  | peers page =>
    have hpage := length_pageJson_le h (PeerInfo.json escape) hr.1
      fun entry he => PeerInfo.length_json_le h (hr.2 entry he)
    exact (length_tagged_one_le h (by decide) (by decide) hpage).trans (by decide)
  | sessions infos =>
    have hinfos := length_array_le (SessionInfo.json escape) hr.1
      fun info hi => SessionInfo.length_json_le h (hr.2 info hi)
    exact (length_tagged_one_le h (by decide) (by decide) hinfos).trans (by decide)
  | pendingPairings infos =>
    have hinfos := length_array_le (PendingPairingInfo.json escape) hr.1
      fun info hi => PendingPairingInfo.length_json_le h (hr.2 info hi)
    exact (length_tagged_one_le h (by decide) (by decide) hinfos).trans (by decide)
  | pairingResolved attemptId accepted sessionId =>
    have hattempt := length_u64_le hr.1
    have haccepted := length_bool_le accepted
    have hsession := length_option_le number (c := 20) (by decide)
      fun id hid => length_u64_le (hr.2 id hid)
    refine (length_tagged_le h (by decide) rfl).trans ?_
    simp only [List.map_cons, List.map_nil, List.sum_cons, List.sum_nil]
    omega
  | peerRevoked deviceId | peerForgotten deviceId =>
    have hid := length_deviceIdJson_le deviceId
    exact (length_tagged_one_le h (by decide) (by decide) hid).trans (by decide)
  | sessionDisconnected id | pairingStarted id =>
    exact (length_tagged_one_le h (by decide) (by decide) (length_u64_le hr)).trans (by decide)
  | peerConnected deviceId sessionId =>
    have hid := length_deviceIdJson_le deviceId
    have hsession := length_u64_le hr
    refine (length_tagged_le h (by decide) rfl).trans ?_
    simp only [List.map_cons, List.map_nil, List.sum_cons, List.sum_nil]
    omega
  | peerConnectivity page =>
    have hpage := length_pageJson_le h (PeerConnectivityInfo.json escape) hr.1
      fun entry he => PeerConnectivityInfo.length_json_le h (hr.2 entry he)
    exact (length_tagged_one_le h (by decide) (by decide) hpage).trans (by decide)

theorem Event.length_json_le {event : Event} (he : event.Within) :
    (event.json escape).length ≤ 10000 := by
  cases event with
  | pairingPending pairing =>
    have hpairing := PendingPairingInfo.length_json_le h he
    exact (length_tagged_one_le h (by decide) (by decide) hpairing).trans (by decide)
  | pairingResolved attemptId deviceId outcome =>
    have hattempt := length_u64_le he
    have hid := length_deviceIdJson_le deviceId
    have houtcome := length_string_le (n := 32) h (s := outcome.name)
      (by cases outcome <;> decide)
    refine (length_tagged_le h (by decide) rfl).trans ?_
    simp only [List.map_cons, List.map_nil, List.sum_cons, List.sum_nil]
    omega
  | sessionOpened session =>
    have hsession := SessionInfo.length_json_le h he
    exact (length_tagged_one_le h (by decide) (by decide) hsession).trans (by decide)
  | sessionClosed sessionId deviceId reason =>
    have hsession := length_u64_le he
    have hid := length_deviceIdJson_le deviceId
    have hreason := length_string_le (n := 32) h (s := reason.name) (by cases reason <;> decide)
    refine (length_tagged_le h (by decide) rfl).trans ?_
    simp only [List.map_cons, List.map_nil, List.sum_cons, List.sum_nil]
    omega
  | trustChanged deviceId state =>
    have hid := length_deviceIdJson_le deviceId
    have hstate := length_option_le (fun state => string escape (trustStateName state))
      (a := state) (c := 194) (by decide)
      fun state _ => length_string_le (n := 32) h (by cases state <;> decide)
    refine (length_tagged_le h (by decide) rfl).trans ?_
    simp only [List.map_cons, List.map_nil, List.sum_cons, List.sum_nil]
    omega
  | daemonShuttingDown => exact (length_tagged_le h (by decide) rfl).trans (by decide)
  | peerConnectivityChanged connectivity =>
    have hinfo := PeerConnectivityInfo.length_json_le h he
    exact (length_tagged_one_le h (by decide) (by decide) hinfo).trans (by decide)

theorem ErrorResponse.length_json_le {error : ErrorResponse}
    (he : error.message.utf8ByteSize ≤ 512) : (error.json escape).length ≤ 10000 := by
  have hcode := length_string_le (n := 32) h (s := error.code.name)
    (by cases error.code <;> decide)
  have hmessage := length_string_le h he
  refine (length_object_le (n := 20) h rfl).trans ?_
  simp only [List.map_cons, List.map_nil, List.sum_cons, List.sum_nil]
  omega

theorem length_error_json_le {id : ℕ} (hid : id < 2 ^ 64) {error : ErrorResponse}
    (he : error.message.utf8ByteSize ≤ 512) :
    ((ServerMessage.error id error).json escape).length ≤ maxIpcFrameLen := by
  have hnumber := length_u64_le hid
  have herror := ErrorResponse.length_json_le h he
  refine (length_tagged_le h (by decide) rfl).trans ?_
  simp only [List.map_cons, List.map_nil, List.sum_cons, List.sum_nil, maxIpcFrameLen]
  omega

end Lengths

theorem encodeJsonFrame_ok {escape : UInt8 → Bytes} {message : ServerMessage}
    (hm : (message.json escape).length ≤ maxIpcFrameLen) :
    encodeJsonFrame escape message =
      .ok (toBE 4 (message.json escape).length ++ message.json escape) := by
  have hlimit : maxIpcFrameLen < 2 ^ 32 := by decide
  rw [encodeJsonFrame, encodeJsonFrameWithLimit, if_neg (by omega), if_neg (by omega)]

end Rift.Ipc
