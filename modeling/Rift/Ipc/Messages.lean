import Rift.Lib.Framing
import Rift.Lib.Postcard
import Rift.Core

/-! # Messages of the local control protocol

What an authenticated local client sends to the daemon, what the daemon answers and reports, and the
frames a request comes in: UTF-8 JSON behind a four-byte big-endian length. Parsing JSON is a
parameter. -/

namespace Rift.Ipc

open Rift.Lib Rift.Lib.Framing Rift.Core

/-- Maximum JSON payload bytes accepted in one frame. -/
def maxIpcFrameLen : ℕ := 256 * 1024

/-- A daemon-local pending pairing identifier. -/
abbrev PairingAttemptId := ℕ

/-- A daemon-local authorized session identifier. -/
abbrev SessionId := ℕ

/-- Runtime-management operations. -/
inductive Request
  | getStatus
  | listPeers (after : Option DeviceId) (limit : ℕ)
  | listSessions
  | listPendingPairings
  | confirmPairing (attemptId : PairingAttemptId) (accepted : Bool)
  | revokePeer (deviceId : DeviceId)
  | forgetPeer (deviceId : DeviceId)
  | disconnectSession (sessionId : SessionId)
  | beginPairing (deviceId : DeviceId)
  | connectPeer (deviceId : DeviceId)
  | listPeerConnectivity (after : Option DeviceId) (limit : ℕ)
  deriving DecidableEq

/-- Messages from a local client: the mandatory first frame, and requests under identifiers that the
client chooses. -/
inductive ClientMessage
  | authenticate (version : ℕ) (token : String)
  | request (id : ℕ) (request : Request)
  deriving DecidableEq

/-! ### What the daemon answers and reports -/

/-- The largest page of peers. -/
def maxPeerPageSize : ℕ := 128

/-- Stable local lifecycle states exposed by status. -/
inductive RuntimeState
  | starting
  | running
  | shuttingDown
  | stopped
  | failed
  deriving DecidableEq

/-- Bounded daemon status. -/
structure Status where
  daemonVersion : String
  deviceId : DeviceId
  deviceName : String
  platform : String
  state : RuntimeState
  activeSessions : ℕ
  pendingPairings : ℕ
  pairingEnabled : Bool
  deriving DecidableEq

/-- One durable trust decision for local presentation. -/
structure PeerInfo where
  deviceId : DeviceId
  state : TrustState
  deviceName : Option String
  platform : Option String
  deriving DecidableEq

/-- One page of entries, and the exclusive cursor of the next one. -/
structure Page (α : Type) where
  entries : List α
  nextCursor : Option DeviceId
  deriving DecidableEq

/-- Runtime-only connectivity of a known peer. -/
inductive ConnectivityState
  | disconnected
  | connecting
  | connected
  | backoff
  | suspended
  | unresolved
  | blocked
  deriving DecidableEq

/-- Why a peer is not connected. -/
inductive ConnectivityFailure
  | unresolved
  | network
  | purposeRejected
  | protocol
  | notTrusted
  | capacity
  | cancelled
  deriving DecidableEq

/-- The connectivity of a managed peer. -/
structure PeerConnectivityInfo where
  deviceId : DeviceId
  state : ConnectivityState
  sessionId : Option SessionId
  retryAttempt : ℕ
  retryInMs : Option ℕ
  lastFailure : Option ConnectivityFailure
  deriving DecidableEq

/-- Public metadata of one active authorized session. -/
structure SessionInfo where
  sessionId : SessionId
  deviceId : DeviceId
  deviceName : String
  platform : String
  deriving DecidableEq

/-- Public metadata of one pairing that awaits or resolves the local confirmation. -/
structure PendingPairingInfo where
  attemptId : PairingAttemptId
  deviceId : DeviceId
  deviceName : String
  platform : String
  verificationCode : String
  timeoutRemainingMs : ℕ
  deriving DecidableEq

/-- How a pairing ended. -/
inductive PairingOutcome
  | accepted
  | rejected
  | expired
  | cancelled
  | failed
  deriving DecidableEq

/-- Why an authorized session left the registry. -/
inductive SessionCloseReason
  | connectionClosed
  | disconnected
  | revoked
  | forgotten
  | shutdown
  | superseded
  deriving DecidableEq

/-- What every client is told. -/
inductive Event
  | pairingPending (pairing : PendingPairingInfo)
  | pairingResolved (attemptId : PairingAttemptId) (deviceId : DeviceId) (outcome : PairingOutcome)
  | sessionOpened (session : SessionInfo)
  | sessionClosed (sessionId : SessionId) (deviceId : DeviceId) (reason : SessionCloseReason)
  | trustChanged (deviceId : DeviceId) (state : Option TrustState)
  | daemonShuttingDown
  | peerConnectivityChanged (connectivity : PeerConnectivityInfo)
  deriving DecidableEq

/-- Successful results of a request. -/
inductive Response
  | status (status : Status)
  | peers (page : Page PeerInfo)
  | sessions (sessions : List SessionInfo)
  | pendingPairings (pairings : List PendingPairingInfo)
  | pairingResolved (attemptId : PairingAttemptId) (accepted : Bool) (sessionId : Option SessionId)
  | peerRevoked (deviceId : DeviceId)
  | peerForgotten (deviceId : DeviceId)
  | sessionDisconnected (sessionId : SessionId)
  | pairingStarted (attemptId : PairingAttemptId)
  | peerConnected (deviceId : DeviceId) (sessionId : SessionId)
  | peerConnectivity (page : Page PeerConnectivityInfo)
  deriving DecidableEq

/-- Stable categories of failed operations. -/
inductive ErrorCode
  | invalidRequest
  | pairingNotFound
  | sessionNotFound
  | peerNotTrusted
  | peerAlreadyTrusted
  | capacityExceeded
  | persistenceFailed
  | connectionFailed
  | shuttingDown
  | internal
  | peerUnresolved
  | purposeRejected
  | protocolRejected
  deriving DecidableEq

/-! ### Frames -/

/-- Bounded frame decoding failures. -/
inductive FrameError
  | io (operation : String)
  | truncatedPrefix (actual : ℕ)
  | frameTooLarge (actual maximum : ℕ)
  | truncatedPayload (actual expected : ℕ)
  | invalidUtf8
  | invalidJson
  deriving DecidableEq

/-- The message of a complete payload. -/
def decodePayload (parse : String → Option ClientMessage) (payload : Bytes) :
    Except FrameError ClientMessage :=
  match Postcard.utf8? payload with
  | none => .error .invalidUtf8
  | some text =>
    match parse text with
    | none => .error .invalidJson
    | some message => .ok message

/-- What the end of the stream makes of a read: a frame that is cut short. -/
def endOfStream : Reading → FrameError
  | .length got => .truncatedPrefix got.length
  | .payload declared got => .truncatedPayload got.length declared

/-- What an I/O error makes of a read. -/
def readError : Reading → FrameError
  | .length _ => .io "read prefix"
  | .payload _ _ => .io "read payload"

end Rift.Ipc
