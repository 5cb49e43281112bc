import Rift.Lib.Postcard
import Rift.Lib.RecordLog
import Rift.Core

/-! # The trust journal

The bounded, versioned append-only journal of trust mutations, as bytes: the header, the encoding of
a mutation and of a record, the checks that writing and reading share, and `replay`, which reads a
whole journal back. BLAKE3 is a parameter: nothing here depends on which function it is. -/

namespace Rift.Trust

open Rift.Lib Rift.Lib.Postcard Rift.Core Std

/-! ### Bounds -/

/-- The eight bytes `RIFTTRST`. -/
def journalMagic : Bytes := [82, 73, 70, 84, 84, 82, 83, 84]

/-- The version of the journal. -/
def journalVersion : ℕ := 1

/-- The length of the header. -/
def headerLen : ℕ := 10

/-- The length of the length of a record. -/
def lengthPrefixLen : ℕ := 4

/-- The length of a checksum. -/
def checksumLen : ℕ := 32

/-- The hash function, of which little is assumed. -/
abbrev Blake3 := Bytes → FixedBytes checksumLen

/-- Maximum encoded bytes in one journal mutation. -/
def maxRecordLen : ℕ := 1024

/-- Maximum journal bytes accepted or produced by one store. -/
def maxStoreSize : ℕ := 16 * 1024 * 1024

/-- Maximum number of mutations replayed from one journal. -/
def maxRecords : ℕ := 100000

/-! ### Mutations, decisions and failures -/

/-- One durable mutation in the trust journal. -/
inductive TrustMutation
  | trust (peer : TrustedPeer)
  | revoke (deviceId : DeviceId)
  | forget (deviceId : DeviceId)
  deriving DecidableEq

/-- The identity a mutation is about. -/
def TrustMutation.deviceId : TrustMutation → DeviceId
  | .trust peer => peer.deviceId
  | .revoke d => d
  | .forget d => d

/-- What the store keeps for one identity. -/
inductive StoredDecision
  | trusted (peer : TrustedPeer)
  | revoked
  deriving DecidableEq

/-- The current decisions, by identity. -/
abbrev Decisions := ExtTreeMap DeviceId StoredDecision

/-- Failures opening, replaying, or durably mutating a trust store. -/
inductive TrustStoreError
  | io (operation : String)
  | truncatedHeader (actual expected : ℕ)
  | invalidMagic
  | unsupportedVersion (version : ℕ)
  | storeTooLarge (actual maximum : ℕ)
  | recordTooLarge (record actual maximum : ℕ)
  | tooManyRecords (maximum : ℕ)
  | corruptRecord (record offset : ℕ) (reason : String)
  | metadataTooLong (field : String) (actual maximum : ℕ)
  | invalidPageLimit
  | revokedIdentity (deviceId : DeviceId)
  | staleTrustAttempt
  | storePoisoned
  | rollbackFailed (commit rollback : TrustStoreError)
  deriving DecidableEq

/-! ### Checks -/

/-- The display metadata of a peer stays within the bounds of an authenticated Hello. -/
def validatePeer (peer : TrustedPeer) : Except TrustStoreError Unit :=
  if maxDeviceNameLen < peer.deviceName.utf8ByteSize then
    .error (.metadataTooLong "device_name" peer.deviceName.utf8ByteSize maxDeviceNameLen)
  else if maxPlatformLen < peer.platform.utf8ByteSize then
    .error (.metadataTooLong "platform" peer.platform.utf8ByteSize maxPlatformLen)
  else .ok ()

/-- The bounds on a mutation. -/
def validateMutation : TrustMutation → Except TrustStoreError Unit
  | .trust peer => validatePeer peer
  | .revoke _ => .ok ()
  | .forget _ => .ok ()

/-- A revoked identity is not trusted before it is forgotten. -/
def validateTransition (decisions : Decisions) : TrustMutation → Except TrustStoreError Unit
  | .trust peer =>
    if decisions[peer.deviceId]? = some .revoked then .error (.revokedIdentity peer.deviceId)
    else .ok ()
  | .revoke _ => .ok ()
  | .forget _ => .ok ()

/-- The decisions after a mutation. -/
def applyMutation (decisions : Decisions) : TrustMutation → Decisions
  | .trust peer => decisions.insert peer.deviceId (.trusted peer)
  | .revoke d => decisions.insert d .revoked
  | .forget d => decisions.erase d

/-! ### Encodings -/

/-- A peer on disk. -/
def encodePeer (peer : TrustedPeer) : Bytes :=
  peer.deviceId.bytes.toList ++ (str peer.deviceName ++ str peer.platform)

/-- A mutation as `postcard::to_stdvec` writes it: the index of the variant, then its fields. -/
def encodeMutation : TrustMutation → Bytes
  | .trust peer => u32 0 ++ encodePeer peer
  | .revoke d => u32 1 ++ d.bytes.toList
  | .forget d => u32 2 ++ d.bytes.toList

/-- Reads an identity. -/
def takeDeviceId : Take DeviceId := do
  let bytes ← takeFixed deviceIdLen
  pure ⟨bytes⟩

/-- Reads a peer. -/
def takePeer : Take TrustedPeer := do
  let deviceId ← takeDeviceId
  let deviceName ← takeStr
  let platform ← takeStr
  pure { deviceId, deviceName, platform }

/-- `postcard::take_from_bytes` at a mutation. -/
def takeMutation : Take TrustMutation := do
  let variant ← takeU32
  match variant with
  | 0 => do
    let peer ← takePeer
    pure (.trust peer)
  | 1 => do
    let deviceId ← takeDeviceId
    pure (.revoke deviceId)
  | 2 => do
    let deviceId ← takeDeviceId
    pure (.forget deviceId)
  | _ => failure

/-- The header of every journal. -/
def header : Bytes := journalMagic ++ toBE 2 journalVersion

/-- The header is that of a journal. -/
def validateHeader (bytes : Bytes) : Except TrustStoreError Unit :=
  if bytes.length < headerLen then .error (.truncatedHeader bytes.length headerLen)
  else if bytes.take journalMagic.length ≠ journalMagic then .error .invalidMagic
  else
    let version := ofBE ((bytes.drop journalMagic.length).take 2)
    if version ≠ journalVersion then .error (.unsupportedVersion version) else .ok ()

section Records

variable (blake3 : Blake3)

/-- A payload between its length and its checksum. -/
def recordBytes (payload : Bytes) : Bytes :=
  toBE lengthPrefixLen payload.length ++ (payload ++ (blake3 payload).toList)

/-- A record on disk. -/
def encodeRecord (payload : Bytes) : Except TrustStoreError Bytes :=
  if 2 ^ 32 ≤ payload.length then .error (.recordTooLarge 0 payload.length maxRecordLen)
  else .ok (recordBytes blake3 payload)

/-! ### Replay -/

/-- What a journal says, up to its last whole record. -/
structure ReplayResult where
  decisions : Decisions
  validLen : ℕ
  recordCount : ℕ
  deriving DecidableEq

/-- The checks of one complete record, and its mutation. -/
def readRecord (st : ReplayResult) (payload checksum : Bytes) :
    Except TrustStoreError TrustMutation :=
  if checksum ≠ (blake3 payload).toList then
    .error (.corruptRecord st.recordCount st.validLen "checksum mismatch")
  else
    match takeMutation payload with
    | none => .error (.corruptRecord st.recordCount st.validLen "invalid mutation encoding")
    | some (mutation, remaining) =>
      if remaining ≠ [] then
        .error (.corruptRecord st.recordCount st.validLen "trailing mutation bytes")
      else
        match validateMutation mutation with
        | .error _ =>
          .error (.corruptRecord st.recordCount st.validLen "invalid trusted-peer metadata")
        | .ok () =>
          match validateTransition st.decisions mutation with
          | .error _ => .error (.corruptRecord st.recordCount st.validLen
              "revoked identity trusted without intervening forget")
          | .ok () => .ok mutation

/-- One turn of the replay loop on the bytes from `validLen` on; `none` is its `break`. -/
def replayRecord (st : ReplayResult) (rest : Bytes) :
    Except TrustStoreError (Option (ReplayResult × Bytes)) :=
  if rest.length < lengthPrefixLen then .ok none
  else
    let declared := ofBE (rest.take lengthPrefixLen)
    if maxRecordLen < declared then
      .error (.recordTooLarge st.recordCount declared maxRecordLen)
    else
      let recordLen := lengthPrefixLen + declared + checksumLen
      if rest.length < recordLen then .ok none
      else if maxRecords ≤ st.recordCount then .error (.tooManyRecords maxRecords)
      else
        let payload := (rest.drop lengthPrefixLen).take declared
        let checksum := (rest.drop (lengthPrefixLen + declared)).take checksumLen
        match readRecord blake3 st payload checksum with
        | .error e => .error e
        | .ok mutation =>
          .ok (some (⟨applyMutation st.decisions mutation, st.validLen + recordLen,
            st.recordCount + 1⟩, rest.drop recordLen))

/-- The state of the replay loop behind the header. -/
def replayStart : ReplayResult := ⟨∅, headerLen, 0⟩

/-- Reads a whole journal. What the loop leaves unread is an interrupted append. -/
def replay (bytes : Bytes) : Except TrustStoreError ReplayResult :=
  match validateHeader bytes with
  | .error e => .error e
  | .ok () =>
    (RecordLog.scanAll (replayRecord blake3) replayStart (bytes.drop headerLen)).map Prod.fst

end Records

end Rift.Trust
