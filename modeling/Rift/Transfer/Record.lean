import Rift.Protocol.Wire
import Rift.Transfer.Streaming

/-! # Transfer records on disk

The manifest and the markers of one transfer: how they are encoded, and how a marker is bound to its
manifest. BLAKE3 is a parameter.

The main results are `encodeTransferRecord_ok` and `validateMarker_ok_iff`. -/

namespace Rift.Transfer

open Rift.Lib Rift.Core Rift.Protocol

/-! ### Source paths -/

/-- The maximum UTF-8 byte length of a local transfer source path. -/
def maxSourcePathLen : ℕ := 4096

/-- Why a path is no source. -/
inductive SourcePathError
  | length
  | notAbsolute
  | nul
  deriving DecidableEq

/-- Validates a path, given as its characters; a path of a Unix platform is absolute if it starts at
the root. -/
def checkSourcePath (path : List Char) : Except SourcePathError Unit :=
  if path = [] ∨ maxSourcePathLen < (utf8Bytes path).length then .error .length
  else if 0 ∈ utf8Bytes path then .error .nul
  else if path.head? ≠ some '/' then .error .notAbsolute
  else .ok ()

/-- An absolute native UTF-8 path. -/
structure SourcePath where
  value : String
  valid : checkSourcePath value.toList = .ok ()
  deriving DecidableEq

/-- The path of a source, if it is one. -/
def SourcePath.new (value : String) : Except SourcePathError SourcePath :=
  match h : checkSourcePath value.toList with
  | .ok () => .ok ⟨value, h⟩
  | .error e => .error e

theorem SourcePath.new_value (path : SourcePath) : new path.value = .ok path := by
  unfold new
  split
  · rfl
  · rename_i e h
    cases path.valid.symm.trans h

/-! ### Records -/

/-- The persisted role; only an outgoing record has a local source path. -/
inductive ManifestSource
  | outgoing (path : SourcePath)
  | incoming
  deriving DecidableEq

/-- Immutable active-transfer identity and metadata. -/
structure TransferManifest where
  transferId : TransferId
  peer : DeviceId
  metadata : TransferMetadata
  source : ManifestSource
  deriving DecidableEq

/-- Which side decided a persisted terminal outcome. -/
inductive TerminalOrigin
  | localSide
  | peerSide
  deriving DecidableEq

/-- One complete immutable manifest or monotonic marker file. -/
inductive TransferRecord
  | manifest (manifest : TransferManifest)
  | accepted (manifestDigest : FixedBytes 32)
  | terminal (manifestDigest : FixedBytes 32) (status : TransferTerminalStatus)
    (origin : TerminalOrigin)
  deriving DecidableEq

/-- Private record errors. -/
inductive TransferRecordError
  | io (error : TransferIoError)
  | length
  | magic
  | version
  | tooLarge
  | checksum
  | decode
  | trailingPayload
  | encode
  | notMarker
  | manifestMismatch
  | invalidRole
  deriving DecidableEq

/-! ### Encoding -/

open Postcard

/-- The longest payload of a record. -/
def maxTransferRecordPayloadLen : ℕ := 8 * 1024

/-- The bytes of `RIFTXFER`. -/
def recordMagic : Bytes := [82, 73, 70, 84, 88, 70, 69, 82]

/-- The version of a record. -/
def recordVersion : ℕ := 1

/-- The origin of an outcome on disk. -/
def encodeOrigin : TerminalOrigin → Bytes
  | .localSide => u32 0
  | .peerSide => u32 1

/-- The source on disk. -/
def encodeSource : ManifestSource → Bytes
  | .outgoing path => u32 0 ++ str path.value
  | .incoming => u32 1

/-- A manifest on disk. -/
def encodeManifest (manifest : TransferManifest) : Bytes :=
  manifest.transferId.toList ++ (manifest.peer.bytes.toList ++
    (encodeMetadata manifest.metadata ++ encodeSource manifest.source))

/-- A record as Postcard writes it: the index of the variant, then its fields. -/
def encodePayload : TransferRecord → Bytes
  | .manifest manifest => u32 0 ++ encodeManifest manifest
  | .accepted digest => u32 1 ++ digest.toList
  | .terminal digest status origin =>
    u32 2 ++ (digest.toList ++ (encodeStatus status ++ encodeOrigin origin))

section Digest

variable (blake3 : Bytes → FixedBytes 32)

/-- Everything in an envelope before its checksum: magic, version, length, payload. -/
def recordBody (payload : Bytes) : Bytes :=
  recordMagic ++ toBE 2 recordVersion ++ toBE 4 payload.length ++ payload

/-- A payload in its envelope. -/
def envelope (payload : Bytes) : Bytes :=
  recordBody payload ++ (blake3 (recordBody payload)).toList

/-- Encodes one private record; the payload is written into a buffer of fixed size. -/
def encodeTransferRecord (record : TransferRecord) : Except TransferRecordError Bytes :=
  if maxTransferRecordPayloadLen < (encodePayload record).length then .error .encode
  else .ok (envelope blake3 (encodePayload record))

/-- The digest of the complete encoded manifest, to which its markers are bound. -/
def TransferManifest.recordDigest (manifest : TransferManifest) :
    Except TransferRecordError (FixedBytes 32) := do
  let bytes ← encodeTransferRecord blake3 (.manifest manifest)
  return blake3 bytes

/-- The digest that a marker carries. -/
def TransferRecord.binding : TransferRecord → Option (FixedBytes 32)
  | .manifest _ => none
  | .accepted digest | .terminal digest _ _ => some digest

/-- The role check of a marker. -/
def TransferRecord.checkRole (record : TransferRecord) (source : ManifestSource) :
    Except TransferRecordError Unit :=
  match record with
  | .accepted _ => if source = .incoming then .ok () else .error .invalidRole
  | .terminal _ status origin =>
    if status.receiverOnly ∧ ¬(source = .incoming ↔ origin = .localSide) then .error .invalidRole
    else .ok ()
  | .manifest _ => .ok ()

/-- Validates a marker's manifest binding and role. -/
def TransferRecord.validateMarker (record : TransferRecord) (manifest : TransferManifest) :
    Except TransferRecordError Unit :=
  match record.binding with
  | none => .error .notMarker
  | some digest => do
    if digest ≠ (← manifest.recordDigest blake3) then .error .manifestMismatch
    else record.checkRole manifest.source

/-! ### Every record fits -/

theorem length_sourcePath_le (path : SourcePath) : path.value.utf8ByteSize ≤ maxSourcePathLen := by
  have h := path.valid
  unfold checkSourcePath at h
  split_ifs at h with h₁
  rw [← length_utf8Bytes]
  omega

theorem length_encodeSource_le (source : ManifestSource) :
    (encodeSource source).length ≤ 15 + maxSourcePathLen := by
  rcases source with path | _
  · have h₁ := length_u32_le 0
    have h₂ := length_str_le path.value
    have h₃ := length_sourcePath_le path
    simp only [encodeSource, List.length_append]
    omega
  · have := length_u32_le 1
    simp only [encodeSource]
    omega

theorem length_encodeManifest_le (manifest : TransferManifest) :
    (encodeManifest manifest).length ≤
      16 + deviceIdLen + (20 + maxTransferFileNameLen + 32) + (15 + maxSourcePathLen) := by
  have h₁ := length_str_le manifest.metadata.fileName.value
  have h₂ := length_fileName_le manifest.metadata.fileName
  have h₃ := length_varint_le 10 manifest.metadata.byteLen
  have h₄ := length_encodeSource_le manifest.source
  simp only [encodeManifest, encodeMetadata, u64, List.length_append, FixedBytes.length_toList]
  omega

theorem length_encodePayload_le (record : TransferRecord) :
    (encodePayload record).length ≤ maxTransferRecordPayloadLen := by
  unfold maxTransferRecordPayloadLen
  rcases record with manifest | digest | ⟨digest, status, origin⟩
  · have h₁ := length_u32_le 0
    have h₂ := length_encodeManifest_le manifest
    simp only [deviceIdLen, maxTransferFileNameLen, maxSourcePathLen] at h₂
    simp only [encodePayload, List.length_append]
    omega
  · have h₁ := length_u32_le 1
    simp only [encodePayload, List.length_append, FixedBytes.length_toList]
    omega
  · have h₁ := length_u32_le 2
    have h₂ := length_encodeStatus_le status
    have h₃ : (encodeOrigin origin).length ≤ 5 := by cases origin <;> exact length_u32_le _
    simp only [encodePayload, List.length_append, FixedBytes.length_toList]
    omega

theorem encodeTransferRecord_ok (record : TransferRecord) :
    encodeTransferRecord blake3 record = .ok (envelope blake3 (encodePayload record)) := by
  have := length_encodePayload_le record
  unfold encodeTransferRecord
  rw [if_neg (by omega)]

/-- The digest that a manifest's markers carry. -/
def TransferManifest.digest (manifest : TransferManifest) : FixedBytes 32 :=
  blake3 (envelope blake3 (encodePayload (.manifest manifest)))

theorem TransferManifest.recordDigest_eq (manifest : TransferManifest) :
    manifest.recordDigest blake3 = .ok (manifest.digest blake3) := by
  unfold recordDigest
  rw [encodeTransferRecord_ok]
  rfl

/-- The markers that belong to a manifest: those that carry its digest and pass the role check. -/
theorem validateMarker_ok_iff {record : TransferRecord} {manifest : TransferManifest} :
    record.validateMarker blake3 manifest = .ok () ↔
      record.binding = some (manifest.digest blake3) ∧
        record.checkRole manifest.source = .ok () := by
  unfold TransferRecord.validateMarker
  rcases hb : record.binding with _ | digest
  · simp
  · simp only [TransferManifest.recordDigest_eq, bind, Except.bind, Option.some.injEq, ne_eq,
      ite_not]
    split_ifs with h
    · simp [h]
    · simp [h]

end Digest

end Rift.Transfer
