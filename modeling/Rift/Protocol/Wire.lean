import Rift.Lib.Postcard
import Rift.Protocol.Transfer

/-! # Transfer values on the wire

How Postcard writes the transfer metadata and the outcomes, in control messages as in records on disk,
and how they are read back. A file name and a length are checked while they are read. -/

namespace Rift.Protocol

open Rift.Lib Rift.Lib.Postcard Rift.Core

/-! ### Encodings -/

/-- A status on the wire. -/
def encodeStatus : TransferTerminalStatus → Bytes
  | .completed => u32 0
  | .rejected => u32 1
  | .cancelled => u32 2
  | .failed .integrity => u32 3 ++ u32 0
  | .failed .sourceChanged => u32 3 ++ u32 1
  | .failed .io => u32 3 ++ u32 2
  | .failed .resource => u32 3 ++ u32 3
  | .failed .protocol => u32 3 ++ u32 4

/-- The promise of a file on the wire. -/
def encodeMetadata (metadata : TransferMetadata) : Bytes :=
  str metadata.fileName.value ++ (u64 metadata.byteLen ++ metadata.blake3.toList)

/-! ### Decodings -/

/-- Reads the code of a failure. -/
def takeFailureCode : Take TransferFailureCode := do
  match ← takeU32 with
  | 0 => pure .integrity
  | 1 => pure .sourceChanged
  | 2 => pure .io
  | 3 => pure .resource
  | 4 => pure .protocol
  | _ => failure

/-- Reads a status. -/
def takeStatus : Take TransferTerminalStatus := do
  match ← takeU32 with
  | 0 => pure .completed
  | 1 => pure .rejected
  | 2 => pure .cancelled
  | 3 => return .failed (← takeFailureCode)
  | _ => failure

/-- Takes a file name; a text that is none is refused. -/
def takeFileName : Take TransferFileName := do
  match TransferFileName.new (← takeStr) with
  | .ok name => pure name
  | .error _ => failure

/-- Takes a length; one above the ceiling is refused. -/
def takeByteLen : Take {byteLen : ℕ // byteLen ≤ maxTransferBytes} := do
  let byteLen ← takeU64
  if h : byteLen ≤ maxTransferBytes then pure ⟨byteLen, h⟩ else failure

/-- Reads the promise of a file. -/
def takeMetadata : Take TransferMetadata := do
  let fileName ← takeFileName
  let byteLen ← takeByteLen
  let blake3 ← takeFixed 32
  return ⟨fileName, byteLen, blake3, byteLen.2⟩

/-! ### Lengths -/

theorem length_utf8Bytes (s : String) : (utf8Bytes s.toList).length = s.utf8ByteSize := by
  have h : s.toByteArray = s.toList.utf8Encode := by
    rw [← String.toByteArray_ofList, String.ofList_toList]
  change _ = s.toByteArray.size
  rw [h]
  simp [utf8Bytes, List.utf8Encode]

theorem length_fileName_le (name : TransferFileName) :
    name.value.utf8ByteSize ≤ maxTransferFileNameLen := by
  have h := name.portable
  unfold checkFileName at h
  split_ifs at h with h₁
  rw [← length_utf8Bytes]
  omega

theorem length_u32_le (n : ℕ) : (u32 n).length ≤ 5 := length_varint_le 5 n

theorem length_encodeStatus_le (status : TransferTerminalStatus) :
    (encodeStatus status).length ≤ 10 := by
  rcases status with _ | _ | _ | code
  · exact (length_u32_le 0).trans (by norm_num)
  · exact (length_u32_le 1).trans (by norm_num)
  · exact (length_u32_le 2).trans (by norm_num)
  · cases code <;> decide

/-! ### Round trips -/

theorem takeFailureCode_u32 (code : TransferFailureCode) :
    ∃ n, encodeStatus (.failed code) = u32 3 ++ u32 n ∧ RoundTrip takeFailureCode (u32 n) code := by
  cases code
  · exact ⟨0, rfl, (takeU32_u32 (by norm_num)).ending (.pure _)⟩
  · exact ⟨1, rfl, (takeU32_u32 (by norm_num)).ending (.pure _)⟩
  · exact ⟨2, rfl, (takeU32_u32 (by norm_num)).ending (.pure _)⟩
  · exact ⟨3, rfl, (takeU32_u32 (by norm_num)).ending (.pure _)⟩
  · exact ⟨4, rfl, (takeU32_u32 (by norm_num)).ending (.pure _)⟩

theorem takeStatus_encode (status : TransferTerminalStatus) :
    RoundTrip takeStatus (encodeStatus status) status := by
  rcases status with _ | _ | _ | code
  · exact (takeU32_u32 (by norm_num)).ending (.pure _)
  · exact (takeU32_u32 (by norm_num)).ending (.pure _)
  · exact (takeU32_u32 (by norm_num)).ending (.pure _)
  · obtain ⟨n, he, hr⟩ := takeFailureCode_u32 code
    rw [he]
    exact (takeU32_u32 (by norm_num)).bind (hr.map _)

theorem takeFileName_str (name : TransferFileName) :
    RoundTrip takeFileName (str name.value) name := by
  have hlen := length_fileName_le name
  unfold maxTransferFileNameLen at hlen
  refine (takeStr_str (by omega)).ending ?_
  rw [TransferFileName.new_value]
  exact .pure name

theorem takeByteLen_u64 (byteLen : {byteLen : ℕ // byteLen ≤ maxTransferBytes}) :
    RoundTrip takeByteLen (u64 byteLen) byteLen := by
  have hle := byteLen.2
  unfold maxTransferBytes at hle
  refine (takeU64_u64 (by omega)).ending ?_
  rw [dif_pos byteLen.2]
  exact .pure byteLen

theorem takeMetadata_encode (metadata : TransferMetadata) :
    RoundTrip takeMetadata (encodeMetadata metadata) metadata :=
  (takeFileName_str metadata.fileName).bind
    ((takeByteLen_u64 ⟨metadata.byteLen, metadata.byteLen_le⟩).bind
      ((takeFixed_append metadata.blake3).map _))

end Rift.Protocol
