import Rift.Core
import Mathlib.Data.List.DropRight

/-! # Transfer metadata and data stream headers

The immutable metadata of a single-file transfer, the outcomes a transfer can end with, and the
header at the start of a data stream. A file name that is not portable and a length above the hard
ceiling are not values of these types. -/

namespace Rift.Protocol

open Rift.Lib Rift.Core

/-! ### File names -/

/-- The maximum UTF-8 byte length of a portable presentation file name. -/
def maxTransferFileNameLen : ℕ := 255

/-- The hard protocol file-length ceiling (1 TiB). -/
def maxTransferBytes : ℕ := 2 ^ 40

/-- Why a file cannot be offered. -/
inductive TransferMetadataError
  | fileNameLength
  | unsafeFileName
  | fileTooLarge
  deriving DecidableEq

/-- The UTF-8 bytes of a text. -/
def utf8Bytes (text : List Char) : Bytes := text.flatMap String.utf8EncodeChar

/-- The text before and after byte `n`, if a character starts there. -/
def splitAtByte : ℕ → List Char → Option (List Char × List Char)
  | 0, text => some ([], text)
  | _ + 1, [] => none
  | n + 1, c :: text =>
    if c.utf8Size ≤ n + 1 then
      (splitAtByte (n + 1 - c.utf8Size) text).map fun (before, after) => (c :: before, after)
    else none

/-- Equality up to the case of ASCII letters. -/
def eqIgnoreAsciiCase (a b : List Char) : Bool := a.map Char.toLower = b.map Char.toLower

/-- A byte no portable component contains: an ASCII control or one of `/\<>:"|?*`. -/
def forbiddenByte (byte : UInt8) : Bool :=
  byte < 32 || byte = 127 || byte ∈ ([47, 92, 60, 62, 58, 34, 124, 63, 42] : List UInt8)

/-- The part of a name before its first dot, without trailing spaces. -/
def stem (name : List Char) : List Char :=
  (name.takeWhile (· ≠ '.')).rdropWhile (· = ' ')

/-- The names of devices that some platform reserves. -/
def reservedStem (stem : List Char) : Bool :=
  [['C', 'O', 'N'], ['P', 'R', 'N'], ['A', 'U', 'X'], ['N', 'U', 'L']].any
      (fun reserved => eqIgnoreAsciiCase stem reserved) ||
    [['C', 'O', 'M'], ['L', 'P', 'T']].any fun device =>
      match splitAtByte 3 stem with
      | some (part, suffix) =>
        eqIgnoreAsciiCase part device &&
          suffix ∈ [['1'], ['2'], ['3'], ['4'], ['5'], ['6'], ['7'], ['8'], ['9'], ['¹'], ['²'],
            ['³']]
      | none => false

/-- Validates a component, given as its characters. -/
def checkFileName (name : List Char) : Except TransferMetadataError Unit :=
  if name = [] ∨ maxTransferFileNameLen < (utf8Bytes name).length then .error .fileNameLength
  else if name.getLast? = some '.' ∨ name.getLast? = some ' ' ∨ (utf8Bytes name).any forbiddenByte then
    .error .unsafeFileName
  else if reservedStem (stem name) then .error .unsafeFileName
  else .ok ()

/-- A presentation file name component, never a destination path. -/
structure TransferFileName where
  value : String
  portable : checkFileName value.toList = .ok ()
  deriving DecidableEq

/-- The name of a file, if it is safe. -/
def TransferFileName.new (value : String) : Except TransferMetadataError TransferFileName :=
  match h : checkFileName value.toList with
  | .ok () => .ok ⟨value, h⟩
  | .error e => .error e

theorem TransferFileName.new_value (name : TransferFileName) : new name.value = .ok name := by
  unfold new
  split
  · rfl
  · rename_i e h
    cases name.portable.symm.trans h

/-! ### Metadata -/

/-- The number of a transfer. -/
abbrev TransferId := FixedBytes 16

/-- Immutable metadata shared by all attempts under one transfer identifier. -/
structure TransferMetadata where
  fileName : TransferFileName
  byteLen : ℕ
  blake3 : FixedBytes 32
  byteLen_le : byteLen ≤ maxTransferBytes
  deriving DecidableEq

/-- What is promised of a file, if it is not too large. -/
def TransferMetadata.new (fileName : TransferFileName) (byteLen : ℕ) (blake3 : FixedBytes 32) :
    Except TransferMetadataError TransferMetadata :=
  if h : maxTransferBytes < byteLen then .error .fileTooLarge
  else .ok ⟨fileName, byteLen, blake3, Nat.le_of_not_lt h⟩

/-! ### Outcomes -/

/-- Stable coarse failures. -/
inductive TransferFailureCode
  | integrity
  | sourceChanged
  | io
  | resource
  | protocol
  deriving DecidableEq

/-- Replayable terminal outcomes. -/
inductive TransferTerminalStatus
  | completed
  | rejected
  | cancelled
  | failed (code : TransferFailureCode)
  deriving DecidableEq

/-- The outcomes that only the receiver of a file can decide. -/
def TransferTerminalStatus.receiverOnly : TransferTerminalStatus → Bool
  | .completed | .rejected => true
  | .cancelled | .failed _ => false

/-! ### Data stream headers -/

/-- The header of one attempt: a blob of the stated range of a transfer. -/
structure DataStreamHeader where
  transferId : TransferId
  offset : ℕ
  remainingLen : ℕ
  deriving DecidableEq

/-- The range failures of a data header. -/
inductive DataHeaderError
  | fileTooLarge
  | invalidOffset
  | remainingLengthMismatch
  deriving DecidableEq

/-- Checks the declared range against the immutable file length. -/
def DataStreamHeader.validate (header : DataStreamHeader) (totalLen : ℕ) :
    Except DataHeaderError Unit :=
  if maxTransferBytes < totalLen then .error .fileTooLarge
  else if totalLen < header.offset then .error .invalidOffset
  else if header.remainingLen ≠ totalLen - header.offset then .error .remainingLengthMismatch
  else .ok ()

theorem DataStreamHeader.validate_ok_iff {header : DataStreamHeader} {metadata : TransferMetadata} :
    header.validate metadata.byteLen = .ok () ↔
      header.offset + header.remainingLen = metadata.byteLen := by
  have hle := metadata.byteLen_le
  unfold validate
  rw [if_neg (by omega)]
  split_ifs with h1 h2
  · simp only [false_iff]; omega
  · simp only [false_iff]; omega
  · simp only [true_iff]; omega

end Rift.Protocol
