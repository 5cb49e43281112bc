import Rift.Protocol.Stream

/-! # Headers of data streams

Every data stream starts with one small frame: the header of the attempt. Its range is checked when it
is written and when it is read, and reading it leaves the raw bytes of the file behind it in the
stream.

The main results are `DataStreamHeader.validateBounds_ok_iff`, `decodeDataHeader_ok_iff`,
`readDataHeader_ok_iff` and `data_header_codec_is_exact`. -/

namespace Rift.Protocol

open Rift.Lib Rift.Lib.Postcard Rift.Lib.Framing Rift.Core

/-- The largest encoded header, without the length in front of it. -/
def maxDataStreamHeaderLen : ℕ := 256

/-- Failures of the header codec; `range` are those of the range checks. -/
inductive DataCodecError
  | lengthBytes (error : ReadExactError)
  | payload (error : ReadExactError)
  | tooLarge (length : ℕ)
  | frameLengthMismatch
  | decode
  | encode
  | trailingPayload
  | range (error : DataHeaderError)
  deriving DecidableEq

/-- Checks the declared range; the sum of two 64-bit numbers can overflow. -/
def DataStreamHeader.validateBounds (header : DataStreamHeader) : Except DataHeaderError Unit :=
  if 2 ^ 64 ≤ header.offset + header.remainingLen then .error .fileTooLarge
  else header.validate (header.offset + header.remainingLen)

/-- A header on the wire. -/
def encodeHeader (header : DataStreamHeader) : Bytes :=
  u32 0 ++ (header.transferId.toList ++ (u64 header.offset ++ u64 header.remainingLen))

/-- Reads a header. -/
def takeHeader : Take DataStreamHeader := do
  match ← takeU32 with
  | 0 =>
    let transferId ← takeFixed 16
    let offset ← takeU64
    let remainingLen ← takeU64
    return ⟨transferId, offset, remainingLen⟩
  | _ => failure

/-- Encodes a header into a buffer of the largest length. -/
def encodeDataHeader (header : DataStreamHeader) : Except DataCodecError Bytes :=
  match header.validateBounds with
  | .error e => .error (.range e)
  | .ok () =>
    if maxDataStreamHeaderLen < (encodeHeader header).length then .error .encode
    else .ok (frameBytes (encodeHeader header))

/-- The announced length, unless it is too large. -/
def headerLength (lengthBytes : Bytes) : Except DataCodecError ℕ :=
  let length := ofBE lengthBytes
  if maxDataStreamHeaderLen < length then .error (.tooLarge length) else .ok length

/-- The header in a payload, which has to fill it. -/
def decodeHeaderPayload (payload : Bytes) : Except DataCodecError DataStreamHeader :=
  match takeHeader payload with
  | none => .error .decode
  | some (header, trailing) =>
    if trailing ≠ [] then .error .trailingPayload
    else
      match header.validateBounds with
      | .error e => .error (.range e)
      | .ok () => .ok header

/-- Decodes exactly one complete header frame, with no raw bytes of the file behind it. -/
def decodeDataHeader (frame : Bytes) : Except DataCodecError DataStreamHeader :=
  if frame.length < lengthLen then .error (.lengthBytes .unexpectedEof)
  else
    match headerLength (frame.take lengthLen) with
    | .error e => .error e
    | .ok length =>
      if (frame.drop lengthLen).length ≠ length then .error .frameLengthMismatch
      else decodeHeaderPayload (frame.drop lengthLen)

/-- Reads only the header. -/
def readDataHeader {R : Type} [AsyncRead R] (r : R) : Except DataCodecError DataStreamHeader × R :=
  match readExact lengthLen r with
  | (.error e, r) => (.error (.lengthBytes e), r)
  | (.ok lengthBytes, r) =>
    match headerLength lengthBytes with
    | .error e => (.error e, r)
    | .ok length =>
      match readExact length r with
      | (.error e, r) => (.error (.payload e), r)
      | (.ok payload, r) => (decodeHeaderPayload payload, r)

/-! ### The range -/

theorem DataStreamHeader.validate_iff {header : DataStreamHeader} {totalLen : ℕ} :
    header.validate totalLen = .ok () ↔
      totalLen ≤ maxTransferBytes ∧ header.offset + header.remainingLen = totalLen := by
  unfold validate
  split_ifs with h₁ h₂ h₃
  · simp only [false_iff]; omega
  · simp only [false_iff]; omega
  · simp only [false_iff]; omega
  · simp only [true_iff]; omega

theorem DataStreamHeader.validateBounds_ok_iff {header : DataStreamHeader} :
    header.validateBounds = .ok () ↔ header.offset + header.remainingLen ≤ maxTransferBytes := by
  unfold validateBounds
  split_ifs with h
  · unfold maxTransferBytes
    simp only [false_iff]
    omega
  · rw [validate_iff]
    simp

/-! ### Headers in memory -/

theorem takeHeader_encode {header : DataStreamHeader}
    (h : header.offset + header.remainingLen ≤ maxTransferBytes) :
    RoundTrip takeHeader (encodeHeader header) header := by
  unfold maxTransferBytes at h
  exact (takeU32_u32 (by norm_num)).bind ((takeFixed_append header.transferId).bind
    ((takeU64_u64 (by omega)).bind ((takeU64_u64 (by omega)).map _)))

theorem length_encodeHeader_le (header : DataStreamHeader) :
    (encodeHeader header).length ≤ maxDataStreamHeaderLen := by
  have h₀ := length_varint_le 5 0
  have h₁ := length_varint_le 10 header.offset
  have h₂ := length_varint_le 10 header.remainingLen
  simp only [encodeHeader, maxDataStreamHeaderLen, u32, u64, List.length_append,
    FixedBytes.length_toList]
  omega

theorem encodeDataHeader_ok_iff {header : DataStreamHeader} {frame : Bytes} :
    encodeDataHeader header = .ok frame ↔
      header.offset + header.remainingLen ≤ maxTransferBytes ∧
        frame = frameBytes (encodeHeader header) := by
  have hlen := length_encodeHeader_le header
  rw [← DataStreamHeader.validateBounds_ok_iff]
  unfold encodeDataHeader
  rcases header.validateBounds with e | ⟨⟩
  · simp
  · simp only [if_neg (Nat.not_lt.mpr hlen), Except.ok.injEq, true_and]
    exact eq_comm

theorem decodeHeaderPayload_ok_iff {payload : Bytes} {header : DataStreamHeader} :
    decodeHeaderPayload payload = .ok header ↔
      takeHeader payload = some (header, []) ∧
        header.offset + header.remainingLen ≤ maxTransferBytes := by
  rw [← DataStreamHeader.validateBounds_ok_iff]
  unfold decodeHeaderPayload
  rcases takeHeader payload with _ | ⟨found, trailing⟩
  · simp
  · by_cases ht : trailing = []
    · subst ht
      rcases hb : found.validateBounds with e | ⟨⟩
      · simp only [hb, ne_eq, not_true_eq_false, if_false, Option.some.injEq, Prod.mk.injEq]
        refine iff_of_false nofun ?_
        rintro ⟨⟨rfl, -⟩, hok⟩
        cases hb.symm.trans hok
      · simp only [hb, ne_eq, not_true_eq_false, if_false, Except.ok.injEq, Option.some.injEq,
          Prod.mk.injEq, and_true]
        exact ⟨fun h => ⟨h, h ▸ hb⟩, fun h => h.1⟩
    · simp [ht]

theorem decodeDataHeader_ok_iff {frame : Bytes} {header : DataStreamHeader} :
    decodeDataHeader frame = .ok header ↔ ∃ payload, frame = frameBytes payload ∧
      payload.length ≤ maxDataStreamHeaderLen ∧ decodeHeaderPayload payload = .ok header := by
  unfold decodeDataHeader headerLength
  constructor
  · intro h
    by_cases h₁ : frame.length < lengthLen
    · simp only [if_pos h₁] at h
      cases h
    · by_cases h₂ : maxDataStreamHeaderLen < ofBE (frame.take lengthLen)
      · simp only [if_neg h₁, if_pos h₂] at h
        cases h
      · simp only [if_neg h₁, if_neg h₂] at h
        by_cases h₃ : (frame.drop lengthLen).length = ofBE (frame.take lengthLen)
        · have hl : (frame.take lengthLen).length = lengthLen := by
            rw [List.length_take]
            omega
          refine ⟨frame.drop lengthLen, ?_, by omega, by simpa [h₃] using h⟩
          rw [frameBytes_eq hl h₃, List.take_append_drop]
        · simp only [ne_eq, h₃, not_false_eq_true, if_true] at h
          cases h
  · rintro ⟨payload, rfl, hsize, hdecode⟩
    have hdeclared := ofBE_take_frameBytes (lt_of_le_of_lt hsize (by decide)) []
    rw [List.append_nil] at hdeclared
    have hpayload : (frameBytes payload).drop lengthLen = payload := by
      rw [frameBytes, List.drop_left' (length_toBE ..)]
    rw [if_neg (by rw [length_frameBytes]; omega)]
    simp only [hdeclared, hpayload, if_neg (Nat.not_lt.mpr hsize), ne_eq, not_true_eq_false, if_false]
    exact hdecode

theorem decodeDataHeader_encode {header : DataStreamHeader}
    (h : header.offset + header.remainingLen ≤ maxTransferBytes) :
    decodeDataHeader (frameBytes (encodeHeader header)) = .ok header :=
  decodeDataHeader_ok_iff.mpr ⟨_, rfl, length_encodeHeader_le header,
    decodeHeaderPayload_ok_iff.mpr ⟨by simpa using takeHeader_encode h [], h⟩⟩

/-! ### Headers off a stream -/

/-- What a failed read of a frame is reported as. -/
def dataFrameError : FrameFault → DataCodecError
  | .length error => .lengthBytes error
  | .tooLarge declared => .tooLarge declared
  | .payload error => .payload error

section Reading

variable {R : Type} {r : R} {header : DataStreamHeader}

theorem readDataHeader_eq [AsyncRead R] (r : R) : readDataHeader r =
    (match (readFrame maxDataStreamHeaderLen r).1 with
      | .error fault => .error (dataFrameError fault)
      | .ok payload => decodeHeaderPayload payload, (readFrame maxDataStreamHeaderLen r).2) := by
  unfold readDataHeader readFrame headerLength
  rcases readExact lengthLen r with ⟨e | lengthBytes, r₁⟩
  · rfl
  · by_cases hlarge : maxDataStreamHeaderLen < ofBE lengthBytes
    · simp only [if_pos hlarge]
      rfl
    · simp only [if_neg hlarge]
      rcases readExact (ofBE lengthBytes) r₁ with ⟨e | payload, r₂⟩ <;> rfl

theorem payload_of_readDataHeader [AsyncRead R] (h : (readDataHeader r).1 = .ok header) :
    ∃ payload, (readFrame maxDataStreamHeaderLen r).1 = .ok payload ∧
      decodeHeaderPayload payload = .ok header := by
  rw [readDataHeader_eq] at h
  rcases hpayload : (readFrame maxDataStreamHeaderLen r).1 with e | payload
  · simp only [hpayload] at h
    cases h
  · simp only [hpayload] at h
    exact ⟨payload, rfl, h⟩

variable [Tape R]

open Tape

/-- A read returns a header and consumes `n` bytes exactly if these are a frame that decodes to it. -/
theorem readDataHeader_ok_iff (hf : Flows r) {n : ℕ} :
    (readDataHeader r).1 = .ok header ∧ ahead (readDataHeader r).2 = (ahead r).drop n ↔
      decodeDataHeader ((ahead r).take n) = .ok header := by
  rw [decodeDataHeader_ok_iff]
  constructor
  · rintro ⟨hok, hrest⟩
    obtain ⟨payload, hpayload, hdecode⟩ := payload_of_readDataHeader hok
    obtain ⟨hsize, hahead⟩ := readFrame_rest hf hpayload
    rw [readDataHeader_eq] at hrest
    rw [hrest] at hahead
    exact ⟨payload, List.append_cancel_right ((List.take_append_drop n _).trans hahead), hsize,
      hdecode⟩
  · rintro ⟨payload, hframe, hsize, hdecode⟩
    have hahead : ahead r = frameBytes payload ++ (ahead r).drop n := by
      rw [← hframe, List.take_append_drop]
    obtain ⟨hok, hrest, -⟩ := readFrame_frame (by decide) hf hsize hahead
    rw [readDataHeader_eq]
    simp only [hok]
    exact ⟨hdecode, hrest⟩

end Reading

/-- **The header codec is exact.** A header is encoded exactly if its range ends within the ceiling,
and is then decoded again; what is accepted is in range; however a stream splits its bytes, a read
returns a header and consumes `n` bytes exactly if the first `n` bytes decode to it, and leaves the
bytes behind them; and a header is valid for a file exactly if the file is within the ceiling and the
range ends where the file does. -/
theorem data_header_codec_is_exact {R : Type} [Tape R] :
    (∀ header : DataStreamHeader,
      ((∃ frame, encodeDataHeader header = .ok frame) ↔
        header.offset + header.remainingLen ≤ 2 ^ 40) ∧
      ∀ frame, encodeDataHeader header = .ok frame → decodeDataHeader frame = .ok header) ∧
    (∀ frame header, decodeDataHeader frame = .ok header →
      header.offset + header.remainingLen ≤ 2 ^ 40) ∧
    (∀ (r : R) header, (readDataHeader r).1 = .ok header →
      header.offset + header.remainingLen ≤ 2 ^ 40) ∧
    (∀ (r : R), Flows r → ∀ header n,
      (readDataHeader r).1 = .ok header ∧ Tape.ahead (readDataHeader r).2 = (Tape.ahead r).drop n ↔
        decodeDataHeader ((Tape.ahead r).take n) = .ok header) ∧
    ∀ (header : DataStreamHeader) totalLen, header.validate totalLen = .ok () ↔
      totalLen ≤ 2 ^ 40 ∧ header.offset + header.remainingLen = totalLen := by
  refine ⟨fun header => ⟨?_, ?_⟩, ?_, ?_, fun r hf header n => readDataHeader_ok_iff hf,
    fun header total => header.validate_iff⟩
  · constructor
    · rintro ⟨frame, h⟩
      exact (encodeDataHeader_ok_iff.mp h).1
    · exact fun h => ⟨_, encodeDataHeader_ok_iff.mpr ⟨h, rfl⟩⟩
  · intro frame h
    obtain ⟨hrange, rfl⟩ := encodeDataHeader_ok_iff.mp h
    exact decodeDataHeader_encode hrange
  · intro frame header h
    obtain ⟨payload, -, -, hdecode⟩ := decodeDataHeader_ok_iff.mp h
    exact (decodeHeaderPayload_ok_iff.mp hdecode).2
  · intro r header h
    obtain ⟨payload, -, hdecode⟩ := payload_of_readDataHeader h
    exact (decodeHeaderPayload_ok_iff.mp hdecode).2

end Rift.Protocol
