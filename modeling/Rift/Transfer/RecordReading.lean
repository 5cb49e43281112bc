import Rift.Lib.FrameIo
import Rift.Transfer.Decoding

/-! # Reading record files

A record file is read in pieces: the header, as many bytes as it announces, and one byte more, which
has to be missing. That is the decoding of the whole content, for every content, although the checks
come in another order.

The main results are `readRecordBytes_ok`, `readRecordBytes_short` and
`record_reading_is_decoding`. -/

namespace Rift.Transfer

open Rift.Lib Rift.Protocol

section Reading

variable {R : Type} [AsyncRead R]

/-- Reads until the buffer of `need` bytes is full; a file that ends before is too short. -/
def readRecordBytes (need : ℕ) (r : R) : Except TransferRecordError Bytes × R :=
  match readExact need r with
  | (.ok bytes, r) => (.ok bytes, r)
  | (.error .unexpectedEof, r) => (.error .length, r)
  | (.error (.step e), r) => (.error (.io (localIo e)), r)

/-- Reads exactly one bounded record from a private state file that is open. -/
def readTransferRecord (blake3 : Bytes → FixedBytes 32) (r : R) :
    Except TransferRecordError TransferRecord × R :=
  match readRecordBytes recordHeaderLen r with
  | (.error e, r) => (.error e, r)
  | (.ok header, r) =>
    match payloadLength header with
    | .error e => (.error e, r)
    | .ok length =>
      match readRecordBytes (length + recordChecksumLen) r with
      | (.error e, r) => (.error e, r)
      | (.ok body, r) =>
        match AsyncRead.read 1 r with
        | (.error e, r) => (.error (.io (localIo e)), r)
        | (.ok extra, r) =>
          if extra ≠ [] then (.error .length, r)
          else (decodeTransferRecord blake3 (header ++ body), r)

end Reading

section Flowing

variable {R : Type} [Tape R] {r : R} {n : ℕ}

open Tape

theorem readRecordBytes_ok (hf : Flows r) (h : n ≤ (ahead r).length) :
    ∃ r', readRecordBytes n r = (.ok ((ahead r).take n), r') ∧ ahead r' = (ahead r).drop n ∧
      Flows r' := by
  obtain ⟨r', hread, hrest, hflows⟩ := readExact_ok hf h
  refine ⟨r', ?_, hrest, hflows⟩
  unfold readRecordBytes
  rw [hread]

theorem readRecordBytes_short (hf : Flows r) (h : (ahead r).length < n) :
    ∃ r' k, readRecordBytes n r = (.error .length, r') ∧ ahead r' = (ahead r).drop k ∧ k ≤ n := by
  obtain ⟨k, hk, hrest⟩ := readExact_within n hf
  obtain ⟨r', hread⟩ := readExact_short hf h
  rw [hread] at hrest
  refine ⟨r', k, ?_, hrest, hk⟩
  unfold readRecordBytes
  rw [hread]

theorem read_extra (hf : Flows r) :
    ∃ extra r', AsyncRead.read 1 r = (.ok extra, r') ∧ (extra = [] ↔ ahead r = []) ∧
      ahead r' = (ahead r).drop extra.length ∧ extra.length ≤ 1 := by
  obtain ⟨extra, hextra⟩ := hf .refl 1
  have hahead := ahead_read hextra
  refine ⟨extra, _, Prod.ext hextra rfl, ⟨?_, ?_⟩, ?_, AsyncRead.length_read_le hextra⟩
  · rintro rfl
    exact ahead_end Nat.one_pos hextra
  · intro hend
    rw [hend] at hahead
    exact (List.append_eq_nil_iff.mp hahead.symm).1
  · conv_rhs => rw [hahead, List.drop_left]

section Contents

variable (blake3 : Bytes → FixedBytes 32) {bytes : Bytes}

theorem decode_short (h : bytes.length < recordHeaderLen) :
    decodeTransferRecord blake3 bytes = .error .length :=
  if_pos h

theorem decode_bad_header (h : recordHeaderLen ≤ bytes.length) {e : TransferRecordError}
    (he : payloadLength (bytes.take recordHeaderLen) = .error e) :
    decodeTransferRecord blake3 bytes = .error e := by
  unfold decodeTransferRecord
  rw [if_neg (Nat.not_lt.mpr h), he]
  rfl

theorem decode_bad_length (h : recordHeaderLen ≤ bytes.length) {length : ℕ}
    (hl : payloadLength (bytes.take recordHeaderLen) = .ok length)
    (hne : bytes.length ≠ recordHeaderLen + length + recordChecksumLen) :
    decodeTransferRecord blake3 bytes = .error .length := by
  unfold decodeTransferRecord
  rw [if_neg (Nat.not_lt.mpr h), hl]
  exact if_pos hne

end Contents

/-- The bytes that a file with this header can be asked for: the header, what it announces, the
checksum and one byte; nothing but the header if that is not one. -/
def readLimit (header : Bytes) : ℕ :=
  match payloadLength header with
  | .error _ => recordHeaderLen
  | .ok length => recordHeaderLen + length + recordChecksumLen + 1

theorem recordHeaderLen_le_readLimit (header : Bytes) : recordHeaderLen ≤ readLimit header := by
  unfold readLimit
  split
  · exact Nat.le_refl _
  · omega

/-- **Reading a record file is decoding its bytes.** However the reads are split, the result is that
of decoding the whole content, and no byte behind the limit of the header is read. -/
theorem record_reading_is_decoding (blake3 : Bytes → FixedBytes 32) (hf : Flows r) :
    (readTransferRecord blake3 r).1 = decodeTransferRecord blake3 (ahead r) ∧
      ∃ k, ahead (readTransferRecord blake3 r).2 = (ahead r).drop k ∧
        k ≤ readLimit ((ahead r).take recordHeaderLen) := by
  have hlimit := recordHeaderLen_le_readLimit ((ahead r).take recordHeaderLen)
  unfold readTransferRecord
  rcases Nat.lt_or_ge (ahead r).length recordHeaderLen with hlt | hge
  · obtain ⟨r₁, k, hread, hrest, hk⟩ := readRecordBytes_short hf hlt
    simp only [hread]
    exact ⟨(decode_short blake3 hlt).symm, k, hrest, by omega⟩
  · obtain ⟨r₁, hread₁, hrest₁, hflows₁⟩ := readRecordBytes_ok hf hge
    simp only [hread₁]
    rcases hl : payloadLength ((ahead r).take recordHeaderLen) with e | length
    · exact ⟨(decode_bad_header blake3 hge hl).symm, recordHeaderLen, hrest₁, hlimit⟩
    · have hbound : readLimit ((ahead r).take recordHeaderLen) =
          recordHeaderLen + length + recordChecksumLen + 1 := by
        unfold readLimit
        rw [hl]
      have hlen₁ : (ahead r₁).length = (ahead r).length - recordHeaderLen := by
        rw [hrest₁, List.length_drop]
      rcases Nat.lt_or_ge (ahead r₁).length (length + recordChecksumLen) with hshort | hfull
      · obtain ⟨r₂, k, hread₂, hrest₂, hk⟩ := readRecordBytes_short hflows₁ hshort
        simp only [hread₂]
        refine ⟨(decode_bad_length blake3 hge hl (by omega)).symm, recordHeaderLen + k, ?_, by omega⟩
        rw [hrest₂, hrest₁, List.drop_drop]
      · obtain ⟨r₂, hread₂, hrest₂, hflows₂⟩ := readRecordBytes_ok hflows₁ hfull
        obtain ⟨extra, r₃, hread₃, hextra, hrest₃, hone⟩ := read_extra hflows₂
        have hlen₂ : (ahead r₂).length = (ahead r₁).length - (length + recordChecksumLen) := by
          rw [hrest₂, List.length_drop]
        have htail : ahead r₃ =
            (ahead r).drop (recordHeaderLen + (length + recordChecksumLen + extra.length)) := by
          rw [hrest₃, hrest₂, hrest₁, List.drop_drop, List.drop_drop]
        simp only [hread₂, hread₃]
        by_cases hnone : extra = []
        · have hend : (ahead r₂).length = 0 := by rw [hextra.mp hnone, List.length_nil]
          have hbody : (ahead r₁).take (length + recordChecksumLen) = ahead r₁ :=
            List.take_of_length_le (by omega)
          have hwhole : (ahead r).take recordHeaderLen ++
              (ahead r₁).take (length + recordChecksumLen) = ahead r := by
            rw [hbody, hrest₁, List.take_append_drop]
          simp only [hnone, ne_eq, not_true_eq_false, if_false, hwhole]
          exact ⟨trivial, _, htail, by omega⟩
        · have hmore : 0 < (ahead r₂).length :=
            List.length_pos_of_ne_nil fun h => hnone (hextra.mpr h)
          simp only [ne_eq, hnone, not_false_eq_true, if_true]
          exact ⟨(decode_bad_length blake3 hge hl (by omega)).symm, _, htail, by omega⟩

end Flowing

theorem decode_envelope_append (blake3 : Bytes → FixedBytes 32) (record : TransferRecord)
    {more : Bytes} (hmore : more ≠ []) :
    decodeTransferRecord blake3 (envelope blake3 (encodePayload record) ++ more) =
      .error .length := by
  have hpos := List.length_pos_of_ne_nil hmore
  have hlen := length_envelope blake3 (encodePayload record)
  have hheader : payloadLength
      ((envelope blake3 (encodePayload record) ++ more).take recordHeaderLen) =
        .ok (encodePayload record).length := by
    rw [envelope, List.append_assoc]
    exact payloadLength_recordBody (encodePayload_ne_nil _) (length_encodePayload_le _) _
  refine decode_bad_length blake3 ?_ hheader ?_ <;> rw [List.length_append, hlen] <;> omega

/-- A record file that arrives byte by byte, with one byte too many. -/
theorem trailing_byte_refused :
    (readTransferRecord sumDigest (ScriptedFile.ofContent
      (envelope sumDigest (encodePayload (.accepted (.replicate 32 0))) ++ [0])
      (List.replicate 100 (.move 0)))).1 = .error .length := by
  have hcalm : (ScriptedFile.ofContent
      (envelope sumDigest (encodePayload (.accepted (.replicate 32 0))) ++ [0])
      (List.replicate 100 (.move 0))).Calm := fun s hs => ⟨0, List.eq_of_mem_replicate hs⟩
  exact ((record_reading_is_decoding sumDigest hcalm.flows).1).trans
    (decode_envelope_append sumDigest _ (by simp))

end Rift.Transfer
