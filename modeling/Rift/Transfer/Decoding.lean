import Rift.Transfer.Record

/-! # Reading transfer records back

A record is taken out of its envelope only if the envelope is whole: the header is the expected one,
the length is that of the payload, and the checksum is that of everything before it. So nothing but
what was written is read, as far as BLAKE3 does not collide.

The main results are `decodeTransferRecord_ok_iff` and `records_are_tamper_evident`. -/

namespace Rift.Transfer

open Rift.Lib Rift.Lib.Postcard Rift.Core Rift.Protocol

/-! ### Payloads -/

/-- Takes a source path; a text that is none is refused. -/
def takeSourcePath : Take SourcePath := do
  match SourcePath.new (← takeStr) with
  | .ok path => pure path
  | .error _ => failure

/-- Reads the source in a manifest. -/
def takeSource : Take ManifestSource := do
  match ← takeU32 with
  | 0 => return .outgoing (← takeSourcePath)
  | 1 => pure .incoming
  | _ => failure

/-- Reads a manifest. -/
def takeManifest : Take TransferManifest := do
  let transferId ← takeFixed 16
  let peer ← takeFixed deviceIdLen
  let metadata ← takeMetadata
  let source ← takeSource
  return ⟨transferId, ⟨peer⟩, metadata, source⟩

/-- Reads where an outcome comes from. -/
def takeOrigin : Take TerminalOrigin := do
  match ← takeU32 with
  | 0 => pure .localSide
  | 1 => pure .peerSide
  | _ => failure

/-- Reads a record. -/
def takeRecord : Take TransferRecord := do
  match ← takeU32 with
  | 0 => return .manifest (← takeManifest)
  | 1 => return .accepted (← takeFixed 32)
  | 2 => do
    let digest ← takeFixed 32
    let status ← takeStatus
    let origin ← takeOrigin
    return .terminal digest status origin
  | _ => failure

theorem takeSourcePath_str (path : SourcePath) : RoundTrip takeSourcePath (str path.value) path := by
  have hlen := length_sourcePath_le path
  unfold maxSourcePathLen at hlen
  refine (takeStr_str (by omega)).ending ?_
  rw [SourcePath.new_value]
  exact .pure path

theorem takeSource_encode (source : ManifestSource) :
    RoundTrip takeSource (encodeSource source) source := by
  rcases source with path | _
  · exact (takeU32_u32 (by norm_num)).bind ((takeSourcePath_str path).map _)
  · exact (takeU32_u32 (by norm_num)).ending (.pure _)

theorem takeManifest_encode (manifest : TransferManifest) :
    RoundTrip takeManifest (encodeManifest manifest) manifest :=
  (takeFixed_append manifest.transferId).bind
    ((takeFixed_append manifest.peer.bytes).bind
      ((takeMetadata_encode manifest.metadata).bind ((takeSource_encode manifest.source).map _)))

theorem takeOrigin_encode (origin : TerminalOrigin) :
    RoundTrip takeOrigin (encodeOrigin origin) origin := by
  cases origin
  · exact (takeU32_u32 (by norm_num)).ending (.pure _)
  · exact (takeU32_u32 (by norm_num)).ending (.pure _)

theorem takeRecord_encode (record : TransferRecord) :
    RoundTrip takeRecord (encodePayload record) record := by
  rcases record with manifest | digest | ⟨digest, status, origin⟩
  · exact (takeU32_u32 (by norm_num)).bind ((takeManifest_encode manifest).map _)
  · exact (takeU32_u32 (by norm_num)).bind ((takeFixed_append digest).map _)
  · exact (takeU32_u32 (by norm_num)).bind ((takeFixed_append digest).bind
      ((takeStatus_encode status).bind ((takeOrigin_encode origin).map _)))

/-! ### Envelopes -/

/-- The length of the header of a record. -/
def recordHeaderLen : ℕ := 14

/-- The length of the checksum of a record. -/
def recordChecksumLen : ℕ := 32

/-- The length of the payload that a header announces. -/
def payloadLength (header : Bytes) : Except TransferRecordError ℕ :=
  if header.take 8 ≠ recordMagic then .error .magic
  else if ofBE ((header.drop 8).take 2) ≠ recordVersion then .error .version
  else if maxTransferRecordPayloadLen < ofBE ((header.drop 10).take 4) then .error .tooLarge
  else if ofBE ((header.drop 10).take 4) = 0 then .error .length
  else .ok (ofBE ((header.drop 10).take 4))

section Digest

variable (blake3 : Bytes → FixedBytes 32)

/-- Decodes exactly one bounded, checksummed private file. -/
def decodeTransferRecord (bytes : Bytes) : Except TransferRecordError TransferRecord :=
  if bytes.length < recordHeaderLen then .error .length
  else do
    let length ← payloadLength (bytes.take recordHeaderLen)
    let checksumStart := recordHeaderLen + length
    if bytes.length ≠ checksumStart + recordChecksumLen then .error .length
    else if (blake3 (bytes.take checksumStart)).toList ≠ bytes.drop checksumStart then
      .error .checksum
    else
      match takeRecord ((bytes.take checksumStart).drop recordHeaderLen) with
      | none => .error .decode
      | some (record, trailing) => if trailing = [] then .ok record else .error .trailingPayload

theorem decodeTransferRecord_ok_iff {bytes : Bytes} {record : TransferRecord} :
    decodeTransferRecord blake3 bytes = .ok record ↔
      ∃ length, payloadLength (bytes.take recordHeaderLen) = .ok length ∧
        bytes.length = recordHeaderLen + length + recordChecksumLen ∧
        (blake3 (bytes.take (recordHeaderLen + length))).toList =
          bytes.drop (recordHeaderLen + length) ∧
        takeRecord ((bytes.take (recordHeaderLen + length)).drop recordHeaderLen) =
          some (record, []) := by
  unfold decodeTransferRecord
  constructor
  · intro h
    split_ifs at h
    obtain ⟨length, hl, h⟩ := bind_eq_ok h
    simp only at h
    split_ifs at h with h₁ h₂
    refine ⟨length, hl, not_not.mp h₁, not_not.mp h₂, ?_⟩
    rcases ht : takeRecord ((bytes.take (recordHeaderLen + length)).drop recordHeaderLen) with
      _ | ⟨record', trailing⟩
    · rw [ht] at h
      cases h
    · simp only [ht] at h
      split_ifs at h with h₃
      rw [h₃, Except.ok.inj h]
  · rintro ⟨length, hl, h₁, h₂, ht⟩
    rw [if_neg (by omega), hl]
    simp [bind, Except.bind, h₁, h₂, ht]

theorem length_recordBody (payload : Bytes) :
    (recordBody payload).length = recordHeaderLen + payload.length := by
  simp [recordBody, recordMagic, recordHeaderLen]
  omega

theorem length_envelope (payload : Bytes) :
    (envelope blake3 payload).length = recordHeaderLen + payload.length + recordChecksumLen := by
  rw [envelope, List.length_append, length_recordBody, FixedBytes.length_toList]
  rfl

theorem drop_recordBody (payload : Bytes) : (recordBody payload).drop recordHeaderLen = payload := by
  rw [recordBody]
  exact List.drop_left' (by simp [recordMagic, recordHeaderLen])

theorem payloadLength_header {version length : Bytes} (hv : version.length = 2)
    (hl : length.length = 4) (hversion : ofBE version = recordVersion) (hpos : ofBE length ≠ 0)
    (hle : ofBE length ≤ maxTransferRecordPayloadLen) :
    payloadLength (recordMagic ++ (version ++ length)) = .ok (ofBE length) := by
  have hm : recordMagic.length = 8 := rfl
  have h₁ : (recordMagic ++ (version ++ length)).take 8 = recordMagic := List.take_left' hm
  have h₂ : ((recordMagic ++ (version ++ length)).drop 8).take 2 = version := by
    rw [List.drop_left' hm]
    exact List.take_left' hv
  have h₃ : ((recordMagic ++ (version ++ length)).drop 10).take 4 = length := by
    rw [← List.append_assoc, List.drop_left' (by simp [hm, hv]),
      List.take_of_length_le hl.le]
  unfold payloadLength
  rw [h₁, h₂, h₃, if_neg (by simp), if_neg (by simp [hversion]), if_neg (by omega), if_neg hpos]

theorem payloadLength_recordBody {payload : Bytes} (hpos : payload ≠ [])
    (hle : payload.length ≤ maxTransferRecordPayloadLen) (more : Bytes) :
    payloadLength ((recordBody payload ++ more).take recordHeaderLen) = .ok payload.length := by
  have hheader : (recordBody payload ++ more).take recordHeaderLen =
      recordMagic ++ (toBE 2 recordVersion ++ toBE 4 payload.length) := by
    unfold recordBody
    rw [List.append_assoc (recordMagic ++ _ ++ _), List.append_assoc recordMagic]
    exact List.take_left' (by simp [recordMagic, recordHeaderLen])
  have hnumber : ofBE (toBE 4 payload.length) = payload.length := by
    unfold maxTransferRecordPayloadLen at hle
    exact ofBE_toBE (by omega)
  have hzero := List.length_pos_of_ne_nil hpos
  rw [hheader, payloadLength_header (by simp) (by simp) (by decide) (by omega) (by omega), hnumber]

theorem encodePayload_ne_nil (record : TransferRecord) : encodePayload record ≠ [] := by
  intro h
  have hpos (n : ℕ) : 0 < (u32 n).length := length_varint_pos 4 n
  cases record with
  | manifest _ => simpa [(List.append_eq_nil_iff.mp h).1] using hpos 0
  | accepted _ => simpa [(List.append_eq_nil_iff.mp h).1] using hpos 1
  | terminal _ _ _ => simpa [(List.append_eq_nil_iff.mp h).1] using hpos 2

theorem decode_envelope (record : TransferRecord) :
    decodeTransferRecord blake3 (envelope blake3 (encodePayload record)) = .ok record := by
  have hbody := length_recordBody (encodePayload record)
  have htake : (envelope blake3 (encodePayload record)).take
      (recordHeaderLen + (encodePayload record).length) = recordBody (encodePayload record) := by
    rw [envelope]
    exact List.take_left' hbody
  refine (decodeTransferRecord_ok_iff blake3).mpr ⟨(encodePayload record).length, ?_,
    length_envelope blake3 _, ?_, ?_⟩
  · exact payloadLength_recordBody (encodePayload_ne_nil record) (length_encodePayload_le record) _
  · rw [htake, envelope]
    exact (List.drop_left' hbody).symm
  · rw [htake, drop_recordBody]
    simpa using takeRecord_encode record []

/-! ### Changed files -/

variable {blake3}

theorem length_eq_of_decode {a b : Bytes} {x y : TransferRecord}
    (hheader : a.take recordHeaderLen = b.take recordHeaderLen)
    (ha : decodeTransferRecord blake3 a = .ok x) (hb : decodeTransferRecord blake3 b = .ok y) :
    a.length = b.length := by
  obtain ⟨n, hn, hlen, -⟩ := (decodeTransferRecord_ok_iff blake3).mp ha
  obtain ⟨m, hm, hlen', -⟩ := (decodeTransferRecord_ok_iff blake3).mp hb
  rw [hheader, hm] at hn
  rw [hlen, hlen', Except.ok.inj hn]

theorem header_le_of_decode {a : Bytes} {x : TransferRecord}
    (ha : decodeTransferRecord blake3 a = .ok x) : recordHeaderLen ≤ a.length := by
  obtain ⟨n, -, hlen, -⟩ := (decodeTransferRecord_ok_iff blake3).mp ha
  omega

theorem eq_of_begins_decode {a b : Bytes} {x y : TransferRecord} (hab : a <+: b)
    (ha : decodeTransferRecord blake3 a = .ok x) (hb : decodeTransferRecord blake3 b = .ok y) :
    a = b := by
  have hlen := header_le_of_decode ha
  refine hab.eq_of_length (length_eq_of_decode ?_ ha hb)
  obtain ⟨more, rfl⟩ := hab
  rw [List.take_append_of_le_length hlen]

theorem checksum_of_decode {payload bytes : Bytes} {x : TransferRecord}
    (hlen : bytes.length = (envelope blake3 payload).length)
    (h : decodeTransferRecord blake3 bytes = .ok x) :
    (blake3 (bytes.take (recordBody payload).length)).toList =
      bytes.drop (recordBody payload).length := by
  obtain ⟨n, -, hn, hsum, -⟩ := (decodeTransferRecord_ok_iff blake3).mp h
  rw [length_envelope] at hlen
  have hpayload : n = payload.length := by omega
  rw [length_recordBody, ← hpayload]
  exact hsum

/-- Changing one byte of a body changes its digest. -/
def DigestChanges (blake3 : Bytes → FixedBytes 32) (body : Bytes) : Prop :=
  ∀ i v, body.set i v ≠ body → blake3 (body.set i v) ≠ blake3 body

theorem decode_changed {payload : Bytes} (hdigest : DigestChanges blake3 (recordBody payload))
    {i : ℕ} {v : UInt8} (hne : (envelope blake3 payload).set i v ≠ envelope blake3 payload)
    (x : TransferRecord) :
    decodeTransferRecord blake3 ((envelope blake3 payload).set i v) ≠ .ok x := by
  intro h
  have hsum := checksum_of_decode (List.length_set ..) h
  unfold envelope at hsum hne
  rcases set_append_cases (recordBody payload) (blake3 (recordBody payload)).toList i v with
    ⟨hi, hset⟩ | ⟨hi, hset⟩
  · have hl : ((recordBody payload).set i v).length = (recordBody payload).length :=
      List.length_set ..
    rw [hset, List.take_left' hl, List.drop_left' hl] at hsum
    refine hdigest i v (fun heq => hne ?_) (FixedBytes.toList_inj.mp hsum)
    rw [hset, heq]
  · rw [hset, List.take_left, List.drop_left] at hsum
    exact hne (by rw [hset, ← hsum])

/-! ### Bound markers -/

theorem envelope_injective {x y : TransferRecord}
    (h : envelope blake3 (encodePayload x) = envelope blake3 (encodePayload y)) : x = y := by
  have hx := decode_envelope blake3 x
  rw [h, decode_envelope blake3 y] at hx
  exact (Except.ok.inj hx).symm

theorem validateMarker_mismatch_iff {marker : TransferRecord} {manifest : TransferManifest}
    {digest : FixedBytes 32} (hb : marker.binding = some digest) :
    marker.validateMarker blake3 manifest = .error .manifestMismatch ↔
      digest ≠ manifest.digest blake3 := by
  have hrole : marker.checkRole manifest.source ≠ .error .manifestMismatch := by
    cases marker with
    | manifest _ => cases hb
    | accepted _ =>
      unfold TransferRecord.checkRole
      split_ifs <;> simp
    | terminal _ _ _ =>
      unfold TransferRecord.checkRole
      simp only [ne_eq]
      split <;> simp
  unfold TransferRecord.validateMarker
  simp only [hb, TransferManifest.recordDigest_eq, bind, Except.bind]
  split_ifs with h
  · simp [h]
  · simp only [ne_eq, not_not] at h
    simp [h, hrole]

end Digest

/-- **Transfer records are tamper evident and bind markers to one manifest.** Every record is encoded,
within its buffer, and read back; every proper prefix, every proper extension and every change of one
byte is refused, if the digest of the record changes with any byte of it; and a marker with the digest
of one manifest passes the binding check of another only if they are equal or their encodings
collide. -/
theorem records_are_tamper_evident (blake3 : Bytes → FixedBytes 32) (record : TransferRecord)
    (hdigest : DigestChanges blake3 (recordBody (encodePayload record))) (m m' : TransferManifest)
    (hpair : blake3 (envelope blake3 (encodePayload (.manifest m))) =
        blake3 (envelope blake3 (encodePayload (.manifest m'))) →
      envelope blake3 (encodePayload (.manifest m)) =
        envelope blake3 (encodePayload (.manifest m'))) :
    (∃ bytes, encodeTransferRecord blake3 record = .ok bytes ∧
      (encodePayload record).length ≤ maxTransferRecordPayloadLen ∧
      decodeTransferRecord blake3 bytes = .ok record ∧
      (∀ other, other <+: bytes ∨ bytes <+: other → other ≠ bytes → ∀ x,
        decodeTransferRecord blake3 other ≠ .ok x) ∧
      ∀ i v, bytes.set i v ≠ bytes → ∀ x, decodeTransferRecord blake3 (bytes.set i v) ≠ .ok x) ∧
    ∀ (marker : TransferRecord) (digest : FixedBytes 32), m.recordDigest blake3 = .ok digest →
      marker.binding = some digest →
      marker.validateMarker blake3 m' ≠ .error .manifestMismatch → m' = m := by
  refine ⟨⟨envelope blake3 (encodePayload record), encodeTransferRecord_ok blake3 record,
    length_encodePayload_le record, decode_envelope blake3 record, fun other hother hne x hx => ?_,
    fun i v hne => decode_changed hdigest hne⟩, fun marker digest hm hb hv => ?_⟩
  · rcases hother with hp | hp
    · exact hne (eq_of_begins_decode hp hx (decode_envelope blake3 record))
    · exact hne (eq_of_begins_decode hp (decode_envelope blake3 record) hx).symm
  · rw [TransferManifest.recordDigest_eq] at hm
    cases hm
    have heq : m.digest blake3 = m'.digest blake3 := by
      by_contra hne
      exact hv ((validateMarker_mismatch_iff hb).mpr hne)
    exact TransferRecord.manifest.inj (envelope_injective (hpair heq)).symm

/-- A digest that changes with any byte: the sum of all bytes. -/
def sumDigest (b : Bytes) : FixedBytes 32 := .replicate 32 (b.foldr (· + ·) 0)

theorem sumDigest_changes (body : Bytes) : DigestChanges sumDigest body := by
  intro i v hne h
  have hrep : List.replicate 32 ((body.set i v).foldr (· + ·) 0) =
      List.replicate 32 (body.foldr (· + ·) 0) := FixedBytes.toList_inj.mpr h
  have hsum := (List.replicate_right_inj (by decide)).mp hrep
  refine hne ?_
  clear hne h hrep
  induction body generalizing i with
  | nil => rfl
  | cons a body ih =>
    cases i with
    | zero =>
      simp only [List.set_cons_zero, List.foldr_cons] at hsum ⊢
      rw [(UInt8.add_left_inj _).mp hsum]
    | succ i =>
      simp only [List.set_cons_succ, List.foldr_cons] at hsum ⊢
      rw [ih i ((UInt8.add_right_inj _).mp hsum)]

/-- The manifest of an incoming transfer with this identifier. -/
def sampleManifest (b : UInt8) : TransferManifest :=
  ⟨.replicate 16 b, .repeated 1, ⟨⟨"m", by decide⟩, 2, .replicate 32 0, by decide⟩, .incoming⟩

/-- The acceptance of one transfer is read back, but not with another byte behind it, and it is not
taken for that of another transfer. -/
theorem accepted_marker_is_tamper_evident :
    let marker : TransferRecord := .accepted ((sampleManifest 1).digest sumDigest)
    (∃ bytes, encodeTransferRecord sumDigest marker = .ok bytes ∧
      decodeTransferRecord sumDigest bytes = .ok marker ∧
      ∀ x, decodeTransferRecord sumDigest (bytes ++ [0]) ≠ .ok x) ∧
    marker.validateMarker sumDigest (sampleManifest 2) = .error .manifestMismatch := by
  intro marker
  have hdigests : (sampleManifest 1).digest sumDigest ≠ (sampleManifest 2).digest sumDigest := by
    decide +kernel
  obtain ⟨⟨bytes, hencode, -, hdecode, hother, -⟩, hbound⟩ :=
    records_are_tamper_evident sumDigest marker (sumDigest_changes _) (sampleManifest 1)
      (sampleManifest 2) fun heq => absurd heq hdigests
  refine ⟨⟨bytes, hencode, hdecode, hother _ (Or.inr (List.prefix_append _ _)) (by simp)⟩, ?_⟩
  by_contra hpasses
  have heq := hbound marker _ (TransferManifest.recordDigest_eq ..) rfl hpasses
  exact absurd heq (by decide +kernel)

end Rift.Transfer
