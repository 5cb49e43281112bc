import Rift.Core
import Rift.Lib.Directory

/-! # The identity envelope

The file that keeps the secret key of a device: a magic, a version, the key and a checksum of these,
on a fixed number of bytes. What does not have this form is rejected, never repaired.

The main results are `decode_encode`, `encode_of_decode` and `identity_envelope_is_canonical`. -/

namespace Rift.Identity

open Rift.Lib Rift.Core

/-- `RIFTIDEN`. -/
def identityMagic : Bytes := [82, 73, 70, 84, 73, 68, 69, 78]

/-- The length of a secret key. -/
def secretKeyLen : ℕ := 32

/-- The length of the checksum. -/
def checksumLen : ℕ := 32

/-- The length of what the checksum covers. -/
def prefixLen : ℕ := identityMagic.length + 2 + secretKeyLen

/-- The version of the envelope. -/
def identityFormatVersion : ℕ := 1

/-- The exact length of an envelope. -/
def identityFileLen : ℕ := prefixLen + checksumLen

/-- Why an identity cannot be loaded or created. -/
inductive IdentityError
  /-- A file system operation failed. -/
  | io (operation : String) (source : FileErrorKind)
  | notRegularFile
  | truncatedIdentity (actual expected : ℕ)
  | trailingData (actual expected : ℕ)
  | invalidMagic
  | unsupportedVersion (version : ℕ)
  | checksumMismatch
  | insecurePermissions (actual : ℕ)
  | missingFileName
  deriving DecidableEq

/-- The secret keys of the endpoint: they are what their bytes are. -/
structure KeyScheme (Key : Type) where
  toBytes : Key → FixedBytes secretKeyLen
  fromBytes : FixedBytes secretKeyLen → Key
  publicKey : Key → FixedBytes deviceIdLen
  fromBytes_toBytes : ∀ key, fromBytes (toBytes key) = key
  toBytes_fromBytes : ∀ bytes, toBytes (fromBytes bytes) = bytes

/-- One persistent identity. -/
structure StoredIdentity (Key : Type) where
  secretKey : Key
  deviceId : DeviceId
  deriving DecidableEq

section Codec

variable {Key : Type} (blake3 : Bytes → FixedBytes checksumLen) (keys : KeyScheme Key)

/-- The envelope of a key. -/
def encode (secretKey : Key) : Bytes :=
  let body := identityMagic ++ toBE 2 identityFormatVersion ++ (keys.toBytes secretKey).toList
  body ++ (blake3 body).toList

/-- Looks at every byte, whatever the first difference. -/
def constantTimeEqual (left right : Bytes) : Bool :=
  if left.length ≠ right.length then false
  else (left.zip right).foldl (fun difference pair => difference ||| (pair.1 ^^^ pair.2)) 0 = 0

/-- The key in an envelope, after every check. -/
def decode (bytes : Bytes) : Except IdentityError (StoredIdentity Key) :=
  if bytes.length < identityFileLen then
    .error (.truncatedIdentity bytes.length identityFileLen)
  else if identityFileLen < bytes.length then .error (.trailingData bytes.length identityFileLen)
  else if bytes.take identityMagic.length ≠ identityMagic then .error .invalidMagic
  else
    let version := ofBE ((bytes.drop identityMagic.length).take 2)
    if version ≠ identityFormatVersion then .error (.unsupportedVersion version)
    else if !constantTimeEqual (bytes.drop prefixLen) (blake3 (bytes.take prefixLen)).toList then
      .error .checksumMismatch
    else
      match FixedBytes.ofBytes? secretKeyLen
        ((bytes.take prefixLen).drop (identityMagic.length + 2)) with
      | none => .error (.truncatedIdentity bytes.length identityFileLen)
      | some secretBytes =>
        let secretKey := keys.fromBytes secretBytes
        .ok ⟨secretKey, ⟨keys.publicKey secretKey⟩⟩

theorem foldl_difference (pairs : List (UInt8 × UInt8)) (difference : UInt8) :
    pairs.foldl (fun difference pair => difference ||| (pair.1 ^^^ pair.2)) difference = 0 ↔
      difference = 0 ∧ ∀ pair ∈ pairs, pair.1 = pair.2 := by
  induction pairs generalizing difference with
  | nil => simp
  | cons pair pairs ih =>
    rw [List.foldl_cons, ih, UInt8.or_eq_zero_iff, UInt8.xor_eq_zero_iff, List.forall_mem_cons,
      and_assoc]

theorem constantTimeEqual_iff {left right : Bytes} :
    constantTimeEqual left right = true ↔ left = right := by
  unfold constantTimeEqual
  by_cases hlen : left.length = right.length
  · rw [if_neg (not_not.mpr hlen), decide_eq_true_iff, foldl_difference]
    constructor
    · rintro ⟨-, h⟩
      refine List.ext_getElem hlen fun i h₁ h₂ => ?_
      have hi : i < (left.zip right).length := by simp [h₁, h₂]
      have := h _ (List.getElem_mem hi)
      rwa [List.getElem_zip] at this
    · rintro rfl
      refine ⟨rfl, fun pair hp => ?_⟩
      rw [List.zip_eq_zipWith, List.zipWith_self] at hp
      obtain ⟨b, -, rfl⟩ := List.mem_map.mp hp
      rfl
  · rw [if_pos hlen]
    exact ⟨nofun, fun h => absurd (congrArg List.length h) hlen⟩

@[simp] theorem length_encode (secretKey : Key) :
    (encode blake3 keys secretKey).length = identityFileLen := by
  simp [encode, identityFileLen, prefixLen, Nat.add_assoc]

/-- **Decoding reads what encoding wrote.** -/
theorem decode_encode (secretKey : Key) :
    decode blake3 keys (encode blake3 keys secretKey) =
      .ok ⟨secretKey, ⟨keys.publicKey secretKey⟩⟩ := by
  have hlen := length_encode blake3 keys secretKey
  obtain ⟨bytes, hbytes⟩ : ∃ bytes, bytes = encode blake3 keys secretKey := ⟨_, rfl⟩
  obtain ⟨body, hbody⟩ : ∃ body, body =
    identityMagic ++ toBE 2 identityFormatVersion ++ (keys.toBytes secretKey).toList := ⟨_, rfl⟩
  have hsplit : bytes = body ++ (blake3 body).toList := by rw [hbytes, hbody]; rfl
  have hprefix : body.length = prefixLen := by rw [hbody]; simp [prefixLen, Nat.add_assoc]
  have htake : bytes.take prefixLen = body := by
    rw [hsplit, ← hprefix, List.take_left]
  have hdrop : bytes.drop prefixLen = (blake3 body).toList := by
    rw [hsplit, ← hprefix, List.drop_left]
  have hkey : (bytes.take prefixLen).drop (identityMagic.length + 2) =
      (keys.toBytes secretKey).toList := by
    rw [htake, hbody]
    exact List.drop_left' (by simp)
  have hmagic : bytes.take identityMagic.length = identityMagic := by
    rw [hsplit, hbody, List.append_assoc, List.append_assoc, List.take_left]
  have hversion : (bytes.drop identityMagic.length).take 2 = toBE 2 identityFormatVersion := by
    rw [hsplit, hbody, List.append_assoc, List.append_assoc, List.drop_left]
    exact List.take_left' (by simp)
  rw [← hbytes] at hlen ⊢
  unfold decode
  have hnumber : ofBE (toBE 2 identityFormatVersion) = identityFormatVersion :=
    ofBE_toBE (by decide)
  have hsum : constantTimeEqual (blake3 body).toList (blake3 body).toList = true :=
    constantTimeEqual_iff.mpr rfl
  have hbytes : FixedBytes.ofBytes? secretKeyLen (keys.toBytes secretKey).toList =
      some (keys.toBytes secretKey) := by
    simpa using FixedBytes.ofBytes?_append (keys.toBytes secretKey) []
  rw [if_neg (by omega), if_neg (by omega), if_neg (by rw [hmagic]; simp), hversion, hdrop, hkey,
    htake, hbytes, hsum, hnumber]
  simp [keys.fromBytes_toBytes]

/-- The key bytes of an envelope. -/
def keyBytes (bytes : Bytes) : Bytes := (bytes.take prefixLen).drop (identityMagic.length + 2)

theorem keyBytes_encode (secretKey : Key) :
    keyBytes (encode blake3 keys secretKey) = (keys.toBytes secretKey).toList := by
  unfold keyBytes encode
  rw [List.take_left' (by simp [prefixLen, Nat.add_assoc])]
  exact List.drop_left' (by simp)

variable {blake3 keys}

theorem decode_ok {bytes : Bytes} {stored : StoredIdentity Key}
    (h : decode blake3 keys bytes = .ok stored) :
    bytes.length = identityFileLen ∧ bytes.take identityMagic.length = identityMagic ∧
      ofBE ((bytes.drop identityMagic.length).take 2) = identityFormatVersion ∧
      bytes.drop prefixLen = (blake3 (bytes.take prefixLen)).toList ∧
      (keys.toBytes stored.secretKey).toList = keyBytes bytes ∧
      stored.deviceId = ⟨keys.publicKey stored.secretKey⟩ := by
  unfold decode at h
  simp only at h
  split_ifs at h with hshort hlong hmagic hversion hsum
  have hlen : bytes.length = identityFileLen := by omega
  have hchecksum : bytes.drop prefixLen = (blake3 (bytes.take prefixLen)).toList :=
    constantTimeEqual_iff.mp (by simpa using hsum)
  have hkey : (keyBytes bytes).take secretKeyLen = keyBytes bytes := by
    refine List.take_of_length_le ?_
    simp only [keyBytes, List.length_drop, List.length_take, hlen]
    decide
  split at h
  · cases h
  · next secretBytes hsecret =>
    cases h
    refine ⟨hlen, not_not.mp hmagic, not_not.mp hversion, hchecksum, ?_, rfl⟩
    rw [keys.toBytes_fromBytes]
    unfold FixedBytes.ofBytes? at hsecret
    split_ifs at hsecret
    rw [← Option.some.inj hsecret]
    exact hkey

/-- **What decodes is what encoding wrote.** -/
theorem encode_of_decode {bytes : Bytes} {stored : StoredIdentity Key}
    (h : decode blake3 keys bytes = .ok stored) : encode blake3 keys stored.secretKey = bytes := by
  obtain ⟨hlen, hmagic, hversion, hchecksum, hkey, -⟩ := decode_ok h
  have htwo : ((bytes.drop identityMagic.length).take 2).length = 2 := by
    simp only [List.length_take, List.length_drop, hlen]
    decide
  have hnumber : toBE 2 identityFormatVersion = (bytes.drop identityMagic.length).take 2 := by
    rw [← hversion]
    exact (congrArg (toBE · _) htwo.symm).trans (toBE_ofBE _)
  -- The first ten bytes and the key bytes are the checked prefix.
  have hbody : identityMagic ++ toBE 2 identityFormatVersion ++
      (keys.toBytes stored.secretKey).toList = bytes.take prefixLen := by
    have hhead : identityMagic ++ toBE 2 identityFormatVersion =
        bytes.take (identityMagic.length + 2) := by
      rw [hnumber, List.take_add, hmagic]
    have hle : identityMagic.length + 2 ≤ prefixLen := by decide
    rw [hhead, hkey, keyBytes, ← Nat.min_eq_left hle, ← List.take_take, Nat.min_eq_left hle,
      List.take_append_drop]
  simp only [encode]
  rw [hbody, ← hchecksum, List.take_append_drop]

variable (blake3 keys)

/-- **The identity envelope has exactly one encoding per key.** Encoding and decoding are inverse to
each other, so whatever is not the envelope of a key is rejected: a truncated or extended envelope,
one that differs from that of a key but not in the key, and one whose last bytes are not the checksum
of those before them. -/
theorem identity_envelope_is_canonical :
    (∀ key, decode blake3 keys (encode blake3 keys key) = .ok ⟨key, ⟨keys.publicKey key⟩⟩) ∧
    (∀ bytes stored, decode blake3 keys bytes = .ok stored →
      bytes = encode blake3 keys stored.secretKey) ∧
    (∀ key n, n < identityFileLen →
      ∃ e, decode blake3 keys ((encode blake3 keys key).take n) = .error e) ∧
    (∀ key extra, extra ≠ [] → ∃ e, decode blake3 keys (encode blake3 keys key ++ extra) = .error e) ∧
    (∀ key bytes, bytes ≠ encode blake3 keys key →
      keyBytes bytes = keyBytes (encode blake3 keys key) →
      ∃ e, decode blake3 keys bytes = .error e) ∧
    (∀ bytes, bytes.drop prefixLen ≠ (blake3 (bytes.take prefixLen)).toList →
      ∃ e, decode blake3 keys bytes = .error e) ∧
    ∀ left right, constantTimeEqual left right = true ↔ left = right := by
  have hrejected (bytes : Bytes) (h : ∀ stored, decode blake3 keys bytes ≠ .ok stored) :
      ∃ e, decode blake3 keys bytes = .error e := by
    cases hd : decode blake3 keys bytes with
    | error e => exact ⟨e, rfl⟩
    | ok stored => exact absurd hd (h stored)
  refine ⟨decode_encode blake3 keys, fun bytes stored h => (encode_of_decode h).symm,
    fun key n hn => hrejected _ fun stored h => ?_, fun key extra hne => hrejected _ fun stored h => ?_,
    fun key bytes hne hkeys => hrejected _ fun stored h => ?_,
    fun bytes hsum => hrejected _ fun stored h => ?_, fun _ _ => constantTimeEqual_iff⟩
  · have hlen := (decode_ok h).1
    rw [List.length_take, length_encode] at hlen
    omega
  · have hlen := (decode_ok h).1
    rw [List.length_append, length_encode] at hlen
    exact hne (List.eq_nil_of_length_eq_zero (by omega))
  · obtain ⟨-, -, -, -, hkey, -⟩ := decode_ok h
    rw [hkeys, keyBytes_encode, FixedBytes.toList_inj] at hkey
    have hsame : stored.secretKey = key := by
      rw [← keys.fromBytes_toBytes stored.secretKey, hkey, keys.fromBytes_toBytes]
    rw [← encode_of_decode h, hsame] at hne
    exact hne rfl
  · obtain ⟨-, -, -, hchecksum, -⟩ := decode_ok h
    exact hsum hchecksum

end Codec

end Rift.Identity
