import Rift.Lib.Framing
import Rift.Protocol.Messages
import Rift.Protocol.Wire

/-! # Control messages on the wire

How a control message is written as a Postcard payload behind its length, and how a complete frame is
read back. Texts and lists of a Hello are checked against their bounds while they are read, so what
decodes is within them whatever the bytes were.

The main results are `takeControl_encode`, `takeControl_yields` and
`control_messages_round_trip`. -/

namespace Rift.Protocol

open Rift.Lib Rift.Lib.Postcard Rift.Lib.Framing Rift.Core

/-! ### Bounds -/

/-- The maximum encoded control payload, without the frame prefix. -/
def maxControlFrameLen : ℕ := 1024 * 1024

/-- The maximum number of capabilities in a Hello. -/
def maxCapabilities : ℕ := 64

/-- The texts of a hello. -/
inductive MetadataField
  | deviceName
  | platform
  deriving DecidableEq

/-- Failures of the bounds of a Hello. -/
inductive MetadataError
  | invalidMetadata (field : MetadataField) (actual maximum : ℕ)
  | tooManyCapabilities (actual maximum : ℕ)
  deriving DecidableEq

/-- The bounds on what a hello says. -/
def validateMetadata (deviceName platform : String) (capabilities : List Capability) :
    Except MetadataError Unit :=
  if maxDeviceNameLen < deviceName.utf8ByteSize then
    .error (.invalidMetadata .deviceName deviceName.utf8ByteSize maxDeviceNameLen)
  else if maxPlatformLen < platform.utf8ByteSize then
    .error (.invalidMetadata .platform platform.utf8ByteSize maxPlatformLen)
  else if maxCapabilities < capabilities.length then
    .error (.tooManyCapabilities capabilities.length maxCapabilities)
  else .ok ()

/-- Validates only the semantic metadata bounds of a Hello. -/
def validateHelloMetadata (hello : Hello) : Except MetadataError Unit :=
  validateMetadata hello.deviceName hello.platform hello.capabilities

/-- A message is within the bounds that the constructors of its parts check. -/
def ControlMessage.Bounded : ControlMessage → Prop
  | .hello h => h.deviceName.utf8ByteSize ≤ maxDeviceNameLen ∧
      h.platform.utf8ByteSize ≤ maxPlatformLen ∧ h.capabilities.length ≤ maxCapabilities
  | .transferOffer _ metadata =>
    TransferFileName.new metadata.fileName.value = .ok metadata.fileName ∧
      metadata.byteLen ≤ maxTransferBytes
  | _ => True

/-! ### Encodings -/

def encodeCapability (capability : Capability) : Bytes := u16 capability.value.toNat

/-- Capabilities on the wire. -/
def encodeCapabilities (capabilities : List Capability) : Bytes :=
  usize capabilities.length ++ capabilities.flatMap encodeCapability

/-- A hello on the wire. -/
def encodeHello (hello : Hello) : Bytes :=
  u16 hello.protocolVersion.toNat ++ (hello.deviceId.bytes.toList ++ (str hello.deviceName ++
    (str hello.platform ++ encodeCapabilities hello.capabilities)))

/-- A purpose on the wire. -/
def encodePurpose : ConnectionPurpose → Bytes
  | .authorizedSession => u32 0
  | .pairing => u32 1

/-- A control message as Postcard writes it: the index of the variant, then its fields. -/
def encodeControl : ControlMessage → Bytes
  | .hello hello => u32 0 ++ encodeHello hello
  | .ping nonce => u32 1 ++ u64 nonce.toNat
  | .pong nonce => u32 2 ++ u64 nonce.toNat
  | .pairingRequest pairingId commitment =>
    u32 3 ++ (pairingId.toList ++ commitment.bytes.toList)
  | .pairingResponse pairingId commitment =>
    u32 4 ++ (pairingId.toList ++ commitment.bytes.toList)
  | .pairingDecision pairingId accepted => u32 5 ++ (pairingId.toList ++ boolean accepted)
  | .pairingComplete pairingId => u32 6 ++ pairingId.toList
  | .pairingReveal pairingId nonce => u32 7 ++ (pairingId.toList ++ nonce.toList)
  | .connectionIntent purpose => u32 8 ++ encodePurpose purpose
  | .connectionIntentResult accepted => u32 9 ++ boolean accepted
  | .transferOffer transferId metadata => u32 10 ++ (transferId.toList ++ encodeMetadata metadata)
  | .transferAccept transferId offset => u32 11 ++ (transferId.toList ++ u64 offset.toNat)
  | .transferTerminal transferId status => u32 12 ++ (transferId.toList ++ encodeStatus status)
  | .transferTerminalAck transferId => u32 13 ++ transferId.toList

/-! ### Decodings -/

/-- Takes a text of at most `maximum` bytes; a longer one is refused. -/
def takeBoundedStr (maximum : ℕ) : Take String := do
  let value ← takeStr
  if maximum < value.utf8ByteSize then failure else pure value

def takeShort : Take UInt16 := return UInt16.ofNat (← takeU16)

def takeWord : Take UInt64 := return UInt64.ofNat (← takeU64)

def takeCapability : Take Capability := return ⟨← takeShort⟩

/-- What a sequence of the length lets its visitor expect: nothing, if fewer bytes remain than there
should be elements. -/
def sizeHint (length : ℕ) : Take (Option ℕ) := do
  return if (← get).length < length then none else some length

/-- The elements that are left, behind those already taken. -/
def takeCapabilitiesLoop : ℕ → List Capability → Take (List Capability)
  | 0, capabilities => pure capabilities
  | left + 1, capabilities => do
    let capability ← takeCapability
    if capabilities.length = maxCapabilities then failure
    else takeCapabilitiesLoop left (capabilities ++ [capability])

/-- Reads capabilities, of which there may not be too many. -/
def takeCapabilities : Take (List Capability) := do
  let length ← takeUsize
  match ← sizeHint length with
  | some hint => if maxCapabilities < hint then failure else takeCapabilitiesLoop length []
  | none => takeCapabilitiesLoop length []

/-- Reads a hello. -/
def takeHello : Take Hello := do
  let protocolVersion ← takeShort
  let deviceId ← takeFixed deviceIdLen
  let deviceName ← takeBoundedStr maxDeviceNameLen
  let platform ← takeBoundedStr maxPlatformLen
  let capabilities ← takeCapabilities
  return ⟨protocolVersion, ⟨deviceId⟩, deviceName, platform, capabilities⟩

/-- Reads a purpose. -/
def takePurpose : Take ConnectionPurpose := do
  match ← takeU32 with
  | 0 => pure .authorizedSession
  | 1 => pure .pairing
  | _ => failure

def takeCommitment : Take PairingCommitment := return ⟨← takeFixed pairingCommitmentLen⟩

/-- Reads a message. -/
def takeControl : Take ControlMessage := do
  match ← takeU32 with
  | 0 => return .hello (← takeHello)
  | 1 => return .ping (← takeWord)
  | 2 => return .pong (← takeWord)
  | 3 => return .pairingRequest (← takeFixed pairingIdLen) (← takeCommitment)
  | 4 => return .pairingResponse (← takeFixed pairingIdLen) (← takeCommitment)
  | 5 => return .pairingDecision (← takeFixed pairingIdLen) (← takeBool)
  | 6 => return .pairingComplete (← takeFixed pairingIdLen)
  | 7 => return .pairingReveal (← takeFixed pairingIdLen) (← takeFixed pairingNonceLen)
  | 8 => return .connectionIntent (← takePurpose)
  | 9 => return .connectionIntentResult (← takeBool)
  | 10 => return .transferOffer (← takeFixed 16) (← takeMetadata)
  | 11 => return .transferAccept (← takeFixed 16) (← takeWord)
  | 12 => return .transferTerminal (← takeFixed 16) (← takeStatus)
  | 13 => return .transferTerminalAck (← takeFixed 16)
  | _ => failure

/-! ### What decodes is bounded -/

theorem takeBoundedStr_yields (maximum : ℕ) :
    Yields (takeBoundedStr maximum) fun s => s.utf8ByteSize ≤ maximum := by
  refine Yields.after fun s => ?_
  split_ifs with h
  · exact Yields.failure
  · exact Yields.pure (Nat.le_of_not_lt h)

theorem takeCapabilitiesLoop_yields : ∀ (left : ℕ) {capabilities : List Capability},
    capabilities.length ≤ maxCapabilities →
      Yields (takeCapabilitiesLoop left capabilities) fun l => l.length ≤ maxCapabilities
  | 0, _, h => Yields.pure h
  | left + 1, capabilities, h => by
    refine Yields.after fun capability => ?_
    split_ifs with hfull
    · exact Yields.failure
    · refine takeCapabilitiesLoop_yields left ?_
      rw [List.length_append, List.length_singleton]
      omega

theorem takeCapabilities_yields : Yields takeCapabilities fun l => l.length ≤ maxCapabilities := by
  refine Yields.after fun length => Yields.after fun hint => ?_
  rcases hint with _ | hint
  · exact takeCapabilitiesLoop_yields length (Nat.zero_le _)
  · dsimp only
    split_ifs
    · exact Yields.failure
    · exact takeCapabilitiesLoop_yields length (Nat.zero_le _)

theorem takeHello_yields : Yields takeHello fun h => (ControlMessage.hello h).Bounded :=
  Yields.after fun _ => Yields.after fun _ =>
    (takeBoundedStr_yields maxDeviceNameLen).bind fun _ hname =>
      (takeBoundedStr_yields maxPlatformLen).bind fun _ hplatform =>
        takeCapabilities_yields.bind fun _ hcapabilities => Yields.pure ⟨hname, hplatform, hcapabilities⟩

theorem takeControl_yields : Yields takeControl ControlMessage.Bounded := by
  refine Yields.after fun n => ?_
  split
  case h_1 => exact takeHello_yields.bind fun _ h => Yields.pure h
  case h_11 =>
    exact Yields.after fun _ => Yields.after fun metadata =>
      Yields.pure ⟨metadata.fileName.new_value, metadata.byteLen_le⟩
  case h_15 => exact Yields.failure
  all_goals
    first
    | exact Yields.after fun _ => Yields.pure trivial
    | exact Yields.after fun _ => Yields.after fun _ => Yields.pure trivial

/-! ### Round trips -/

theorem takeBoundedStr_str {s : String} {maximum : ℕ} (h : s.utf8ByteSize ≤ maximum)
    (hmax : maximum < 2 ^ 64) : RoundTrip (takeBoundedStr maximum) (str s) s := by
  refine (takeStr_str (by omega)).ending ?_
  rw [if_neg (by omega)]
  exact .pure s

theorem takeShort_u16 (short : UInt16) : RoundTrip takeShort (u16 short.toNat) short := by
  have h := (takeU16_u16 short.toNat_lt).map UInt16.ofNat
  rwa [UInt16.ofNat_toNat] at h

theorem takeWord_u64 (word : UInt64) : RoundTrip takeWord (u64 word.toNat) word := by
  have h := (takeU64_u64 word.toNat_lt).map UInt64.ofNat
  rwa [UInt64.ofNat_toNat] at h

theorem takeCapability_encode (capability : Capability) :
    RoundTrip takeCapability (encodeCapability capability) capability :=
  (takeShort_u16 capability.value).map _

theorem takeCapabilitiesLoop_encode : ∀ (rest taken : List Capability),
    taken.length + rest.length ≤ maxCapabilities →
      RoundTrip (takeCapabilitiesLoop rest.length taken) (rest.flatMap encodeCapability)
      (taken ++ rest)
  | [], taken, _ => by
    rw [List.append_nil]
    exact .pure taken
  | capability :: rest, taken, h => by
    rw [List.length_cons] at h
    refine (takeCapability_encode capability).bind ?_
    rw [if_neg (by omega)]
    have ih := takeCapabilitiesLoop_encode rest (taken ++ [capability])
      (by rw [List.length_append, List.length_singleton]; omega)
    rwa [List.append_assoc] at ih

theorem length_flatMap_encodeCapability (l : List Capability) :
    l.length ≤ (l.flatMap encodeCapability).length ∧
      (l.flatMap encodeCapability).length ≤ 3 * l.length := by
  induction l with
  | nil => simp
  | cons capability l ih =>
    have hpos : 0 < (encodeCapability capability).length := length_varint_pos 2 _
    have hle : (encodeCapability capability).length ≤ 3 := length_varint_le 3 _
    rw [List.flatMap_cons, List.length_append, List.length_cons]
    omega

theorem takeCapabilities_encode {l : List Capability} (h : l.length ≤ maxCapabilities) :
    RoundTrip takeCapabilities (encodeCapabilities l) l := by
  have hlt : l.length < 2 ^ 64 := by unfold maxCapabilities at h; omega
  refine (takeUsize_usize hlt).bind fun r => bind_eq_some.mpr ?_
  -- Each element takes at least a byte, so the visitor is told how many to expect.
  have hhint : sizeHint l.length (l.flatMap encodeCapability ++ r) =
      some (some l.length, l.flatMap encodeCapability ++ r) := by
    have hle := (length_flatMap_encodeCapability l).1
    change some (if (l.flatMap encodeCapability ++ r).length < l.length then none
      else some l.length, _) = _
    rw [if_neg (by rw [List.length_append]; omega)]
  refine ⟨_, _, hhint, ?_⟩
  dsimp only
  rw [if_neg (by omega)]
  exact takeCapabilitiesLoop_encode l [] (by simpa using h) r

theorem takeCommitment_append (commitment : PairingCommitment) :
    RoundTrip takeCommitment commitment.bytes.toList commitment :=
  (takeFixed_append commitment.bytes).map _

theorem takePurpose_encode (purpose : ConnectionPurpose) :
    RoundTrip takePurpose (encodePurpose purpose) purpose := by
  cases purpose
  · exact (takeU32_u32 (by norm_num)).ending (.pure _)
  · exact (takeU32_u32 (by norm_num)).ending (.pure _)

theorem takeHello_encode {hello : Hello} (h : (ControlMessage.hello hello).Bounded) :
    RoundTrip takeHello (encodeHello hello) hello := by
  obtain ⟨hname, hplatform, hcapabilities⟩ := h
  exact (takeShort_u16 hello.protocolVersion).bind
    ((takeFixed_append hello.deviceId.bytes).bind
      ((takeBoundedStr_str hname (by decide)).bind
        ((takeBoundedStr_str hplatform (by decide)).bind
          ((takeCapabilities_encode hcapabilities).map _))))

theorem takeControl_encode {message : ControlMessage} (h : message.Bounded) :
    RoundTrip takeControl (encodeControl message) message := by
  have tag {n : ℕ} (hn : n < 14) : RoundTrip takeU32 (u32 n) n := takeU32_u32 (by omega)
  cases message with
  | hello hello => exact (tag (by decide)).bind ((takeHello_encode h).map _)
  | ping nonce => exact (tag (by decide)).bind ((takeWord_u64 nonce).map _)
  | pong nonce => exact (tag (by decide)).bind ((takeWord_u64 nonce).map _)
  | pairingRequest id commitment =>
    exact (tag (by decide)).bind ((takeFixed_append id).bind
      ((takeCommitment_append commitment).map _))
  | pairingResponse id commitment =>
    exact (tag (by decide)).bind ((takeFixed_append id).bind
      ((takeCommitment_append commitment).map _))
  | pairingDecision id accepted =>
    exact (tag (by decide)).bind ((takeFixed_append id).bind ((takeBool_boolean accepted).map _))
  | pairingComplete id => exact (tag (by decide)).bind ((takeFixed_append id).map _)
  | pairingReveal id nonce =>
    exact (tag (by decide)).bind ((takeFixed_append id).bind ((takeFixed_append nonce).map _))
  | connectionIntent purpose => exact (tag (by decide)).bind ((takePurpose_encode purpose).map _)
  | connectionIntentResult accepted => exact (tag (by decide)).bind ((takeBool_boolean accepted).map _)
  | transferOffer id metadata =>
    exact (tag (by decide)).bind ((takeFixed_append id).bind
      ((takeMetadata_encode metadata).map _))
  | transferAccept id offset =>
    exact (tag (by decide)).bind ((takeFixed_append id).bind ((takeWord_u64 offset).map _))
  | transferTerminal id status =>
    exact (tag (by decide)).bind ((takeFixed_append id).bind ((takeStatus_encode status).map _))
  | transferTerminalAck id => exact (tag (by decide)).bind ((takeFixed_append id).map _)

/-! ### Lengths -/

theorem length_encodeMetadata_le (metadata : TransferMetadata) :
    (encodeMetadata metadata).length ≤ 10 + maxTransferFileNameLen + 42 := by
  have h₁ := length_str_le metadata.fileName.value
  have h₂ := length_fileName_le metadata.fileName
  have h₃ := length_varint_le 10 metadata.byteLen
  simp only [encodeMetadata, u64, List.length_append, FixedBytes.length_toList]
  omega

theorem length_encodeHello_le {hello : Hello} (h : (ControlMessage.hello hello).Bounded) :
    (encodeHello hello).length ≤
      3 + deviceIdLen + (10 + maxDeviceNameLen) + (10 + maxPlatformLen) +
        (10 + 3 * maxCapabilities) := by
  obtain ⟨hname, hplatform, hcapabilities⟩ := h
  have h₁ := length_varint_le 3 hello.protocolVersion.toNat
  have h₂ := length_str_le hello.deviceName
  have h₃ := length_str_le hello.platform
  have h₄ := length_varint_le 10 hello.capabilities.length
  have h₅ := (length_flatMap_encodeCapability hello.capabilities).2
  simp only [encodeHello, encodeCapabilities, u16, usize, List.length_append,
    FixedBytes.length_toList]
  omega

theorem length_encodeControl_le {message : ControlMessage} (h : message.Bounded) :
    (encodeControl message).length ≤ maxControlFrameLen := by
  have htag (n : ℕ) : (u32 n).length ≤ 5 := length_u32_le n
  have hword (n : ℕ) : (u64 n).length ≤ 10 := length_varint_le 10 n
  unfold maxControlFrameLen
  cases message with
  | hello hello =>
    have := length_encodeHello_le h
    have := htag 0
    simp only [deviceIdLen, maxDeviceNameLen, maxPlatformLen, maxCapabilities] at *
    simp only [encodeControl, List.length_append]
    omega
  | transferOffer id metadata =>
    have := length_encodeMetadata_le metadata
    have := htag 10
    simp only [maxTransferFileNameLen] at *
    simp only [encodeControl, List.length_append, FixedBytes.length_toList]
    omega
  | transferTerminal id status =>
    have := length_encodeStatus_le status
    have := htag 12
    simp only [encodeControl, List.length_append, FixedBytes.length_toList]
    omega
  | connectionIntent purpose =>
    have := htag 8
    have : (encodePurpose purpose).length ≤ 5 := by cases purpose <;> exact htag _
    simp only [encodeControl, List.length_append]
    omega
  -- The others are words, booleans and arrays behind their tag.
  | ping _ | pong _ | pairingRequest _ _ | pairingResponse _ _ | pairingDecision _ _
  | pairingComplete _ | pairingReveal _ _ | connectionIntentResult _ | transferAccept _ _
  | transferTerminalAck _ =>
    simp only [encodeControl, List.length_append, FixedBytes.length_toList, length_boolean,
      pairingIdLen, pairingNonceLen, pairingCommitmentLen]
    grind

/-! ### Frames -/

/-- Failures of bounded framing. What Postcard and the platform say is left out. -/
inductive FrameError
  | encode
  | decode
  | truncatedLengthPrefix
  | truncatedPayload
  | frameTooLarge (actual maximum : ℕ)
  | payloadLengthMismatch (declared actual : ℕ)
  | trailingPayload (remaining : ℕ)
  | write
  deriving DecidableEq

/-- Refuses a payload that is too long for a frame. -/
def ensureFrameSize (length : ℕ) : Except FrameError Unit :=
  if maxControlFrameLen < length then .error (.frameTooLarge length maxControlFrameLen) else .ok ()

/-- The length that a frame prefix declares. -/
def declaredLength (lengthBytes : Bytes) : ℕ := ofBE lengthBytes

section Frame

variable {α : Type} (encode : α → Bytes) (take : Take α)

/-- Encodes a value behind its length. -/
def encodeFrame (value : α) : Except FrameError Bytes := do
  ensureFrameSize (encode value).length
  return frameBytes (encode value)

/-- The value in a payload, which has to fill it. -/
def decodePayload (payload : Bytes) : Except FrameError α :=
  match take payload with
  | none => .error .decode
  | some (value, remaining) =>
    if remaining = [] then .ok value else .error (.trailingPayload remaining.length)

/-- Decodes a complete in-memory frame. -/
def decodeFrame (frame : Bytes) : Except FrameError α :=
  if frame.length < lengthLen then .error .truncatedLengthPrefix
  else do
    let declared := declaredLength (frame.take lengthLen)
    ensureFrameSize declared
    let payload := frame.drop lengthLen
    if declared ≠ payload.length then .error (.payloadLengthMismatch declared payload.length)
    else decodePayload take payload

variable {encode take}

theorem decodePayload_ok_iff {payload : Bytes} {value : α} :
    decodePayload take payload = .ok value ↔ take payload = some (value, []) := by
  unfold decodePayload
  rcases take payload with _ | ⟨v, remaining⟩
  · simp
  · simp only [Option.some.injEq, Prod.mk.injEq]
    split_ifs with h
    · simp [h]
    · simp [h]

theorem decodeFrame_ok_iff {frame : Bytes} {value : α} :
    decodeFrame take frame = .ok value ↔
      declaredLength (frame.take lengthLen) ≤ maxControlFrameLen ∧
        frame.length = lengthLen + declaredLength (frame.take lengthLen) ∧
        take (frame.drop lengthLen) = some (value, []) := by
  unfold decodeFrame ensureFrameSize
  by_cases h₁ : frame.length < lengthLen
  · simp only [h₁, if_true, reduceCtorEq, false_iff]
    omega
  · by_cases h₂ : maxControlFrameLen < declaredLength (frame.take lengthLen)
    · simp only [h₁, h₂, if_true, if_false, bind, Except.bind, reduceCtorEq, false_iff]
      omega
    · simp only [h₁, h₂, if_false, bind, Except.bind, List.length_drop]
      split_ifs with h₃
      · simp only [false_iff]
        omega
      · rw [decodePayload_ok_iff]
        exact ⟨fun h => ⟨by omega, by omega, h⟩, fun h => h.2.2⟩

theorem decodeFrame_iff_frameBytes {frame : Bytes} {value : α} :
    decodeFrame take frame = .ok value ↔ ∃ payload, frame = frameBytes payload ∧
      payload.length ≤ maxControlFrameLen ∧ take payload = some (value, []) := by
  rw [decodeFrame_ok_iff]
  unfold declaredLength
  constructor
  · rintro ⟨hsize, hlen, htake⟩
    have hdrop : (frame.drop lengthLen).length = ofBE (frame.take lengthLen) := by
      rw [List.length_drop, hlen, Nat.add_sub_cancel_left]
    have hl : (frame.take lengthLen).length = lengthLen := by
      rw [List.length_take]
      omega
    exact ⟨frame.drop lengthLen, by rw [frameBytes_eq hl hdrop, List.take_append_drop],
      hdrop ▸ hsize, htake⟩
  · rintro ⟨payload, rfl, hsize, htake⟩
    have hdeclared := ofBE_take_frameBytes (lt_of_le_of_lt hsize (by decide)) []
    rw [List.append_nil] at hdeclared
    refine ⟨by omega, by rw [hdeclared, length_frameBytes], ?_⟩
    rw [frameBytes, List.drop_left' (length_toBE ..)]
    exact htake

theorem encodeFrame_ok {value : α} (h : (encode value).length ≤ maxControlFrameLen) :
    encodeFrame encode value = .ok (frameBytes (encode value)) := by
  unfold encodeFrame ensureFrameSize
  rw [if_neg (by omega)]
  rfl

theorem decodeFrame_frameBytes {value : α} (hlen : (encode value).length ≤ maxControlFrameLen)
    (hround : RoundTrip take (encode value) value) :
    decodeFrame take (frameBytes (encode value)) = .ok value :=
  decodeFrame_iff_frameBytes.mpr ⟨_, rfl, hlen, by simpa using hround []⟩

end Frame

/-- The frame of a message. -/
def encodeMessage (message : ControlMessage) : Except FrameError Bytes :=
  encodeFrame encodeControl message

/-- The message in a frame. -/
def decodeMessage (frame : Bytes) : Except FrameError ControlMessage :=
  decodeFrame takeControl frame

theorem encodeMessage_ok {message : ControlMessage} (h : message.Bounded) :
    encodeMessage message = .ok (frameBytes (encodeControl message)) :=
  encodeFrame_ok (length_encodeControl_le h)

/-- **Control messages round-trip, and decoding enforces every bound.** A message within the bounds of
its parts is encoded and read back; and whatever bytes decode, the message is within the bounds. -/
theorem control_messages_round_trip :
    (∀ message : ControlMessage, message.Bounded →
      ∃ frame, encodeMessage message = .ok frame ∧ decodeMessage frame = .ok message) ∧
    ∀ (frame : Bytes) (message : ControlMessage), decodeMessage frame = .ok message →
      message.Bounded := by
  refine ⟨fun message h => ⟨_, encodeMessage_ok h, ?_⟩, fun frame message h => ?_⟩
  · exact decodeFrame_frameBytes (length_encodeControl_le h) (takeControl_encode h)
  · exact takeControl_yields (decodeFrame_ok_iff.mp h).2.2

end Rift.Protocol
