import Rift.Lib.Exchange
import Rift.Protocol.Stream

/-! # The exchange of hellos

Both ends of a control channel send a Hello and read the other's. A peer is taken at its word only
for what it may decide: its Hello has to be of this version, within its bounds, and from the identity
that the transport has authenticated.

The main results are `exchangeHello_ok` and `hello_exchange_exact`. -/

namespace Rift.Protocol

open Rift.Lib Rift.Lib.Framing Rift.Core

/-! ### Hellos -/

/-- Failures of the exchange of hellos. -/
inductive HandshakeError
  | frame (error : FrameError)
  | handshakeTimeout
  | unsupportedProtocolVersion (version : UInt16)
  | identityMismatch (authenticated hello : DeviceId)
  | invalidMetadata (field : MetadataField) (actual maximum : ℕ)
  | tooManyCapabilities (actual maximum : ℕ)
  | unexpectedMessage (expected received : MessageKind)
  deriving DecidableEq

/-- A bound of a hello is broken. -/
def HandshakeError.ofMetadata : MetadataError → HandshakeError
  | .invalidMetadata field actual maximum => .invalidMetadata field actual maximum
  | .tooManyCapabilities actual maximum => .tooManyCapabilities actual maximum

/-- What the local application supplies for its Hello. -/
structure HelloMetadata where
  deviceName : String
  platform : String
  capabilities : List Capability
  deriving DecidableEq

/-- A Hello of this version with the metadata, which need not be within its bounds. -/
def Hello.ofMetadata (deviceId : DeviceId) (metadata : HelloMetadata) : Hello where
  protocolVersion := UInt16.ofNat Protocol.protocolVersion
  deviceId := deviceId
  deviceName := metadata.deviceName
  platform := metadata.platform
  capabilities := metadata.capabilities

/-- The hello of this device, if it keeps the bounds. -/
def Hello.new (deviceId : DeviceId) (metadata : HelloMetadata) : Except HandshakeError Hello :=
  match validateHelloMetadata (.ofMetadata deviceId metadata) with
  | .error e => .error (.ofMetadata e)
  | .ok () => .ok (.ofMetadata deviceId metadata)

/-- Validates the version, the bounds and the authenticated identity in the Hello of a peer. -/
def validateHello (hello : Hello) (authenticatedRemoteId : DeviceId) : Except HandshakeError Unit :=
  if hello.protocolVersion.toNat ≠ protocolVersion then
    .error (.unsupportedProtocolVersion hello.protocolVersion)
  else
    match validateHelloMetadata hello with
    | .error e => .error (.ofMetadata e)
    | .ok () =>
      if hello.deviceId ≠ authenticatedRemoteId then
        .error (.identityMismatch authenticatedRemoteId hello.deviceId)
      else .ok ()

/-! ### The exchange -/

/-- A bidirectional control stream. -/
structure ControlChannel (S R : Type) where
  send : S
  recv : R

/-- Sends the local Hello, and validates the one that the peer sends. -/
def exchangeHello {S R : Type} [AsyncWrite S] [AsyncRead R] (channel : ControlChannel S R)
    (localDeviceId : DeviceId) (localMetadata : HelloMetadata) (authenticatedRemoteId : DeviceId) :
    Except HandshakeError Hello × ControlChannel S R :=
  match Hello.new localDeviceId localMetadata with
  | .error e => (.error e, channel)
  | .ok hello =>
    match writeMessage channel.send (.hello hello) with
    | (.error e, send) => (.error (.frame e), { channel with send })
    | (.ok (), send) =>
      match readMessage channel.recv with
      | (.error e, recv) => (.error (.frame e), ⟨send, recv⟩)
      | (.ok (.hello peer), recv) =>
        match validateHello peer authenticatedRemoteId with
        | .error e => (.error e, ⟨send, recv⟩)
        | .ok () => (.ok peer, ⟨send, recv⟩)
      | (.ok message, recv) => (.error (.unexpectedMessage .hello message.kind), ⟨send, recv⟩)

/-! ### What passes the checks -/

/-- The metadata is within the bounds of a Hello. -/
def HelloMetadata.Within (metadata : HelloMetadata) : Prop :=
  metadata.deviceName.utf8ByteSize ≤ maxDeviceNameLen ∧
    metadata.platform.utf8ByteSize ≤ maxPlatformLen ∧ metadata.capabilities.length ≤ maxCapabilities

instance (metadata : HelloMetadata) : Decidable metadata.Within :=
  inferInstanceAs (Decidable (_ ∧ _ ∧ _))

theorem validateMetadata_ok_iff {deviceName platform : String} {capabilities : List Capability} :
    validateMetadata deviceName platform capabilities = .ok () ↔
      deviceName.utf8ByteSize ≤ maxDeviceNameLen ∧ platform.utf8ByteSize ≤ maxPlatformLen ∧
        capabilities.length ≤ maxCapabilities := by
  unfold validateMetadata
  split_ifs <;> simp <;> omega

theorem Hello.new_of_within {metadata : HelloMetadata} (h : metadata.Within) (deviceId : DeviceId) :
    Hello.new deviceId metadata = .ok (.ofMetadata deviceId metadata) := by
  have hv : validateHelloMetadata (.ofMetadata deviceId metadata) = .ok () :=
    validateMetadata_ok_iff.mpr h
  unfold Hello.new
  rw [hv]

/-- What decodes is within its bounds, so only the version and the identity of a peer are left to
refuse. -/
theorem validateHello_of_bounded {hello : Hello} (h : (ControlMessage.hello hello).Bounded)
    (authenticated : DeviceId) : validateHello hello authenticated =
      if hello.protocolVersion.toNat ≠ protocolVersion then
        .error (.unsupportedProtocolVersion hello.protocolVersion)
      else if hello.deviceId ≠ authenticated then
        .error (.identityMismatch authenticated hello.deviceId)
      else .ok () := by
  have hv : validateHelloMetadata hello = .ok () := validateMetadata_ok_iff.mpr h
  unfold validateHello
  rw [hv]

/-! ### Messages on any stream -/

theorem bounded_of_decodeMessage {frame : Bytes} {message : ControlMessage}
    (h : decodeMessage frame = .ok message) : message.Bounded :=
  takeControl_yields (decodeFrame_ok_iff.mp h).2.2

theorem readMessage_ahead {R : Type} [Tape R] {r r' : R} {message : ControlMessage}
    (h : readMessage r = (.ok message, r')) :
    ∃ frame, Tape.ahead r = frame ++ Tape.ahead r' ∧ decodeMessage frame = .ok message := by
  unfold readMessage at h
  rw [readValue_eq] at h
  rcases hframe : readFrame maxControlFrameLen r with ⟨fault | payload, r₁⟩
  · simp only [hframe] at h
    cases h
  · simp only [hframe, Prod.mk.injEq] at h
    obtain ⟨hpayload, rfl⟩ := h
    obtain ⟨hd, hsize⟩ := readFrame_delivers hframe
    exact ⟨_, Tape.ahead_delivers hd, decodeFrame_iff_frameBytes.mpr
      ⟨payload, rfl, hsize, decodePayload_ok_iff.mp hpayload⟩⟩

theorem writeMessage_taken {W : Type} [Sink W] {w : W} (hr : Sink.ready w) {message : ControlMessage}
    (hb : message.Bounded) :
    Sink.ready (writeMessage w message).2 ∧ ∃ y, y <+: frameBytes (encodeControl message) ∧
      Sink.taken (writeMessage w message).2 = Sink.taken w ++ y ∧
      ((writeMessage w message).1 = .ok () → y = frameBytes (encodeControl message)) := by
  obtain ⟨hr₁, x, hx, ht₁, hok₁⟩ :=
    writeAll_taken ((frameBytes (encodeControl message)).take lengthLen) hr
  obtain ⟨hr₂, y, ⟨rest, hy⟩, ht₂, hok₂⟩ :=
    writeAll_taken ((frameBytes (encodeControl message)).drop lengthLen) hr₁
  unfold writeMessage
  simp only [encodeMessage_ok hb]
  rcases hw : writeAll ((frameBytes (encodeControl message)).take lengthLen) w with ⟨e | ⟨⟩, w₁⟩
  · rw [hw] at hr₁ ht₁
    exact ⟨hr₁, x, hx.trans (List.take_prefix _ _), ht₁, fun h => by cases h⟩
  · rw [hw] at hr₂ ht₁ ht₂ hok₁ hok₂
    obtain rfl := hok₁ rfl
    refine ⟨hr₂, (frameBytes (encodeControl message)).take lengthLen ++ y, ⟨rest, ?_⟩, ?_,
      fun h => ?_⟩
    · rw [List.append_assoc, hy, List.take_append_drop]
    · show Sink.taken (writeAll _ w₁).2 = _
      rw [ht₂, ht₁, List.append_assoc]
    · have hrest : (writeAll ((frameBytes (encodeControl message)).drop lengthLen) w₁).1 = .ok () := by
        change Except.mapError _ _ = _ at h
        rcases hres : (writeAll ((frameBytes (encodeControl message)).drop lengthLen) w₁).1 with e | ⟨⟩
        · rw [hres] at h
          cases h
        · rfl
      rw [hok₂ hrest, List.take_append_drop]

theorem writeMessage_error {W : Type} [AsyncWrite W] {w w' : W} {message : ControlMessage}
    {e : FrameError} (hb : message.Bounded)
    (h : writeMessage w message = (.error e, w')) : e = .write := by
  unfold writeMessage at h
  simp only [encodeMessage_ok hb] at h
  split at h
  · cases h
    rfl
  · rename_i send _
    rcases hw : writeAll ((frameBytes (encodeControl message)).drop lengthLen) send with
      ⟨fault | ⟨⟩, w''⟩ <;> rw [hw] at h <;> cases h
    rfl

theorem readMessage_error {R : Type} [AsyncRead R] {r r' : R} {e : FrameError}
    (h : readMessage r = (.error e, r')) : e ≠ .write := by
  unfold readMessage readValue at h
  split at h
  · cases h
    exact fun hw => by cases hw
  split at h
  · rename_i hsize
    cases h
    unfold ensureFrameSize at hsize
    split_ifs at hsize
    cases hsize
    exact fun hw => by cases hw
  split at h
  · cases h
    exact fun hw => by cases hw
  · rw [Prod.mk.injEq] at h
    have hdecode := h.1
    unfold decodePayload at hdecode
    split at hdecode
    · cases hdecode
      exact fun hw => by cases hw
    · split_ifs at hdecode
      cases hdecode
      exact fun hw => by cases hw

/-! ### What an exchange makes of its peer -/

/-- What the first message of a peer makes of an exchange. -/
def greeting (authenticated : DeviceId) : ControlMessage → Except HandshakeError Hello
  | .hello peer =>
    if peer.protocolVersion.toNat ≠ protocolVersion then
      .error (.unsupportedProtocolVersion peer.protocolVersion)
    else if peer.deviceId ≠ authenticated then
      .error (.identityMismatch authenticated peer.deviceId)
    else .ok peer
  | message => .error (.unexpectedMessage .hello message.kind)

theorem greeting_ok {authenticated : DeviceId} {message : ControlMessage} {peer : Hello}
    (h : greeting authenticated message = .ok peer) : message = .hello peer ∧
      peer.protocolVersion.toNat = protocolVersion ∧ peer.deviceId = authenticated := by
  cases message with
  | hello received =>
    simp only [greeting] at h
    split_ifs at h with hversion hidentity
    cases h
    exact ⟨rfl, not_not.mp hversion, not_not.mp hidentity⟩
  | _ => cases h

section Exchange

variable {S R : Type} [Sink S] [Tape R] {channel channel' : ControlChannel S R}
  {localDeviceId authenticated : DeviceId} {metadata : HelloMetadata} {peer : Hello}

open Tape

theorem bounded_ofMetadata (h : metadata.Within) (deviceId : DeviceId) :
    (ControlMessage.hello (.ofMetadata deviceId metadata)).Bounded := h

theorem exchangeHello_of_within (h : metadata.Within) :
    exchangeHello channel localDeviceId metadata authenticated =
      match writeMessage channel.send (.hello (.ofMetadata localDeviceId metadata)) with
      | (.error e, send) => (.error (.frame e), ⟨send, channel.recv⟩)
      | (.ok (), send) =>
        match readMessage channel.recv with
        | (.error e, recv) => (.error (.frame e), ⟨send, recv⟩)
        | (.ok message, recv) => (greeting authenticated message, ⟨send, recv⟩) := by
  unfold exchangeHello
  simp only [Hello.new_of_within h]
  rcases writeMessage channel.send (.hello (.ofMetadata localDeviceId metadata)) with ⟨e | ⟨⟩, send⟩
  · rfl
  rcases hread : readMessage channel.recv with ⟨e | message, recv⟩
  · rfl
  obtain ⟨frame, -, hdecode⟩ := readMessage_ahead hread
  cases message with
  | hello received =>
    simp only [validateHello_of_bounded (bounded_of_decodeMessage hdecode), greeting]
    split_ifs <;> rfl
  | _ => rfl

theorem exchangeHello_of_beyond (h : ¬metadata.Within) :
    ∃ e, exchangeHello channel localDeviceId metadata authenticated =
      (.error (.ofMetadata e), channel) := by
  unfold exchangeHello Hello.new
  rcases hv : validateHelloMetadata (.ofMetadata localDeviceId metadata) with e | ⟨⟩
  · exact ⟨e, rfl⟩
  · exact absurd (validateMetadata_ok_iff.mp hv) h

theorem exchangeHello_writes (hready : Sink.ready channel.send) :
    ∃ y, y <+: frameBytes (encodeControl (.hello (.ofMetadata localDeviceId metadata))) ∧
      Sink.taken (exchangeHello channel localDeviceId metadata authenticated).2.send =
        Sink.taken channel.send ++ y := by
  by_cases hwithin : metadata.Within
  · obtain ⟨-, y, hy, htaken, -⟩ :=
      writeMessage_taken hready (bounded_ofMetadata hwithin localDeviceId)
    refine ⟨y, hy, ?_⟩
    rw [exchangeHello_of_within hwithin]
    rcases hw : writeMessage channel.send (.hello (.ofMetadata localDeviceId metadata)) with
      ⟨e | ⟨⟩, send⟩ <;> rw [hw] at htaken
    · exact htaken
    · rcases readMessage channel.recv with ⟨e | message, recv⟩ <;> exact htaken
  · obtain ⟨e, he⟩ : ∃ e, exchangeHello channel localDeviceId metadata authenticated =
        (.error (.ofMetadata e), channel) := exchangeHello_of_beyond hwithin
    rw [he]
    exact ⟨[], List.nil_prefix, (List.append_nil _).symm⟩

theorem exchangeHello_eq_ok
    (h : exchangeHello channel localDeviceId metadata authenticated = (.ok peer, channel')) :
    metadata.Within ∧
      writeMessage channel.send (.hello (.ofMetadata localDeviceId metadata)) = (.ok (), channel'.send) ∧
      readMessage channel.recv = (.ok (.hello peer), channel'.recv) ∧
      peer.protocolVersion.toNat = protocolVersion ∧ peer.deviceId = authenticated := by
  by_cases hwithin : metadata.Within
  · rw [exchangeHello_of_within hwithin] at h
    rcases hw : writeMessage channel.send (.hello (.ofMetadata localDeviceId metadata)) with
      ⟨e | ⟨⟩, send⟩ <;> simp only [hw] at h
    · cases h
    rcases hr : readMessage channel.recv with ⟨e | message, recv⟩ <;>
      simp only [hr, Prod.mk.injEq] at h
    · cases h.1
    obtain ⟨hgreeting, rfl⟩ := h
    obtain ⟨rfl, hpeer⟩ := greeting_ok hgreeting
    exact ⟨hwithin, rfl, rfl, hpeer⟩
  · obtain ⟨e, he⟩ : ∃ e, exchangeHello channel localDeviceId metadata authenticated =
        (.error (.ofMetadata e), channel) := exchangeHello_of_beyond hwithin
    rw [he] at h
    cases h

/-- **An exchange that succeeds** has written the local Hello, and read one that is of this version
and of the authenticated identity. -/
theorem exchangeHello_ok (hready : Sink.ready channel.send)
    (h : exchangeHello channel localDeviceId metadata authenticated = (.ok peer, channel')) :
    Sink.ready channel'.send ∧
      Sink.taken channel'.send = Sink.taken channel.send ++
        frameBytes (encodeControl (.hello (.ofMetadata localDeviceId metadata))) ∧
      (∃ frame, ahead channel.recv = frame ++ ahead channel'.recv ∧
        decodeMessage frame = .ok (.hello peer)) ∧
      peer.protocolVersion.toNat = protocolVersion ∧ peer.deviceId = authenticated := by
  obtain ⟨hwithin, hw, hr, hpeer⟩ := exchangeHello_eq_ok h
  obtain ⟨hready', y, -, htaken, hall⟩ :=
    writeMessage_taken hready (bounded_ofMetadata hwithin localDeviceId)
  rw [hw] at hready' htaken hall
  exact ⟨hready', hall rfl ▸ htaken, readMessage_ahead hr, hpeer⟩

/-- **The exchange of hellos is exact.** Whatever a peer sends and however the streams behave:

* nothing but a beginning of the local Hello is written;
* if the exchange succeeds, all of it was, and the peer has sent the Hello that is returned, in one
  frame, of this version and from the identity that the transport has authenticated;
* on streams that do not fail the first message of the peer decides the result, and is all that is
  taken off the stream; no message in front means a frame error;
* a local Hello beyond its bounds is refused before anything is read or written. -/
theorem hello_exchange_exact (channel : ControlChannel S R) (localDeviceId authenticated : DeviceId)
    (metadata : HelloMetadata) (hready : Sink.ready channel.send) :
    let result := exchangeHello channel localDeviceId metadata authenticated
    let hello := Hello.ofMetadata localDeviceId metadata
    (∃ y, y <+: frameBytes (encodeControl (.hello hello)) ∧
      Sink.taken result.2.send = Sink.taken channel.send ++ y) ∧
    (∀ peer, result.1 = .ok peer →
      Sink.taken result.2.send = Sink.taken channel.send ++ frameBytes (encodeControl (.hello hello)) ∧
      (∃ frame, ahead channel.recv = frame ++ ahead result.2.recv ∧
        decodeMessage frame = .ok (.hello peer)) ∧
      peer.protocolVersion.toNat = protocolVersion ∧ peer.deviceId = authenticated) ∧
    (Absorbs channel.send → Flows channel.recv → metadata.Within →
      (∀ frame rest message, ahead channel.recv = frame ++ rest →
        decodeMessage frame = .ok message →
        result.1 = greeting authenticated message ∧ ahead result.2.recv = rest) ∧
      ((∀ frame rest message, ahead channel.recv = frame ++ rest →
        decodeMessage frame ≠ .ok message) → ∃ e, result.1 = .error (.frame e))) ∧
    (¬metadata.Within → ∃ e, result = (.error (.ofMetadata e), channel)) := by
  intro result hello
  refine ⟨exchangeHello_writes hready, fun peer hpeer => ?_, fun habsorbs hflows hwithin => ?_,
    exchangeHello_of_beyond⟩
  · exact (exchangeHello_ok hready (Prod.ext hpeer rfl)).2
  · have heq : result = _ := exchangeHello_of_within hwithin
    obtain ⟨hok, -⟩ := writeMessage_absorbs habsorbs hready
      (bounded_ofMetadata hwithin localDeviceId)
    rcases hw : writeMessage channel.send (.hello (.ofMetadata localDeviceId metadata)) with
      ⟨written, send⟩
    rw [hw] at hok
    obtain rfl : written = .ok () := hok
    rw [hw] at heq
    constructor
    · intro frame rest message hahead hdecode
      obtain ⟨hread, hrest, -⟩ := readMessage_decodes hflows hahead hdecode
      rcases hr : readMessage channel.recv with ⟨read, recv⟩
      rw [hr] at hread hrest heq
      obtain rfl : read = .ok message := hread
      rw [heq]
      exact ⟨rfl, hrest⟩
    · intro hnone
      rcases hr : readMessage channel.recv with ⟨e | message, recv⟩
      · rw [hr] at heq
        exact ⟨e, by rw [heq]⟩
      · obtain ⟨frame, hahead, hdecode⟩ := readMessage_ahead hr
        exact absurd hdecode (hnone frame _ message hahead)

end Exchange

/-- The Hello of another device that arrives byte by byte. -/
theorem hello_arrives_in_pieces :
    let metadata : HelloMetadata := ⟨"phone", "linux", [.pairingV1]⟩
    let peer := Hello.ofMetadata (.repeated 2) metadata
    let channel : ControlChannel ScriptedFile ScriptedFile := ⟨.ofContent [] [],
      .ofContent (frameBytes (encodeControl (.hello peer)) ++ [1]) (List.replicate 60 (.move 0))⟩
    let result := exchangeHello channel (.repeated 1) metadata (.repeated 2)
    result.1 = .ok peer ∧ Tape.ahead result.2.recv = [1] ∧ Sink.taken result.2.send =
      frameBytes (encodeControl (.hello (.ofMetadata (.repeated 1) metadata))) := by
  intro metadata peer channel result
  have hok : result.1 = .ok peer := by decide +kernel
  obtain ⟨-, hsucceeded, -⟩ :=
    hello_exchange_exact channel (.repeated 1) (.repeated 2) metadata rfl
  exact ⟨hok, by decide +kernel, (hsucceeded peer hok).1⟩

end Rift.Protocol
