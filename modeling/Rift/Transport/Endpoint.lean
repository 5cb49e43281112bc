import Rift.Lib.Map
import Rift.Transport.Purpose

/-! # The endpoint

What an endpoint does before a connection can negotiate its purpose: it keeps address hints for the
identities it may dial, and exchanges hellos on the control stream of every connection. What the
network answers is an input.

The main results are `bootstrap_ok` and `hint_registry_bounded_snapshots`. -/

namespace Rift.Transport

open Rift.Lib Rift.Lib.Framing Rift.Core Rift.Protocol Std

/-! ### Failures -/

/-- Why a network connection has ended, as far as callers tell it apart. -/
inductive ConnectionError
  | reset
  | timedOut
  | applicationClosed
  | other
  deriving DecidableEq

/-- Why setting up a connection failed. -/
inductive ConnectingError
  | connectionError (source : ConnectionError)
  | other
  deriving DecidableEq

/-- Why a dial failed. -/
inductive ConnectError
  | noAddress
  | refused
  | connecting (source : ConnectingError)
  | connection (source : ConnectionError)
  deriving DecidableEq

/-- Failures of the endpoint; those of the calls on a control stream among them. -/
inductive EndpointError
  | call (error : TransportError)
  | invalidDeviceId
  | unresolved (deviceId : DeviceId)
  | selfConnect
  | hintCapacityExceeded
  | connectTimeout
  | connect (source : ConnectError)
  | acceptTimeout
  | endpointClosed
  | acceptStart (source : ConnectionError)
  | accept (source : ConnectingError)
  | controlStreamOpenTimeout
  | controlStreamAcceptTimeout
  | controlStream (source : ConnectionError)
  | handshake (error : HandshakeError)
  deriving DecidableEq

/-- The network may do better next time. -/
def retryableConnectionError : ConnectionError → Bool
  | .reset | .timedOut | .applicationClosed => true
  | .other => false

/-- The stream has ended or failed within a frame; what it said was not wrong. -/
def retryableFrameError : FrameError → Bool
  | .truncatedLengthPrefix | .truncatedPayload | .write => true
  | _ => false

/-- Classification only; the transport never retries a failed connection itself. -/
def EndpointError.isRetryable : EndpointError → Bool
  | .connectTimeout | .acceptTimeout | .controlStreamOpenTimeout | .controlStreamAcceptTimeout
  | .call .controlTimeout => true
  | .connect .noAddress => true
  | .connect (.connecting (.connectionError source)) | .connect (.connection source)
  | .controlStream source | .acceptStart source | .accept (.connectionError source) =>
    retryableConnectionError source
  | .handshake .handshakeTimeout => true
  | .handshake (.frame error) | .call (.intentFrame error) | .call (.pairingFrame error)
  | .call (.control (.frame error)) => retryableFrameError error
  | _ => false

/-! ### Address hints -/

/-- The most peers with a hint. -/
def maxPeerHints : ℕ := 4096

/-- The most paths of a hint. -/
def maxHintPaths : ℕ := 32

/-- The address of a peer: its identity, which is a public key, and paths to it. -/
structure EndpointAddr (IsKey : DeviceId → Prop) (A : Type) where
  id : DeviceId
  isKey : IsKey id
  addrs : Finset A

/-- Where identities are looked up apart from the hints. -/
inductive AddressLookupConfiguration (A : Type)
  | disabled
  | n0
  | memory (lookup : DeviceId → Finset A)

/-- There is an external source of routes to the identity. -/
def AddressLookupConfiguration.reaches {A : Type} (deviceId : DeviceId) :
    AddressLookupConfiguration A → Bool
  | .disabled => false
  | .n0 => true
  | .memory lookup => (lookup deviceId).card ≠ 0

/-- The hints of an endpoint and where else it looks. -/
structure Endpoint (A : Type) where
  deviceId : DeviceId
  addressLookup : AddressLookupConfiguration A
  memoryLookup : ExtTreeMap DeviceId (Finset A)
  hintIds : Finset DeviceId

namespace Endpoint

variable {A : Type} {IsKey : DeviceId → Prop}

/-- An endpoint that was just bound. -/
def bind (deviceId : DeviceId) (addressLookup : AddressLookupConfiguration A) : Endpoint A :=
  ⟨deviceId, addressLookup, ∅, ∅⟩

/-- Updates an ephemeral route hint; the latest snapshot replaces older paths. -/
def rememberPeerAddr (endpoint : Endpoint A) (peer : EndpointAddr IsKey A) :
    Except EndpointError DeviceId × Endpoint A :=
  if peer.id = endpoint.deviceId then (.error .selfConnect, endpoint)
  else if maxHintPaths < peer.addrs.card then (.error .hintCapacityExceeded, endpoint)
  else if peer.addrs.card = 0 then (.ok peer.id, endpoint)
  else if peer.id ∉ endpoint.hintIds ∧ maxPeerHints ≤ endpoint.hintIds.card then
    (.error .hintCapacityExceeded, endpoint)
  else (.ok peer.id, { endpoint with
    hintIds := insert peer.id endpoint.hintIds
    memoryLookup := endpoint.memoryLookup.insert peer.id peer.addrs })

variable [DecidablePred IsKey]

variable (IsKey) in
/-- Removes a hint, not trust or an existing connection. -/
def forgetPeerAddr (endpoint : Endpoint A) (deviceId : DeviceId) :
    Except EndpointError Unit × Endpoint A :=
  if IsKey deviceId then
    (.ok (), { endpoint with
      hintIds := endpoint.hintIds.erase deviceId
      memoryLookup := endpoint.memoryLookup.erase deviceId })
  else (.error .invalidDeviceId, endpoint)

variable (IsKey) in
/-- Whether a dial by identity has an external lookup or a hint. -/
def hasRouteSource (endpoint : Endpoint A) (deviceId : DeviceId) :
    Except EndpointError Bool :=
  if IsKey deviceId then
    .ok (endpoint.addressLookup.reaches deviceId || deviceId ∈ endpoint.hintIds)
  else .error .invalidDeviceId

/-- What the network answers when an identity is dialled; nothing before the deadline is `none`. -/
def dial {C : Type} : Option (Except ConnectError C) → Except EndpointError C
  | none => .error .connectTimeout
  | some (.error e) => .error (.connect e)
  | some (.ok connection) => .ok connection

end Endpoint

/-! ### The hints over whole runs -/

section Hints

variable {A : Type} {IsKey : DeviceId → Prop} [DecidablePred IsKey]

/-- The calls that change the hints. -/
inductive HintCall (IsKey : DeviceId → Prop) (A : Type)
  | remember (peer : EndpointAddr IsKey A)
  | forget (deviceId : DeviceId)

/-- What a call makes of an endpoint, and whether it was accepted. -/
def HintCall.run (endpoint : Endpoint A) : HintCall IsKey A → Bool × Endpoint A
  | .remember peer =>
    let (result, endpoint) := endpoint.rememberPeerAddr peer
    (result.isOk, endpoint)
  | .forget deviceId =>
    let (result, endpoint) := endpoint.forgetPeerAddr IsKey deviceId
    (result.isOk, endpoint)

/-- Call after call; with each whether it was accepted. -/
def runHints : List (HintCall IsKey A) → Endpoint A → List (HintCall IsKey A × Bool) × Endpoint A
  | [], endpoint => ([], endpoint)
  | call :: calls, endpoint =>
    let (accepted, endpoint) := call.run endpoint
    let (outcomes, endpoint) := runHints calls endpoint
    ((call, accepted) :: outcomes, endpoint)

/-- The snapshot of an identity after a call, which it replaces or drops if it was accepted. -/
def HintCall.snapshot (deviceId : DeviceId) (before : Option (Finset A)) :
    HintCall IsKey A × Bool → Option (Finset A)
  | (.remember peer, true) =>
    if peer.id = deviceId ∧ peer.addrs.card ≠ 0 then some peer.addrs else before
  | (.forget forgotten, true) => if forgotten = deviceId then none else before
  | (_, false) => before

/-- What the registry of hints guarantees: the identities it counts are those it has paths for. -/
structure HintsValid (IsKey : DeviceId → Prop) (endpoint : Endpoint A) : Prop where
  ids : ∀ deviceId, deviceId ∈ endpoint.hintIds ↔ deviceId ∈ endpoint.memoryLookup
  bounded : endpoint.hintIds.card ≤ maxPeerHints
  entries : ∀ deviceId addrs, endpoint.memoryLookup[deviceId]? = some addrs →
    IsKey deviceId ∧ deviceId ≠ endpoint.deviceId ∧ 0 < addrs.card ∧ addrs.card ≤ maxHintPaths

omit [DecidablePred IsKey] in
theorem HintsValid.bind (deviceId : DeviceId) (config : AddressLookupConfiguration A) :
    HintsValid IsKey (Endpoint.bind deviceId config) := by
  refine ⟨fun d => ?_, Nat.zero_le _, fun d addrs h => ?_⟩
  · simp [Endpoint.bind]
  · simp [Endpoint.bind] at h

omit [DecidablePred IsKey] in
theorem HintsValid.card {endpoint : Endpoint A} (h : HintsValid IsKey endpoint) :
    endpoint.hintIds.card = endpoint.memoryLookup.size := by
  rw [← Map.card_keySet]
  congr 1
  ext d
  rw [h.ids, Map.mem_keySet, Map.mem_iff_exists]

omit [DecidablePred IsKey] in
theorem rememberPeerAddr_cases (endpoint : Endpoint A) (peer : EndpointAddr IsKey A) :
    (∃ e, endpoint.rememberPeerAddr peer = (.error e, endpoint)) ∨
    peer.addrs.card = 0 ∧ endpoint.rememberPeerAddr peer = (.ok peer.id, endpoint) ∨
    (peer.id ≠ endpoint.deviceId ∧ 0 < peer.addrs.card ∧ peer.addrs.card ≤ maxHintPaths ∧
      (peer.id ∈ endpoint.hintIds ∨ endpoint.hintIds.card < maxPeerHints) ∧
      endpoint.rememberPeerAddr peer = (.ok peer.id, { endpoint with
        hintIds := insert peer.id endpoint.hintIds
        memoryLookup := endpoint.memoryLookup.insert peer.id peer.addrs })) := by
  unfold Endpoint.rememberPeerAddr
  split_ifs with hself hpaths hempty hfull
  · exact Or.inl ⟨_, rfl⟩
  · exact Or.inl ⟨_, rfl⟩
  · exact Or.inr (Or.inl ⟨hempty, rfl⟩)
  · exact Or.inl ⟨_, rfl⟩
  · refine Or.inr (Or.inr ⟨hself, Nat.pos_of_ne_zero hempty, Nat.not_lt.mp hpaths, ?_, rfl⟩)
    by_cases hmem : peer.id ∈ endpoint.hintIds
    · exact Or.inl hmem
    · exact Or.inr (Nat.not_le.mp fun hle => hfull ⟨hmem, hle⟩)

/-- **One call** keeps the guarantees, and takes, drops or keeps each snapshot. -/
theorem HintsValid.run {endpoint : Endpoint A} (h : HintsValid IsKey endpoint)
    (call : HintCall IsKey A) :
    HintsValid IsKey (call.run endpoint).2 ∧ (call.run endpoint).2.deviceId = endpoint.deviceId ∧
      (call.run endpoint).2.addressLookup = endpoint.addressLookup ∧
      ∀ d, (call.run endpoint).2.memoryLookup[d]? =
        HintCall.snapshot d endpoint.memoryLookup[d]? (call, (call.run endpoint).1) := by
  cases call with
  | remember peer =>
    simp only [HintCall.run]
    rcases rememberPeerAddr_cases endpoint peer with
      ⟨e, he⟩ | ⟨hempty, he⟩ | ⟨hself, hpos, hpaths, hroom, he⟩
    · rw [he]
      exact ⟨h, rfl, rfl, fun d => rfl⟩
    · rw [he]
      refine ⟨h, rfl, rfl, fun d => ?_⟩
      simp [HintCall.snapshot, Except.isOk, Except.toBool, hempty]
    · rw [he]
      refine ⟨⟨fun d => ?_, ?_, fun d addrs hd => ?_⟩, rfl, rfl, fun d => ?_⟩
      · rw [Finset.mem_insert, h.ids, ExtTreeMap.mem_insert, LawfulEqCmp.compare_eq_iff_eq, eq_comm]
      · have hle := h.bounded
        rcases hroom with hmem | hlt
        · simpa [Finset.insert_eq_of_mem hmem] using hle
        · exact (Finset.card_insert_le _ _).trans hlt
      · rcases Map.insert_eq_some.mp hd with ⟨rfl, rfl⟩ | ⟨-, hd⟩
        · exact ⟨peer.isKey, hself, hpos, hpaths⟩
        · exact h.entries d addrs hd
      · by_cases hd : peer.id = d
        · subst hd
          simp [HintCall.snapshot, Except.isOk, Except.toBool, hpos.ne']
        · simp [HintCall.snapshot, Except.isOk, Except.toBool, Map.insert_ne hd, hd]
  | forget deviceId =>
    simp only [HintCall.run, Endpoint.forgetPeerAddr]
    split_ifs with hkey
    · refine ⟨⟨fun d => ?_, ?_, fun d addrs hd => ?_⟩, rfl, rfl, fun d => ?_⟩
      · rw [Finset.mem_erase, h.ids, ExtTreeMap.mem_erase, ne_comm]
        simp
      · exact (Finset.card_erase_le).trans h.bounded
      · exact h.entries d addrs (Map.erase_eq_some.mp hd).2
      · by_cases hd : deviceId = d
        · subst hd
          simp [HintCall.snapshot, Except.isOk, Except.toBool]
        · simp [HintCall.snapshot, Except.isOk, Except.toBool, Map.erase_ne hd, hd]
    · exact ⟨h, rfl, rfl, fun d => rfl⟩

/-- **Any calls** keep the guarantees, and leave the latest snapshots. -/
theorem HintsValid.runHints : ∀ (calls : List (HintCall IsKey A)) {endpoint : Endpoint A},
    HintsValid IsKey endpoint →
    HintsValid IsKey (runHints calls endpoint).2 ∧
      (runHints calls endpoint).2.deviceId = endpoint.deviceId ∧
      (runHints calls endpoint).2.addressLookup = endpoint.addressLookup ∧
      ∀ d, (runHints calls endpoint).2.memoryLookup[d]? =
        (runHints calls endpoint).1.foldl (HintCall.snapshot d) endpoint.memoryLookup[d]?
  | [], _, h => ⟨h, rfl, rfl, fun _ => rfl⟩
  | call :: calls, endpoint, h => by
    obtain ⟨hvalid, hid, hconfig, hsnapshot⟩ := h.run call
    obtain ⟨hvalid', hid', hconfig', hsnapshot'⟩ := HintsValid.runHints calls hvalid
    refine ⟨hvalid', hid'.trans hid, hconfig'.trans hconfig, fun d => ?_⟩
    simp only [Transport.runHints, List.foldl_cons]
    rw [hsnapshot' d, hsnapshot d]

end Hints

/-! ### Bootstrapping -/

/-- Who opens the control stream. -/
inductive ControlDirection
  | openControl
  | acceptControl
  deriving DecidableEq

/-- A connection to an authenticated identity. `stream` is what opening or accepting its control
stream gives; nothing before the deadline is `none`. -/
structure AuthenticatedConnection (S R : Type) where
  remoteDeviceId : DeviceId
  stream : Option (Except ConnectionError (S × R))
  closed : Bool

/-- A connection after the mandatory Hello. -/
structure BootstrappedConnection (S R : Type) where
  connection : Connection S R
  localDeviceId : DeviceId
  peerHello : Hello

/-- The identity that the hello was checked against. -/
def BootstrappedConnection.remoteDeviceId {S R : Type} (b : BootstrappedConnection S R) : DeviceId :=
  b.peerHello.deviceId

section Bootstrap

variable {S R : Type}

/-- The control stream of a connection. -/
def AuthenticatedConnection.control (connection : AuthenticatedConnection S R)
    (direction : ControlDirection) : Except EndpointError (ControlChannel S R) :=
  match connection.stream with
  | none =>
    match direction with
    | .openControl => .error .controlStreamOpenTimeout
    | .acceptControl => .error .controlStreamAcceptTimeout
  | some (.error e) => .error (.controlStream e)
  | some (.ok (send, recv)) => .ok ⟨send, recv⟩

variable [AsyncWrite S] [AsyncRead R] [Clocked S] [Clocked R]

/-- An exchange that the deadline cuts short fails in the step that was cut; a failed write says that
it is one. -/
def exchangeHelloWithTimeout (channel : ControlChannel S R) (localDeviceId : DeviceId)
    (localMetadata : HelloMetadata) (authenticatedRemoteId : DeviceId) :
    Except HandshakeError Hello × ControlChannel S R :=
  match exchangeHello channel localDeviceId localMetadata authenticatedRemoteId with
  | (.error (.frame .write), channel) =>
    (.error (if Clocked.expired channel.send then .handshakeTimeout else .frame .write), channel)
  | (.error (.frame e), channel) =>
    (.error (if Clocked.expired channel.recv then .handshakeTimeout else .frame e), channel)
  | result => result

/-- Exchanges hellos on the control stream; a connection whose bootstrap fails is closed. -/
def bootstrap (localDeviceId : DeviceId) (metadata : HelloMetadata) (direction : ControlDirection)
    (connection : AuthenticatedConnection S R) :
    Except EndpointError (BootstrappedConnection S R) × AuthenticatedConnection S R :=
  match connection.control direction with
  | .error e => (.error e, { connection with closed := true })
  | .ok channel =>
    match exchangeHelloWithTimeout channel localDeviceId metadata connection.remoteDeviceId with
    | (.error e, _) => (.error (.handshake e), { connection with closed := true })
    | (.ok peerHello, channel) =>
      (.ok ⟨⟨channel.send, channel.recv, true, .fresh, connection.closed⟩, localDeviceId, peerHello⟩,
        connection)

end Bootstrap

/-! ### What a bootstrap has done -/

section Bootstrapped

variable {S R : Type} [Sink S] [Tape R] [Clocked S] [Clocked R]

theorem exchangeHelloWithTimeout_ok {channel channel' : ControlChannel S R}
    {localDeviceId authenticated : DeviceId} {metadata : HelloMetadata} {peer : Hello}
    (h : exchangeHelloWithTimeout channel localDeviceId metadata authenticated =
      (.ok peer, channel')) :
    exchangeHello channel localDeviceId metadata authenticated = (.ok peer, channel') := by
  unfold exchangeHelloWithTimeout at h
  split at h
  · cases h
  · cases h
  · exact h

theorem exchangeHelloWithTimeout_of_within {channel : ControlChannel S R}
    {localDeviceId authenticated : DeviceId} {metadata : HelloMetadata} (h : metadata.Within) :
    exchangeHelloWithTimeout channel localDeviceId metadata authenticated =
      match writeMessage channel.send (.hello (.ofMetadata localDeviceId metadata)) with
      | (.error e, send) =>
        (.error (if Clocked.expired send then .handshakeTimeout else .frame e), ⟨send, channel.recv⟩)
      | (.ok (), send) =>
        match readMessage channel.recv with
        | (.error e, recv) =>
          (.error (if Clocked.expired recv then .handshakeTimeout else .frame e), ⟨send, recv⟩)
        | (.ok message, recv) => (greeting authenticated message, ⟨send, recv⟩) := by
  unfold exchangeHelloWithTimeout
  rw [exchangeHello_of_within h]
  rcases hw : writeMessage channel.send (.hello (.ofMetadata localDeviceId metadata)) with
    ⟨e | ⟨⟩, send⟩
  · obtain rfl := writeMessage_error (bounded_ofMetadata h localDeviceId) hw
    rfl
  rcases hr : readMessage channel.recv with ⟨e | message, recv⟩
  · have hne := readMessage_error hr
    cases e with
    | write => exact absurd rfl hne
    | _ => rfl
  simp only
  cases message with
  | hello peer =>
    simp only [greeting]
    split_ifs <;> rfl
  | _ => rfl

/-- **A connection that is bootstrapped** has exchanged hellos on its control stream, and nothing else
has happened on it. -/
theorem bootstrap_ok {localDeviceId : DeviceId} {metadata : HelloMetadata}
    {direction : ControlDirection} {connection connection' : AuthenticatedConnection S R}
    {b : BootstrappedConnection S R}
    (h : bootstrap localDeviceId metadata direction connection = (.ok b, connection')) :
    b.connection.control = true ∧ b.connection.intentPhase = .fresh ∧
      ∃ send recv, connection.stream = some (.ok (send, recv)) ∧
        exchangeHello ⟨send, recv⟩ localDeviceId metadata connection.remoteDeviceId =
          (.ok b.peerHello, ⟨b.connection.send, b.connection.recv⟩) := by
  unfold bootstrap at h
  rcases hc : connection.control direction with e | ⟨send, recv⟩ <;> simp only [hc] at h
  · cases h
  rcases hx : exchangeHelloWithTimeout ⟨send, recv⟩ localDeviceId metadata connection.remoteDeviceId
    with ⟨e | peer, channel⟩ <;> simp only [hx] at h <;> cases h
  refine ⟨rfl, rfl, send, recv, ?_, exchangeHelloWithTimeout_ok hx⟩
  unfold AuthenticatedConnection.control at hc
  split at hc
  · split at hc <;> cases hc
  · cases hc
  · cases hc
    assumption

end Bootstrapped

end Rift.Transport
