import Rift.Session.Admission
import Rift.Trust.Standing

/-! # Setting up a session

What the session manager does with a connection that is bootstrapped: it negotiates the purpose with
the peer on the control stream, and reads the trust store at four separate moments, between which
other tasks may write to it.

The main results are `prepareOutbound_spec`, `acceptInbound_spec`, `outbound_setup_exact`,
`inbound_setup_exact` and `admission_fenced`. -/

namespace Rift.Session

open Rift.Lib Rift.Lib.Framing Rift.Core Rift.Protocol Rift.Transport Rift.Trust

/-! ### The session manager -/

/-- The failure of a call during admission. -/
def SessionError.ofCall (error : TransportError) : SessionError :=
  .intent (.ofTransport (.call error))

/-- The moments at which a setup reads the trust store: it captures the generation of the peer,
checks the purpose, checks the generation again and decides. -/
inductive Moment
  | captured
  | checked
  | rechecked
  | decided
  deriving DecidableEq

section Manager

variable {S R : Type} (store : Moment → StoreInner)

/-- The last two readings. A connection that is not admitted is dropped, which closes it. -/
def admitPeer (connection : Connection S R) (deviceId : DeviceId) (purpose : ConnectionPurpose)
    (generation : ℕ) : Except SessionError SessionAdmission × Connection S R :=
  if (store .rechecked).currentGeneration deviceId ≠ generation then
    (.error (.purposeNotAllowed deviceId purpose), connection.poison)
  else
    match admitEntry deviceId generation purpose ((store .decided).entry deviceId) with
    | .error e => (.error e, connection.poison)
    | .ok admission => (.ok admission, connection)

variable [AsyncRead R] [AsyncWrite S] [Clocked R] [Clocked S]

/-- Outbound admission never infers pairing from an authorization failure. -/
def prepareOutbound (bootstrapped : Transport.BootstrappedConnection S R)
    (purpose : ConnectionPurpose) : Except SessionError SessionAdmission × Connection S R :=
  let deviceId := bootstrapped.remoteDeviceId
  let generation := (store .captured).currentGeneration deviceId
  let entry := (store .checked).entry deviceId
  if purposeAllowed entry purpose = false then
    (.error (localPurposeError deviceId entry purpose), bootstrapped.connection.poison)
  else
    match bootstrapped.connection.requestIntent purpose with
    | (.error e, connection) => (.error (.ofCall e), connection.poison)
    | (.ok (), connection) => admitPeer store connection deviceId purpose generation

/-- Inbound admission reads the explicit purpose before consulting local trust. -/
def acceptInbound (bootstrapped : Transport.BootstrappedConnection S R) :
    Except SessionError SessionAdmission × Connection S R :=
  let deviceId := bootstrapped.remoteDeviceId
  let generation := (store .captured).currentGeneration deviceId
  match bootstrapped.connection.receiveIntent with
  | (.error e, connection) => (.error (.ofCall e), connection.poison)
  | (.ok purpose, connection) =>
    let entry := (store .checked).entry deviceId
    let accepted := purposeAllowed entry purpose
    match connection.sendIntentResult accepted with
    | (.error e, connection) => (.error (.ofCall e), connection.poison)
    | (.ok (), connection) =>
      if accepted = false then
        (.error (localPurposeError deviceId entry purpose), connection.poison)
      else admitPeer store connection deviceId purpose generation

end Manager

section Cases

variable {S R : Type} [AsyncRead R] [AsyncWrite S] [Clocked R] [Clocked S] {store : Moment → StoreInner}
  {b : Transport.BootstrappedConnection S R} {purpose : ConnectionPurpose}

theorem prepareOutbound_refused
    (h : purposeAllowed ((store .checked).entry b.remoteDeviceId) purpose = false) :
    prepareOutbound store b purpose =
      (.error (localPurposeError b.remoteDeviceId ((store .checked).entry b.remoteDeviceId) purpose),
        b.connection.poison) :=
  if_pos h

theorem prepareOutbound_allowed
    (h : purposeAllowed ((store .checked).entry b.remoteDeviceId) purpose = true) :
    prepareOutbound store b purpose =
      match b.connection.requestIntent purpose with
      | (.error e, connection) => (.error (.ofCall e), connection.poison)
      | (.ok (), connection) => admitPeer store connection b.remoteDeviceId purpose
          ((store .captured).currentGeneration b.remoteDeviceId) :=
  if_neg (by simp [h])

end Cases

/-! ### What the store decides -/

/-- The readings of the store admit the peer for the purpose. -/
structure Admits (store : Moment → StoreInner) (deviceId : DeviceId) (purpose : ConnectionPurpose)
    (admission : SessionAdmission) : Prop where
  allowed : purposeAllowed ((store .checked).entry deviceId) purpose = true
  generation : (store .rechecked).currentGeneration deviceId =
    (store .captured).currentGeneration deviceId
  entry : admitEntry deviceId ((store .captured).currentGeneration deviceId) purpose
    ((store .decided).entry deviceId) = .ok admission

section Decisions

variable {S R : Type} {store : Moment → StoreInner} {connection : Connection S R}
  {deviceId : DeviceId} {purpose : ConnectionPurpose}

theorem admit_cases (store : Moment → StoreInner) (connection : Connection S R) (deviceId : DeviceId)
    (purpose : ConnectionPurpose) (generation : ℕ) :
    (∃ e, admitPeer store connection deviceId purpose generation = (.error e, connection.poison)) ∨
    ∃ admission, admitPeer store connection deviceId purpose generation = (.ok admission, connection) ∧
      (store .rechecked).currentGeneration deviceId = generation ∧
      admitEntry deviceId generation purpose ((store .decided).entry deviceId) = .ok admission := by
  unfold admitPeer
  split_ifs with hgeneration
  · exact Or.inl ⟨_, rfl⟩
  · rcases hentry : admitEntry deviceId generation purpose ((store .decided).entry deviceId) with
      e | admission
    · exact Or.inl ⟨e, rfl⟩
    · exact Or.inr ⟨admission, rfl, not_not.mp hgeneration, rfl⟩

/-- What the last two readings make of a connection. -/
def verdict (store : Moment → StoreInner) (deviceId : DeviceId) (purpose : ConnectionPurpose) :
    Except SessionError SessionAdmission :=
  if (store .rechecked).currentGeneration deviceId ≠ (store .captured).currentGeneration deviceId then
    .error (.purposeNotAllowed deviceId purpose)
  else admitEntry deviceId ((store .captured).currentGeneration deviceId) purpose
    ((store .decided).entry deviceId)

theorem admit_fst : (admitPeer store connection deviceId purpose
    ((store .captured).currentGeneration deviceId)).1 = verdict store deviceId purpose := by
  unfold admitPeer verdict
  split_ifs
  · rfl
  · split <;> simp_all

end Decisions

/-! ### What a setup has done -/

section Exact

variable {S R : Type} [Sink S] [Tape R] [Clocked S] [Clocked R] {store : Moment → StoreInner}
  {b : Transport.BootstrappedConnection S R} {purpose : ConnectionPurpose}
  {admission : SessionAdmission} {connection' : Connection S R}

/-- Nothing has happened on the control stream since the hellos. -/
structure Fresh (b : Transport.BootstrappedConnection S R) : Prop where
  control : b.connection.control = true
  phase : b.connection.intentPhase = .fresh
  ready : Sink.ready b.connection.send

/-- **What a dialer's setup has done.** An admitted connection has carried the purpose and the agreement
of the peer, each in one frame, and the store has admitted the peer; any other is closed. Nothing but
the purpose is written, and that only if the dialer's own store allows it. -/
theorem prepareOutbound_spec (h : Fresh b) {result : Except SessionError SessionAdmission}
    (hrun : prepareOutbound store b purpose = (result, connection')) :
    (∀ admission, result = .ok admission → Admits store b.remoteDeviceId purpose admission ∧
      ∃ c, Connection.Sent { b.connection with intentPhase := .finished } (.connectionIntent purpose) c ∧
        Connection.Heard c (.connectionIntentResult true) connection') ∧
    (∀ e, result = .error e → connection'.control = false ∧ connection'.closed = true) ∧
    Wrote b.connection (if purposeAllowed ((store .checked).entry b.remoteDeviceId) purpose then
      [.connectionIntent purpose] else []) connection' := by
  rcases hallowed : purposeAllowed ((store .checked).entry b.remoteDeviceId) purpose with _ | _
  · rw [prepareOutbound_refused hallowed] at hrun
    cases hrun
    exact ⟨fun _ hok => (by cases hok), fun _ _ => ⟨rfl, rfl⟩, .nothing h.ready rfl⟩
  rw [prepareOutbound_allowed hallowed] at hrun
  rcases hr : b.connection.requestIntent purpose with ⟨e | ⟨⟩, c⟩ <;> rw [hr] at hrun <;>
    obtain ⟨⟨hwrote, -⟩, hdone⟩ := Connection.requestIntent_spec hr h.ready h.control h.phase
  · cases hrun
    exact ⟨fun _ hok => (by cases hok), fun _ _ => ⟨rfl, rfl⟩, hwrote.poison⟩
  rcases admit_cases store c b.remoteDeviceId purpose
      ((store .captured).currentGeneration b.remoteDeviceId) with
    ⟨e, he⟩ | ⟨admission, hadmit, hgeneration, hentry⟩
  · cases he.symm.trans hrun
    exact ⟨fun _ hok => (by cases hok), fun _ _ => ⟨rfl, rfl⟩, hwrote.poison⟩
  · cases hadmit.symm.trans hrun
    refine ⟨fun _ hok => ?_, fun _ he => (by cases he), hwrote⟩
    cases hok
    exact ⟨⟨hallowed, hgeneration, hentry⟩, hdone rfl⟩

/-- **What an acceptor's setup has done.** An admitted connection has carried the purpose of the peer
and the agreement to it, each in one frame, and the store has admitted the peer for this purpose; any
other is closed. Nothing but the answer is written, and that only to a purpose. -/
theorem acceptInbound_spec (h : Fresh b) {result : Except SessionError SessionAdmission}
    (hrun : acceptInbound store b = (result, connection')) :
    (∀ admission, result = .ok admission → ∃ purpose,
      Admits store b.remoteDeviceId purpose admission ∧
      ∃ c, Connection.Heard { b.connection with intentPhase := .awaitingDecision }
          (.connectionIntent purpose) c ∧
        Connection.Sent { c with intentPhase := .finished } (.connectionIntentResult true)
          connection') ∧
    (∀ e, result = .error e → connection'.control = false ∧ connection'.closed = true) ∧
    Wrote b.connection (match b.connection.receiveIntent.1 with
      | .error _ => []
      | .ok purpose => [.connectionIntentResult
          (purposeAllowed ((store .checked).entry b.remoteDeviceId) purpose)]) connection' := by
  unfold acceptInbound at hrun
  rcases hr : b.connection.receiveIntent with ⟨e | purpose, c⟩ <;> simp only [hr] at hrun <;>
    obtain ⟨⟨hwrote, -⟩, -, hheard⟩ := Connection.receiveIntent_spec hr h.ready h.control h.phase
  · cases hrun
    exact ⟨fun _ hok => (by cases hok), fun _ _ => ⟨rfl, rfl⟩, hwrote.poison⟩
  have hsame := (hheard purpose rfl).same
  rcases hs : c.sendIntentResult (purposeAllowed ((store .checked).entry b.remoteDeviceId) purpose)
    with ⟨e | ⟨⟩, c'⟩ <;> simp only [hs] at hrun <;>
    obtain ⟨⟨hsent, -⟩, hanswer⟩ := Connection.sendIntentResult_spec hs
      (by rw [hsame]; exact h.ready) (by rw [hsame]; exact h.control) (by rw [hsame]) <;>
    have hwrote : Wrote b.connection _ c' := hsent.of_send (by rw [hsame])
  · cases hrun
    exact ⟨fun _ hok => (by cases hok), fun _ _ => ⟨rfl, rfl⟩, hwrote.poison⟩
  split_ifs at hrun with hallowed
  · cases hrun
    exact ⟨fun _ hok => (by cases hok), fun _ _ => ⟨rfl, rfl⟩, hwrote.poison⟩
  rcases admit_cases store c' b.remoteDeviceId purpose
      ((store .captured).currentGeneration b.remoteDeviceId) with
    ⟨e, he⟩ | ⟨admission, hadmit, hgeneration, hentry⟩
  · cases he.symm.trans hrun
    exact ⟨fun _ hok => (by cases hok), fun _ _ => ⟨rfl, rfl⟩, hwrote.poison⟩
  · cases hadmit.symm.trans hrun
    refine ⟨fun _ hok => ?_, fun _ he => (by cases he), hwrote⟩
    cases hok
    obtain ⟨c₁, hsent₁, heq⟩ := hanswer rfl
    have hallowed' := Bool.not_eq_false _ ▸ hallowed
    rw [hallowed'] at hsent₁ heq
    obtain rfl : connection' = c₁ := heq
    exact ⟨purpose, ⟨hallowed', hgeneration, hentry⟩, c, hheard purpose rfl, hsent₁⟩

/-- What the first message of the acceptor and the store make of a dialer's setup. -/
def outboundOutcome (store : Moment → StoreInner) (deviceId : DeviceId) (purpose : ConnectionPurpose)
    (message : ControlMessage) : Except SessionError SessionAdmission :=
  if purposeAllowed ((store .checked).entry deviceId) purpose = false then
    .error (localPurposeError deviceId ((store .checked).entry deviceId) purpose)
  else
    match Connection.agreement message with
    | .error e => .error (.ofCall e)
    | .ok () => verdict store deviceId purpose

/-- What the first message of the dialer and the store make of an acceptor's setup. -/
def inboundOutcome (store : Moment → StoreInner) (deviceId : DeviceId) (message : ControlMessage) :
    Except SessionError SessionAdmission :=
  match Connection.statedPurpose message with
  | .error e => .error (.ofCall e)
  | .ok purpose =>
    if purposeAllowed ((store .checked).entry deviceId) purpose = false then
      .error (localPurposeError deviceId ((store .checked).entry deviceId) purpose)
    else verdict store deviceId purpose

section Calm

variable {frame rest : Bytes} {message : ControlMessage}

theorem prepareOutbound_calm (h : Fresh b) (habsorbs : Absorbs b.connection.send)
    (hflows : Flows b.connection.recv) (hahead : Tape.ahead b.connection.recv = frame ++ rest)
    (hdecode : decodeMessage frame = .ok message) :
    (prepareOutbound store b purpose).1 = outboundOutcome store b.remoteDeviceId purpose message := by
  unfold outboundOutcome
  rcases hallowed : purposeAllowed ((store .checked).entry b.remoteDeviceId) purpose with _ | _
  · rw [prepareOutbound_refused hallowed, if_pos rfl]
  have hwrite := (writeMessage_absorbs habsorbs h.ready
    (show (ControlMessage.connectionIntent purpose).Bounded from trivial)).1
  have hread := (readMessage_decodes hflows hahead hdecode).1
  rw [prepareOutbound_allowed hallowed, if_neg (by simp),
    Connection.requestIntent_eq purpose h.control h.phase]
  rcases hw : writeMessage b.connection.send (.connectionIntent purpose) with ⟨written, send⟩
  rcases hr : readMessage b.connection.recv with ⟨read, recv⟩
  rw [hw] at hwrite
  rw [hr] at hread
  obtain rfl : written = .ok () := hwrite
  obtain rfl : read = .ok message := hread
  simp only
  cases Connection.agreement message with
  | error e => rfl
  | ok _ => exact admit_fst

theorem acceptInbound_calm (h : Fresh b) (habsorbs : Absorbs b.connection.send)
    (hflows : Flows b.connection.recv) (hahead : Tape.ahead b.connection.recv = frame ++ rest)
    (hdecode : decodeMessage frame = .ok message) :
    (acceptInbound store b).1 = inboundOutcome store b.remoteDeviceId message := by
  have hread := (readMessage_decodes hflows hahead hdecode).1
  unfold acceptInbound inboundOutcome
  rw [Connection.receiveIntent_eq h.control h.phase]
  rcases hr : readMessage b.connection.recv with ⟨read, recv⟩
  rw [hr] at hread
  obtain rfl : read = .ok message := hread
  simp only
  cases Connection.statedPurpose message with
  | error e => rfl
  | ok purpose =>
    have hwrite := (writeMessage_absorbs habsorbs h.ready (show (ControlMessage.connectionIntentResult
      (purposeAllowed ((store .checked).entry b.remoteDeviceId) purpose)).Bounded from trivial)).1
    simp only
    rw [Connection.sendIntentResult_eq
      (c := { b.connection with intentPhase := .awaitingDecision, recv }) _ h.control rfl]
    simp only
    rcases hw : writeMessage b.connection.send (.connectionIntentResult (purposeAllowed
      ((store .checked).entry b.remoteDeviceId) purpose)) with ⟨written, send⟩
    rw [hw] at hwrite
    obtain rfl : written = .ok () := hwrite
    split_ifs <;> first | rfl | exact admit_fst

end Calm

/-- **What a dialer's setup makes of any peer.** Whatever the peer sends, the streams do and the trust
store says at the four moments:

* an admitted connection has carried the purpose, then the agreement of the peer, each in one frame
  and nothing else; the purpose is the one of the admission; and the store allowed it when it was
  checked, had the captured generation when that was checked again, and admitted the peer at the end;
* a connection that is not admitted is closed; at most its purpose was written, and nothing if the
  store did not allow it;
* on streams that do not fail the first message of the peer and the store decide the result. -/
theorem outbound_setup_exact (store : Moment → StoreInner)
    (b : Transport.BootstrappedConnection S R) (purpose : ConnectionPurpose) (h : Fresh b) :
    let result := prepareOutbound store b purpose
    (∀ admission, result.1 = .ok admission → purpose = admission.purpose ∧
      Admits store b.remoteDeviceId purpose admission ∧
      ∃ c, Connection.Sent { b.connection with intentPhase := .finished } (.connectionIntent purpose) c ∧
        Connection.Heard c (.connectionIntentResult true) result.2) ∧
    (∀ e, result.1 = .error e → result.2.control = false ∧ result.2.closed = true) ∧
    Wrote b.connection (if purposeAllowed ((store .checked).entry b.remoteDeviceId) purpose then
      [.connectionIntent purpose] else []) result.2 ∧
    (Absorbs b.connection.send → Flows b.connection.recv → ∀ frame rest message,
      Tape.ahead b.connection.recv = frame ++ rest → decodeMessage frame = .ok message →
      result.1 = outboundOutcome store b.remoteDeviceId purpose message) := by
  intro result
  obtain ⟨hok, herror, hwrote⟩ := prepareOutbound_spec h (show _ = (result.1, result.2) from rfl)
  refine ⟨fun admission hadmitted => ?_, herror, hwrote,
    fun habsorbs hflows frame rest message hahead hdecode =>
      prepareOutbound_calm h habsorbs hflows hahead hdecode⟩
  obtain ⟨hadmits, hdone⟩ := hok admission hadmitted
  exact ⟨admitEntry_purpose hadmits.entry, hadmits, hdone⟩

/-- A connection whose peer has sent one message, which arrives byte by byte. -/
def sampleBootstrapped (message : ControlMessage) :
    Transport.BootstrappedConnection ScriptedFile ScriptedFile :=
  ⟨⟨.ofContent [] [],
    .ofContent (frameBytes (encodeControl message)) (List.replicate 9 (.move 0)), true, .fresh, false⟩,
    .repeated 1, ⟨1, .repeated 2, "pc", "linux", []⟩⟩

/-- A stranger is dialled to pair, and agrees. -/
theorem stranger_agrees_to_pair :
    let b := sampleBootstrapped (.connectionIntentResult true)
    let result := prepareOutbound (fun _ => createdStore) b .pairing
    Fresh b ∧ result.1 = .ok .pairable ∧ Wrote b.connection [.connectionIntent .pairing] result.2 := by
  intro b result
  have hfresh : Fresh b := ⟨rfl, rfl, rfl⟩
  obtain ⟨-, -, hwrote, -⟩ := outbound_setup_exact (fun _ => createdStore) b .pairing hfresh
  exact ⟨hfresh, by decide +kernel, hwrote⟩

/-- **What an acceptor's setup makes of any peer.** Whatever the peer sends, the streams do and the
trust store says at the four moments:

* an admitted connection has carried a purpose of the peer, then the agreement to it, each in one
  frame and nothing else; the purpose is the one of the admission, and the store has admitted the peer
  for it at all moments;
* a connection that is not admitted is closed; at most an answer was written, and nothing before a
  purpose was heard; the answer is what the store allowed;
* on streams that do not fail the first message of the peer and the store decide the result. -/
theorem inbound_setup_exact (store : Moment → StoreInner) (b : Transport.BootstrappedConnection S R)
    (h : Fresh b) :
    let result := acceptInbound store b
    (∀ admission, result.1 = .ok admission →
      Admits store b.remoteDeviceId admission.purpose admission ∧
      ∃ c, Connection.Heard { b.connection with intentPhase := .awaitingDecision }
          (.connectionIntent admission.purpose) c ∧
        Connection.Sent { c with intentPhase := .finished } (.connectionIntentResult true) result.2) ∧
    (∀ e, result.1 = .error e → result.2.control = false ∧ result.2.closed = true) ∧
    Wrote b.connection (match b.connection.receiveIntent.1 with
      | .error _ => []
      | .ok purpose => [.connectionIntentResult
          (purposeAllowed ((store .checked).entry b.remoteDeviceId) purpose)]) result.2 ∧
    (Absorbs b.connection.send → Flows b.connection.recv → ∀ frame rest message,
      Tape.ahead b.connection.recv = frame ++ rest → decodeMessage frame = .ok message →
      result.1 = inboundOutcome store b.remoteDeviceId message) := by
  intro result
  obtain ⟨hok, herror, hwrote⟩ := acceptInbound_spec h (show _ = (result.1, result.2) from rfl)
  refine ⟨fun admission hadmitted => ?_, herror, hwrote,
    fun habsorbs hflows frame rest message hahead hdecode =>
      acceptInbound_calm h habsorbs hflows hahead hdecode⟩
  obtain ⟨purpose, hadmits, hdone⟩ := hok admission hadmitted
  obtain rfl := admitEntry_purpose hadmits.entry
  exact ⟨hadmits, hdone⟩

/-- A trusted peer that asks for a session, and is admitted to it. -/
theorem trusted_peer_admitted :
    let b := sampleBootstrapped (.connectionIntent .authorizedSession)
    let s := ((Call.trust samplePeer).run sampleBlake3 createdStore .ok).2
    let result := acceptInbound (fun _ => s) b
    Fresh b ∧ result.1 = .ok (.authorized ⟨0, samplePeer⟩) ∧
      Admits (fun _ => s) (.repeated 2) .authorizedSession (.authorized ⟨0, samplePeer⟩) := by
  intro b s result
  have hfresh : Fresh b := ⟨rfl, rfl, rfl⟩
  have hok : result.1 = .ok (.authorized ⟨0, samplePeer⟩) := by decide +kernel
  exact ⟨hfresh, hok, ((inbound_setup_exact (fun _ => s) b hfresh).1 _ hok).1⟩

end Exact

/-! ### The readings of a store that others write to -/

section Fence

variable {blake3 : Blake3} {s : StoreInner} {deviceId : DeviceId}
  {purpose : ConnectionPurpose} {admission : SessionAdmission}

/-- The store at each moment, if other tasks make these calls between the moments. -/
def readings (blake3 : Blake3) (s : StoreInner)
    (first second third : List (Call × IoOutcome)) : Moment → StoreInner
  | .captured => s
  | .checked => runCalls blake3 s first
  | .rechecked => runCalls blake3 s (first ++ second)
  | .decided => runCalls blake3 s (first ++ second ++ third)

/-- The state that a peer has to be in for a purpose. -/
def requiredState : ConnectionPurpose → Option TrustState
  | .authorizedSession => some .trusted
  | .pairing => none

theorem state_of_allowed (h : purposeAllowed (s.entry deviceId) purpose = true) :
    s.state deviceId = requiredState purpose := by
  unfold StoreInner.state
  generalize s.entry deviceId = entry at h
  rcases entry with _ | (peer | revoked) <;> cases purpose <;> first | rfl | cases h

theorem currentGeneration_lt_of_forget (post : List (Call × IoOutcome)) (h : GenerationsBounded s)
    {pre : List (Call × IoOutcome)} {io : IoOutcome}
    (hok : ((Call.forget deviceId).run blake3 (runCalls blake3 s pre) io).1 = .ok ()) :
    s.currentGeneration deviceId <
      (runCalls blake3 s (pre ++ (.forget deviceId, io) :: post)).currentGeneration deviceId := by
  obtain ⟨hpre, hle⟩ := h.runCalls_generation blake3 deviceId pre
  obtain ⟨hforgot, hmoved⟩ := hpre.commit blake3 (.forget deviceId) none io
  have hstep := hmoved deviceId
  rw [if_pos ⟨rfl, hok⟩] at hstep
  have hpost := (hforgot.runCalls_generation blake3 deviceId post).2
  rw [runCalls_append]
  exact (hle.trans_lt (by rw [hstep]; exact Nat.lt_succ_self _)).trans_le hpost

/-- As long as the generation that was captured holds and the peer is as the purpose requires, it has
been so ever since the purpose was checked. -/
theorem Admits.state_between (hs : GenerationsBounded s) {first calls : List (Call × IoOutcome)}
    (hallowed : purposeAllowed ((runCalls blake3 s first).entry deviceId) purpose = true)
    (hgeneration : (runCalls blake3 s (first ++ calls)).currentGeneration deviceId =
      s.currentGeneration deviceId)
    (hstate : (runCalls blake3 s (first ++ calls)).state deviceId = requiredState purpose)
    {pre post : List (Call × IoOutcome)} (hcalls : calls = pre ++ post) :
    (runCalls blake3 s (first ++ pre)).state deviceId = requiredState purpose := by
  subst hcalls
  obtain ⟨hfirst, hle⟩ := hs.runCalls_generation blake3 deviceId first
  rw [runCalls_append] at hgeneration hstate ⊢
  have hle' := (hfirst.runCalls_generation blake3 deviceId (pre ++ post)).2
  have hchecked := state_of_allowed hallowed
  have hend : (runCalls blake3 (runCalls blake3 s first) (pre ++ post)).standing deviceId =
      (runCalls blake3 s first).standing deviceId :=
    standing_eq_iff.mpr ⟨by omega, hstate.trans hchecked.symm⟩
  exact (standing_eq_iff.mp (standing_between hfirst hend)).2.trans hchecked

end Fence

/-- **An admission is fenced.** Take a store after any history, and let other tasks make any calls on
it between the readings of a setup, by whichever end of the connection. If the setup admits the
connection:

* no forget of the peer has succeeded between the capture of its generation and the second check;
* an authorization is for the generation that was captured and for the peer as the store had it at the
  decision;
* if at any later time the generation is still the captured one and the peer is still as the purpose
  requires, then it has been so at every moment since the purpose was checked. -/
theorem admission_fenced {S R : Type} [Sink S] [Tape R] [Clocked S] [Clocked R]
    (blake3 : Blake3) (fails : OpenStep → Bool) (existing : Option Bytes)
    (s₀ s : StoreInner) (hopen : openStore blake3 fails existing = .ok s₀) (history : List Event)
    (hrun : runEvents blake3 s₀ history = some s) (b : Transport.BootstrappedConnection S R)
    (hfresh : Fresh b) (first second third : List (Call × IoOutcome))
    (admission : SessionAdmission)
    (h : (∃ purpose, (prepareOutbound (readings blake3 s first second third) b purpose).1 =
        .ok admission) ∨
      (acceptInbound (readings blake3 s first second third) b).1 = .ok admission) :
    (∀ pre io post, first ++ second = pre ++ (.forget b.remoteDeviceId, io) :: post →
      ((Call.forget b.remoteDeviceId).run blake3 (runCalls blake3 s pre) io).1 ≠ .ok ()) ∧
    (∀ c, admission = .authorized c →
      c.trustGeneration = s.currentGeneration b.remoteDeviceId ∧
      (runCalls blake3 s (first ++ second ++ third)).entry b.remoteDeviceId = some (.trusted c.peer)) ∧
    (∀ later pre post, second ++ third ++ later = pre ++ post →
      (runCalls blake3 s (first ++ (second ++ third ++ later))).currentGeneration b.remoteDeviceId =
        s.currentGeneration b.remoteDeviceId →
      (runCalls blake3 s (first ++ (second ++ third ++ later))).state b.remoteDeviceId =
        requiredState admission.purpose →
      (runCalls blake3 s (first ++ pre)).state b.remoteDeviceId =
        requiredState admission.purpose) := by
  have hs : GenerationsBounded s := (openStore_generationsBounded hopen).run hrun
  have hadmits : Admits (readings blake3 s first second third) b.remoteDeviceId admission.purpose
      admission := by
    rcases h with ⟨purpose, hok⟩ | hok
    · obtain ⟨hadmits, -⟩ := (prepareOutbound_spec hfresh (Prod.ext hok rfl)).1 _ rfl
      rwa [admitEntry_purpose hadmits.entry] at hadmits
    · obtain ⟨purpose, hadmits, -⟩ := (acceptInbound_spec hfresh (Prod.ext hok rfl)).1 _ rfl
      rwa [admitEntry_purpose hadmits.entry] at hadmits
  refine ⟨fun pre io post hcalls hforget => ?_, ?_, fun later pre post hcalls hgeneration hstate =>
    Admits.state_between hs hadmits.allowed hgeneration hstate hcalls⟩
  · have hmoved := currentGeneration_lt_of_forget post hs hforget
    rw [← hcalls] at hmoved
    exact hmoved.ne' hadmits.generation
  · rintro c rfl
    exact admitEntry_eq_authorized hadmits.entry

/-- A peer that is trusted again, with another name, while it is admitted: the admission is for the
peer as it was at the decision, and for the generation that was captured. -/
theorem admitted_as_decided :
    let b := sampleBootstrapped (.connectionIntent .authorizedSession)
    let s := ((Call.trust samplePeer).run sampleBlake3 createdStore .ok).2
    let renamed : TrustedPeer := { samplePeer with deviceName := "laptop" }
    let calls : List (Call × IoOutcome) := [(.trust renamed, .ok)]
    let admission : SessionAdmission := .authorized ⟨0, renamed⟩
    (acceptInbound (readings sampleBlake3 s [] calls []) b).1 = .ok admission ∧
      s.currentGeneration (.repeated 2) = 0 ∧
      (runCalls sampleBlake3 s calls).entry (.repeated 2) = some (.trusted renamed) := by
  intro b s renamed calls admission
  have hok : (acceptInbound (readings sampleBlake3 s [] calls []) b).1 = .ok admission := by
    decide +kernel
  obtain ⟨-, hdecided, -⟩ := admission_fenced sampleBlake3 (fun _ => false) none createdStore s rfl
    [.call (.trust samplePeer) .ok] rfl b ⟨rfl, rfl, rfl⟩ [] calls [] admission (Or.inr hok)
  obtain ⟨hgeneration, hentry⟩ := hdecided _ rfl
  exact ⟨hok, hgeneration.symm, hentry⟩

end Rift.Session
