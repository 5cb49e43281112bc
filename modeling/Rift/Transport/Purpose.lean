import Rift.Protocol.Handshake
import Rift.Transport.Control

/-! # One purpose for each connection

The calls on a control stream in any order, against any peer and on streams that may fail. The purpose
of a connection is negotiated at most once: a dialer states it, or an acceptor that has read one
answers it, and never both.

The main results are `ControlCall.negotiates` and `one_purpose_per_connection`. -/

namespace Rift.Transport

open Rift.Lib Rift.Lib.Framing Rift.Protocol

/-! ### What was written -/

/-- The bytes of some messages. -/
def frames (messages : List ControlMessage) : Bytes :=
  (messages.map fun message => frameBytes (encodeControl message)).flatten

theorem frames_append (messages later : List ControlMessage) :
    frames (messages ++ later) = frames messages ++ frames later := by
  simp [frames]

@[simp] theorem frames_singleton (message : ControlMessage) :
    frames [message] = frameBytes (encodeControl message) := by
  simp [frames]

section Written

variable {S R : Type} [Sink S]

/-- Between the two connections these messages were written; if the connection is poisoned now, the
last of them perhaps not to its end. -/
structure Wrote (c : Connection S R) (messages : List ControlMessage) (c' : Connection S R) :
    Prop where
  ready : Sink.ready c'.send
  taken : ∃ y, y <+: frames messages ∧ Sink.taken c'.send = Sink.taken c.send ++ y ∧
    (c'.control = true → y = frames messages)

variable {c c' c'' : Connection S R} {messages later : List ControlMessage}

theorem Wrote.nothing (hready : Sink.ready c.send) (hsend : c'.send = c.send) : Wrote c [] c' :=
  ⟨hsend ▸ hready, [], List.nil_prefix, by rw [hsend, List.append_nil], fun _ => rfl⟩

theorem Wrote.congr (h : Wrote c messages c') (hsend : c''.send = c'.send)
    (hcontrol : c''.control = true → c'.control = true) : Wrote c messages c'' := by
  obtain ⟨hready, y, hy, htaken, hall⟩ := h
  exact ⟨hsend ▸ hready, y, hy, hsend ▸ htaken, fun hc => hall (hcontrol hc)⟩

theorem Wrote.poison (h : Wrote c messages c') : Wrote c messages c'.poison :=
  h.congr rfl fun hc => by cases hc

theorem Wrote.of_send (h : Wrote c messages c') (hsend : c.send = c''.send) :
    Wrote c'' messages c' := by
  obtain ⟨hready, y, hy, htaken, hall⟩ := h
  exact ⟨hready, y, hy, hsend ▸ htaken, hall⟩

theorem Wrote.trans (h : Wrote c messages c') (hcontrol : c'.control = true)
    (h' : Wrote c' later c'') : Wrote c (messages ++ later) c'' := by
  obtain ⟨-, y, -, htaken, hall⟩ := h
  obtain ⟨hready, x, ⟨rest, hx⟩, htaken', hall'⟩ := h'
  obtain rfl := hall hcontrol
  refine ⟨hready, frames messages ++ x, ⟨rest, ?_⟩, ?_, fun hc => ?_⟩
  · rw [List.append_assoc, hx, frames_append]
  · rw [htaken', htaken, List.append_assoc]
  · rw [hall' hc, frames_append]

end Written

/-! ### Single messages -/

namespace Connection

/-- The message was sent, all of it, and nothing else has happened. -/
structure Sent {S R : Type} [Sink S] (c : Connection S R) (message : ControlMessage)
    (c' : Connection S R) : Prop where
  same : c' = { c with send := c'.send }
  ready : Sink.ready c'.send
  taken : Sink.taken c'.send = Sink.taken c.send ++ frameBytes (encodeControl message)

/-- The message was read, in one frame, and nothing else has happened. -/
structure Heard {S R : Type} [Tape R] (c : Connection S R) (message : ControlMessage)
    (c' : Connection S R) : Prop where
  same : c' = { c with recv := c'.recv }
  ahead : ∃ frame, Tape.ahead c.recv = frame ++ Tape.ahead c'.recv ∧ decodeMessage frame = .ok message

theorem sendMessage_wrote {S R : Type} [Sink S] [Clocked S] {c c' : Connection S R}
    {wrap : FrameError → TransportError} {message : ControlMessage}
    {result : Except TransportError Unit} (h : c.sendMessage wrap message = (result, c'))
    (hready : Sink.ready c.send) (hcontrol : c.control = true) (hb : message.Bounded) :
    Wrote c [message] c' ∧ c'.intentPhase = c.intentPhase ∧ (result = .ok () → Sent c message c') := by
  obtain ⟨hready', y, hy, htaken, hall⟩ := writeMessage_taken hready hb
  unfold sendMessage at h
  rw [if_neg (by simp [hcontrol])] at h
  rcases hw : writeMessage c.send message with ⟨e | ⟨⟩, send⟩ <;>
    rw [hw] at hready' htaken hall h <;> cases h
  · exact ⟨⟨hready', y, by simpa using hy, htaken, fun hc => by cases hc⟩, rfl, fun hok => by cases hok⟩
  · obtain rfl := hall rfl
    exact ⟨⟨hready', _, by simp, htaken, fun _ => by simp⟩, rfl, fun _ => ⟨rfl, hready', htaken⟩⟩

theorem receiveMessage_keeps {S R : Type} [AsyncRead R] [Clocked R] {c : Connection S R}
    {wrap : FrameError → TransportError} {result : Except TransportError ControlMessage}
    {c' : Connection S R} (h : c.receiveMessage wrap = (result, c')) :
    c'.send = c.send ∧ c'.intentPhase = c.intentPhase ∧ (c'.control = true → c.control = true) := by
  unfold receiveMessage at h
  by_cases hcontrol : c.control = false
  · rw [if_pos hcontrol] at h
    cases h
    exact ⟨rfl, rfl, id⟩
  · rw [if_neg hcontrol] at h
    rcases hr : readMessage c.recv with ⟨e | message, recv⟩ <;> rw [hr] at h <;> cases h
    · exact ⟨rfl, rfl, fun hc => by cases hc⟩
    · exact ⟨rfl, rfl, fun _ => by simpa using hcontrol⟩

theorem receiveMessage_error {S R : Type} [AsyncRead R] [Clocked R] {c c' : Connection S R}
    {wrap : FrameError → TransportError} {e : TransportError}
    (h : c.receiveMessage wrap = (.error e, c')) : c'.control = false := by
  unfold receiveMessage at h
  split_ifs at h with hcontrol
  · cases h
    exact hcontrol
  · rcases hr : readMessage c.recv with ⟨e | message, recv⟩ <;> rw [hr] at h <;> cases h
    rfl

/-! ### Calls that leave the purpose alone -/

/-- The message states the purpose of a connection, or answers it. -/
def isPurpose : ControlMessage → Bool
  | .connectionIntent _ => true
  | .connectionIntentResult _ => true
  | _ => false

theorem isPurpose_ofPairing (message : PairingMessage) : isPurpose (.ofPairing message) = false := by
  cases message <;> rfl

theorem bounded_ofPairing (message : PairingMessage) :
    (ControlMessage.ofPairing message).Bounded := by
  cases message <;> trivial

section Plain

variable {S R : Type} [Sink S]

/-- Between the two connections these messages were written, and the negotiation has got to a phase;
a connection that is poisoned has no phase any more. -/
structure Reached (c : Connection S R) (messages : List ControlMessage) (phase : IntentPhase)
    (c' : Connection S R) : Prop where
  wrote : Wrote c messages c'
  phase : c'.control = true → c'.intentPhase = phase

/-- Nothing about a purpose was written, and the negotiation is where it was. -/
def Plain (c c' : Connection S R) : Prop :=
  ∃ messages, Reached c messages c.intentPhase c' ∧ messages.filter isPurpose = []

variable {c c₁ c₂ : Connection S R} {messages : List ControlMessage} {phase : IntentPhase}

theorem Reached.nothing (hready : Sink.ready c.send) (hsend : c₁.send = c.send)
    (hphase : c₁.control = true → c₁.intentPhase = phase) : Reached c [] phase c₁ :=
  ⟨.nothing hready hsend, hphase⟩

theorem Reached.quiet (h : Reached c messages phase c₁) (hsend : c₂.send = c₁.send)
    (hphase : c₂.intentPhase = c₁.intentPhase) (hcontrol : c₂.control = true → c₁.control = true) :
    Reached c messages phase c₂ :=
  ⟨h.wrote.congr hsend hcontrol, fun hc => hphase.trans (h.phase (hcontrol hc))⟩

theorem Reached.poison (h : Reached c messages phase c₁) : Reached c messages phase c₁.poison :=
  h.quiet rfl rfl fun hc => by cases hc

theorem Reached.of_poisoned (h : Reached c messages phase c₁) (hc : c₁.control = false)
    (phase' : IntentPhase) : Reached c messages phase' c₁ :=
  ⟨h.wrote, fun hcontrol => absurd (hc.symm.trans hcontrol) Bool.false_ne_true⟩

theorem Reached.of_send (h : Reached c messages phase c₁) (hsend : c.send = c₂.send) :
    Reached c₂ messages phase c₁ :=
  ⟨h.wrote.of_send hsend, h.phase⟩

theorem reached_of_sendMessage [Clocked S] {wrap : FrameError → TransportError}
    {message : ControlMessage} {result : Except TransportError Unit}
    (h : c.sendMessage wrap message = (result, c₁)) (hready : Sink.ready c.send)
    (hcontrol : c.control = true) (hb : message.Bounded) :
    Reached c [message] c.intentPhase c₁ := by
  obtain ⟨hw, hphase, -⟩ := sendMessage_wrote h hready hcontrol hb
  exact ⟨hw, fun _ => hphase⟩

theorem sendPairing_plain [Clocked S] (hready : Sink.ready c.send) (hcontrol : c.control = true)
    (message : PairingMessage) : Plain c (c.sendPairing message).2 := by
  rcases hs : c.sendPairing message with ⟨result, c₁⟩
  exact ⟨_, reached_of_sendMessage hs hready hcontrol (bounded_ofPairing message),
    by simp [isPurpose_ofPairing]⟩

variable [AsyncRead R] [Clocked R] {wrap : FrameError → TransportError}

theorem reached_of_receiveMessage {received : Except TransportError ControlMessage}
    (h : c.receiveMessage wrap = (received, c₁)) (hready : Sink.ready c.send) :
    Reached c [] c.intentPhase c₁ :=
  have hkept := receiveMessage_keeps h
  .nothing hready hkept.1 fun _ => hkept.2.1

theorem Reached.receive (h : Reached c messages phase c₁)
    {received : Except TransportError ControlMessage}
    (hr : c₁.receiveMessage wrap = (received, c₂)) : Reached c messages phase c₂ :=
  have hkept := receiveMessage_keeps hr
  h.quiet hkept.1 hkept.2.1 hkept.2.2

theorem receivePairing_plain (hready : Sink.ready c.send) : Plain c (c.receivePairing).2 := by
  refine ⟨[], ?_, rfl⟩
  unfold receivePairing
  rcases hr : c.receiveMessage .pairingFrame with ⟨e | message, c₁⟩ <;>
    have hreceived := reached_of_receiveMessage hr hready
  · exact hreceived
  · simp only
    split
    · exact hreceived
    · exact hreceived.poison

variable [Clocked S]

theorem ping_plain (hready : Sink.ready c.send) (hcontrol : c.control = true) (nonce : UInt64) :
    Plain c (c.ping nonce).2 := by
  refine ⟨[.ping nonce], ?_, rfl⟩
  unfold ping
  rcases hs : c.sendMessage (.control ∘ .frame) (.ping nonce) with ⟨e | ⟨⟩, c₁⟩ <;>
    have hsent := reached_of_sendMessage hs hready hcontrol trivial
  · exact hsent
  simp only
  rcases hr : c₁.receiveMessage (.control ∘ .frame) with ⟨e | message, c₂⟩ <;>
    have hreceived := hsent.receive hr
  · exact hreceived
  cases message with
  | pong actual =>
    simp only
    split_ifs
    · exact hreceived
    · exact hreceived.poison
  | _ => exact hreceived.poison

theorem respondToPing_plain (hready : Sink.ready c.send) : Plain c (c.respondToPing).2 := by
  unfold respondToPing
  rcases hr : c.receiveMessage (.control ∘ .frame) with ⟨e | message, c₁⟩ <;>
    have hreceived := reached_of_receiveMessage hr hready
  · exact ⟨_, hreceived, rfl⟩
  cases message with
  | ping nonce =>
    obtain ⟨hsend, hphase, -⟩ := receiveMessage_keeps hr
    simp only
    rcases hs : c₁.sendMessage (.control ∘ .frame) (.pong nonce) with ⟨sent, c₂⟩
    have hplain : Plain c c₂ := by
      by_cases hcontrol : c₁.control = true
      · refine ⟨[.pong nonce], ?_, rfl⟩
        rw [← hphase]
        exact (reached_of_sendMessage hs (hsend ▸ hready) hcontrol trivial).of_send hsend
      · have hpoisoned : c₁.sendMessage (.control ∘ .frame) (.pong nonce) =
            (.error .controlConnectionPoisoned, c₁) := if_pos (by simpa using hcontrol)
        rw [hpoisoned] at hs
        cases hs
        exact ⟨_, hreceived, rfl⟩
    cases sent <;> exact hplain
  | _ => exact ⟨_, hreceived.poison, rfl⟩

theorem serveOnce_plain (hready : Sink.ready c.send) (hcontrol : c.control = true) :
    Plain c (c.serveOnce).2 := by
  have hnothing : ∀ recv, Reached c [] c.intentPhase { c with recv } :=
    fun recv => .nothing hready rfl fun _ => rfl
  unfold serveOnce
  rw [if_neg (by simp [hcontrol])]
  rcases readExact 1 c.recv with ⟨e | first, recv⟩
  · exact ⟨_, (hnothing recv).poison, rfl⟩
  simp only
  rcases readMessage (⟨first, recv⟩ : Chain R) with ⟨e | message, chain⟩
  · exact ⟨_, (hnothing chain.second).poison, rfl⟩
  cases message with
  | ping nonce =>
    simp only
    generalize hs :
      { c with recv := chain.second }.sendMessage (.control ∘ .frame) (.pong nonce) = sent
    exact ⟨_, (reached_of_sendMessage hs hready hcontrol trivial).of_send rfl, rfl⟩
  | _ => exact ⟨_, (hnothing chain.second).poison, rfl⟩

end Plain

/-! ### Calls of the negotiation -/

theorem requireIntentPhase_of_eq {S R : Type} {c : Connection S R} {phase : IntentPhase}
    (hcontrol : c.control = true) (h : c.intentPhase = phase) : c.requireIntentPhase phase = (.ok (), c) := by
  unfold requireIntentPhase
  rw [if_neg (by simp [hcontrol]), if_neg (by simpa using h)]

theorem requireIntentPhase_of_ne {S R : Type} {c : Connection S R} {phase : IntentPhase}
    (hcontrol : c.control = true) (h : c.intentPhase ≠ phase) :
    c.requireIntentPhase phase = (.error .intentSequence, c.poison) := by
  unfold requireIntentPhase
  rw [if_neg (by simp [hcontrol]), if_pos h]
  rfl

theorem receiveMessage_ok {S R : Type} [Tape R] [Clocked R] {c c' : Connection S R}
    {wrap : FrameError → TransportError} {message : ControlMessage}
    (h : c.receiveMessage wrap = (.ok message, c')) : Heard c message c' := by
  unfold receiveMessage at h
  split_ifs at h
  · cases h
  · rcases hr : readMessage c.recv with ⟨e | received, recv⟩ <;> rw [hr] at h <;> cases h
    exact ⟨rfl, readMessage_ahead hr⟩

section Negotiation

variable {S R : Type} [Sink S] [Tape R] [Clocked S] [Clocked R] {c c' : Connection S R}
  {message : ControlMessage}

omit [Clocked S] in
theorem receiveIntent_spec {result : Except TransportError ConnectionPurpose}
    (h : c.receiveIntent = (result, c')) (hready : Sink.ready c.send) (hcontrol : c.control = true)
    (hphase : c.intentPhase = .fresh) :
    Reached c [] .awaitingDecision c' ∧ (∀ e, result = .error e → c'.control = false) ∧
      ∀ purpose, result = .ok purpose →
        Heard { c with intentPhase := .awaitingDecision } (.connectionIntent purpose) c' := by
  unfold receiveIntent at h
  rw [requireIntentPhase_of_eq hcontrol hphase] at h
  simp only at h
  generalize hr : { c with intentPhase := .awaitingDecision }.receiveMessage .intentFrame =
    received at h
  rcases received with ⟨e | message, c₁⟩ <;>
    have hreceived : Reached c [] .awaitingDecision c₁ :=
      (reached_of_receiveMessage hr hready).of_send rfl
  · cases h
    exact ⟨hreceived, fun _ _ => receiveMessage_error hr, fun _ hok => by cases hok⟩
  cases message with
  | connectionIntent purpose =>
    cases h
    refine ⟨hreceived, fun _ he => (by cases he), fun _ hok => ?_⟩
    cases hok
    exact receiveMessage_ok hr
  | _ =>
    cases h
    exact ⟨hreceived.poison, fun _ _ => rfl, fun _ hok => by cases hok⟩

omit [Tape R] [Clocked R] in
theorem sendIntentResult_spec {accepted : Bool} {result : Except TransportError Unit}
    (h : c.sendIntentResult accepted = (result, c')) (hready : Sink.ready c.send)
    (hcontrol : c.control = true) (hphase : c.intentPhase = .awaitingDecision) :
    Reached c [.connectionIntentResult accepted] .finished c' ∧ (result = .ok () →
      ∃ c₁, Sent { c with intentPhase := .finished } (.connectionIntentResult accepted) c₁ ∧
        c' = if accepted then c₁ else c₁.poison) := by
  unfold sendIntentResult at h
  rw [requireIntentPhase_of_eq hcontrol hphase] at h
  simp only at h
  generalize hs : { c with intentPhase := .finished }.sendMessage .intentFrame
    (.connectionIntentResult accepted) = sent at h
  rcases sent with ⟨e | ⟨⟩, c₁⟩ <;>
    have hsent : Reached c [.connectionIntentResult accepted] .finished c₁ :=
      (reached_of_sendMessage hs hready hcontrol trivial).of_send rfl
  · cases h
    exact ⟨hsent, fun hok => by cases hok⟩
  · cases h
    refine ⟨?_, fun _ => ⟨c₁, (sendMessage_wrote hs hready hcontrol trivial).2.2 rfl, rfl⟩⟩
    cases accepted with
    | true => exact hsent
    | false => exact hsent.poison

theorem requestIntent_spec {purpose : ConnectionPurpose} {result : Except TransportError Unit}
    (h : c.requestIntent purpose = (result, c')) (hready : Sink.ready c.send)
    (hcontrol : c.control = true) (hphase : c.intentPhase = .fresh) :
    Reached c [.connectionIntent purpose] .finished c' ∧ (result = .ok () →
      ∃ c₁, Sent { c with intentPhase := .finished } (.connectionIntent purpose) c₁ ∧
        Heard c₁ (.connectionIntentResult true) c') := by
  unfold requestIntent at h
  rw [requireIntentPhase_of_eq hcontrol hphase] at h
  simp only at h
  generalize hs : { c with intentPhase := .finished }.sendMessage .intentFrame
    (.connectionIntent purpose) = sent at h
  rcases sent with ⟨e | ⟨⟩, c₁⟩ <;>
    have hsent : Reached c [.connectionIntent purpose] .finished c₁ :=
      (reached_of_sendMessage hs hready hcontrol trivial).of_send rfl
  · cases h
    exact ⟨hsent, fun hok => by cases hok⟩
  simp only at h
  rcases hr : c₁.receiveMessage .intentFrame with ⟨e | message, c₂⟩ <;> rw [hr] at h <;>
    have hreceived := hsent.receive hr
  · cases h
    exact ⟨hreceived, fun hok => by cases hok⟩
  cases message with
  | connectionIntentResult accepted =>
    cases accepted with
    | true =>
      cases h
      exact ⟨hreceived, fun _ => ⟨c₁, (sendMessage_wrote hs hready hcontrol trivial).2.2 rfl,
        receiveMessage_ok hr⟩⟩
    | false =>
      cases h
      exact ⟨hreceived.poison, fun hok => by cases hok⟩
  | _ =>
    cases h
    exact ⟨hreceived.poison, fun hok => by cases hok⟩

/-! ### Calls step by step -/

/-- What the first message of the peer makes of a purpose that was stated. -/
def agreement : ControlMessage → Except TransportError Unit
  | .connectionIntentResult true => .ok ()
  | .connectionIntentResult false => .error .intentRejected
  | message => .error (.unexpectedIntentMessage .connectionIntentResult message.kind)

/-- The purpose that the first message of the peer states. -/
def statedPurpose : ControlMessage → Except TransportError ConnectionPurpose
  | .connectionIntent purpose => .ok purpose
  | message => .error (.unexpectedIntentMessage .connectionIntent message.kind)

theorem requestIntent_eq (purpose : ConnectionPurpose) (hcontrol : c.control = true)
    (hphase : c.intentPhase = .fresh) : c.requestIntent purpose =
      match writeMessage c.send (.connectionIntent purpose) with
      | (.error e, send) => { c with intentPhase := .finished, send }.fail
          (if Clocked.expired send then .controlTimeout else .intentFrame e)
      | (.ok (), send) =>
        match readMessage c.recv with
        | (.error e, recv) => { c with intentPhase := .finished, send, recv }.fail
            (if Clocked.expired recv then .controlTimeout else .intentFrame e)
        | (.ok message, recv) =>
          match agreement message with
          | .ok () => (.ok (), { c with intentPhase := .finished, send, recv })
          | .error e => { c with intentPhase := .finished, send, recv }.fail e := by
  unfold requestIntent
  rw [requireIntentPhase_of_eq hcontrol hphase]
  simp only [sendMessage, receiveMessage, hcontrol, Bool.true_eq_false, if_false]
  rcases writeMessage c.send (.connectionIntent purpose) with ⟨e | ⟨⟩, send⟩
  · rfl
  simp only [Bool.true_eq_false, if_false]
  rcases readMessage c.recv with ⟨e | message, recv⟩
  · rfl
  cases message with
  | connectionIntentResult accepted => cases accepted <;> rfl
  | _ => rfl

omit [Sink S] [Clocked S] in
theorem receiveIntent_eq (hcontrol : c.control = true) (hphase : c.intentPhase = .fresh) :
    c.receiveIntent =
      match readMessage c.recv with
      | (.error e, recv) => { c with intentPhase := .awaitingDecision, recv }.fail
          (if Clocked.expired recv then .controlTimeout else .intentFrame e)
      | (.ok message, recv) =>
        match statedPurpose message with
        | .ok purpose => (.ok purpose, { c with intentPhase := .awaitingDecision, recv })
        | .error e => { c with intentPhase := .awaitingDecision, recv }.fail e := by
  unfold receiveIntent
  rw [requireIntentPhase_of_eq hcontrol hphase]
  simp only [receiveMessage, hcontrol, Bool.true_eq_false, if_false]
  rcases readMessage c.recv with ⟨e | message, recv⟩
  · rfl
  cases message <;> rfl

omit [Tape R] [Clocked R] in
theorem sendIntentResult_eq (accepted : Bool) (hcontrol : c.control = true)
    (hphase : c.intentPhase = .awaitingDecision) : c.sendIntentResult accepted =
      match writeMessage c.send (.connectionIntentResult accepted) with
      | (.error e, send) => { c with intentPhase := .finished, send }.fail
          (if Clocked.expired send then .controlTimeout else .intentFrame e)
      | (.ok (), send) => (.ok (), if accepted then { c with intentPhase := .finished, send }
          else { c with intentPhase := .finished, send }.poison) := by
  unfold sendIntentResult
  rw [requireIntentPhase_of_eq hcontrol hphase]
  simp only [sendMessage, hcontrol, Bool.true_eq_false, if_false]
  rcases writeMessage c.send (.connectionIntentResult accepted) with ⟨e | ⟨⟩, send⟩ <;> rfl

end Negotiation

end Connection

open Connection

/-! ### Any sequence of calls -/

/-- How far the two ends have got with the purpose of the connection: what was written about it, and
whether a purpose was heard. -/
inductive Negotiated : IntentPhase → List ControlMessage → Bool → Prop
  | fresh : Negotiated .fresh [] false
  | heard : Negotiated .awaitingDecision [] true
  | stated (purpose : ConnectionPurpose) : Negotiated .finished [.connectionIntent purpose] false
  | answered (accepted : Bool) : Negotiated .finished [.connectionIntentResult accepted] true

section Calls

variable {S R : Type} [Sink S] [Clocked S] [Tape R] [Clocked R]

/-- The call has heard the purpose of the peer. -/
def hearsIntent (call : ControlCall) (result : Except TransportError Unit) : Bool :=
  match call, result with
  | .receiveIntent, .ok () => true
  | _, _ => false

/-- Some call has heard what the peer wants. -/
def heardIntent (outcomes : List (ControlCall × Except TransportError Unit)) : Bool :=
  outcomes.any fun outcome => hearsIntent outcome.1 outcome.2

/-- Call after call; with each its result. -/
def runControlCalls : List ControlCall → Connection S R →
    List (ControlCall × Except TransportError Unit) × Connection S R
  | [], c => ([], c)
  | call :: calls, c =>
    let (result, c) := call.run c
    let (outcomes, c) := runControlCalls calls c
    ((call, result) :: outcomes, c)

/-- **One call** that finds the stream whole writes about the purpose only what is due. -/
theorem ControlCall.negotiates {c : Connection S R} (hready : Sink.ready c.send)
    (hcontrol : c.control = true) {before : List ControlMessage} {heard : Bool}
    (h : Negotiated c.intentPhase before heard) (call : ControlCall) :
    ∃ messages phase, Reached c messages phase (call.run c).2 ∧
      Negotiated phase (before ++ messages.filter isPurpose)
        (heard || hearsIntent call (call.run c).1) := by
  have hplain : ∀ {c'}, Plain c c' → ∃ messages phase, Reached c messages phase c' ∧
      Negotiated phase (before ++ messages.filter isPurpose) (heard || false) := by
    rintro c' ⟨messages, hreached, hnone⟩
    exact ⟨messages, _, hreached, by simpa [hnone] using h⟩
  have hrefused : Plain c c.poison := ⟨[], .nothing hready rfl fun _ => rfl, rfl⟩
  cases call with
  | requestIntent purpose =>
    by_cases hphase : c.intentPhase = .fresh
    · rw [hphase] at h
      cases h
      exact ⟨_, _, (requestIntent_spec rfl hready hcontrol hphase).1, .stated purpose⟩
    · simp only [run, Connection.requestIntent, requireIntentPhase_of_ne hcontrol hphase]
      exact hplain hrefused
  | receiveIntent =>
    by_cases hphase : c.intentPhase = .fresh
    · simp only [run]
      rcases hr : c.receiveIntent with ⟨e | purpose, c₁⟩ <;>
        obtain ⟨hreached, hpoisoned, -⟩ := receiveIntent_spec hr hready hcontrol hphase
      · exact hplain ⟨[], hreached.of_poisoned (hpoisoned e rfl) _, rfl⟩
      · rw [hphase] at h
        cases h
        exact ⟨[], _, hreached, .heard⟩
    · simp only [run, Connection.receiveIntent, requireIntentPhase_of_ne hcontrol hphase]
      exact hplain hrefused
  | sendIntentResult accepted =>
    by_cases hphase : c.intentPhase = .awaitingDecision
    · rw [hphase] at h
      cases h
      exact ⟨_, _, (sendIntentResult_spec rfl hready hcontrol hphase).1, .answered accepted⟩
    · simp only [run, Connection.sendIntentResult, requireIntentPhase_of_ne hcontrol hphase]
      exact hplain hrefused
  | ping nonce => exact hplain (ping_plain hready hcontrol nonce)
  | respondToPing => exact hplain (respondToPing_plain hready)
  | sendPairing message => exact hplain (sendPairing_plain hready hcontrol message)
  | receivePairing => exact hplain (receivePairing_plain hready)
  | serve => exact hplain (serveOnce_plain hready hcontrol)

theorem hearsIntent_error (call : ControlCall) (e : TransportError) :
    hearsIntent call (.error e) = false := by
  cases call <;> rfl

theorem heardIntent_errors (calls : List ControlCall) (e : TransportError) :
    heardIntent (calls.map fun call => (call, .error e)) = false := by
  simp [heardIntent, List.any_map, Function.comp_def, hearsIntent_error]

theorem runControlCalls_poisoned {c : Connection S R} (h : c.control = false) :
    ∀ calls : List ControlCall,
      runControlCalls calls c = (calls.map fun call => (call, .error .controlConnectionPoisoned), c)
  | [] => rfl
  | call :: calls => by
    rw [runControlCalls, ControlCall.run_poisoned h]
    simp only [runControlCalls_poisoned h calls, List.map_cons]

/-- **Any sequence of calls** takes the negotiation on from where it is. -/
theorem runControlCalls_negotiates : ∀ (calls : List ControlCall) {c : Connection S R}
    {phase : IntentPhase} {before : List ControlMessage} {heard : Bool}, Sink.ready c.send →
    (c.control = true → c.intentPhase = phase) → Negotiated phase before heard →
    ∃ messages phase', Wrote c messages (runControlCalls calls c).2 ∧
      Negotiated phase' (before ++ messages.filter isPurpose)
        (heard || heardIntent (runControlCalls calls c).1) ∧
      ((runControlCalls calls c).2.control = true →
        (runControlCalls calls c).2.intentPhase = phase')
  | [], c, phase, before, heard, hready, hphase, h =>
    ⟨[], phase, .nothing hready rfl, by simpa [runControlCalls, heardIntent] using h, hphase⟩
  | call :: calls, c, phase, before, heard, hready, hphase, h => by
    by_cases hcontrol : c.control = true
    · rw [← hphase hcontrol] at h
      obtain ⟨messages, phase₁, ⟨hw, hphase₁⟩, h₁⟩ :=
        ControlCall.negotiates hready hcontrol h call
      obtain ⟨later, phase', hw', h', hphase'⟩ :=
        runControlCalls_negotiates calls hw.ready hphase₁ h₁
      have hheard : ∀ outcome outcomes, heardIntent (outcome :: outcomes) =
        (hearsIntent outcome.1 outcome.2 || heardIntent outcomes) := fun _ _ => rfl
      simp only [runControlCalls, hheard]
      rcases hc : (call.run c).2.control with _ | _
      · -- the call has poisoned the connection: nothing is written behind it
        rw [runControlCalls_poisoned hc]
        refine ⟨messages, phase₁, hw, ?_, hphase₁⟩
        rw [heardIntent_errors, Bool.or_false]
        exact h₁
      · refine ⟨messages ++ later, phase', hw.trans hc hw', ?_, hphase'⟩
        rw [List.filter_append, ← List.append_assoc, ← Bool.or_assoc]
        exact h'
    · have hpoisoned : c.control = false := by simpa using hcontrol
      rw [runControlCalls_poisoned hpoisoned]
      refine ⟨[], phase, .nothing hready rfl, ?_, hphase⟩
      rw [heardIntent_errors, Bool.or_false, List.filter_nil, List.append_nil]
      exact h

/-- **The purpose of a connection is negotiated at most once.** Whatever calls are made on a fresh
connection, whatever the peer sends and however the streams fail:

* what was written is whole frames, the last of them perhaps cut short if the connection is poisoned;
* of these at most one is about the purpose: the dialer's statement, if none was heard from the peer,
  or the answer to one that was heard;
* the phase of a connection that is not poisoned says which. -/
theorem one_purpose_per_connection (c : Connection S R) (hready : Sink.ready c.send)
    (hfresh : c.intentPhase = .fresh) (calls : List ControlCall) :
    let run := runControlCalls calls c
    ∃ messages phase, Wrote c messages run.2 ∧
      Negotiated phase (messages.filter isPurpose) (heardIntent run.1) ∧
      (run.2.control = true → run.2.intentPhase = phase) :=
  runControlCalls_negotiates calls hready (fun _ => hfresh) .fresh

end Calls

/-- A peer that states its purpose and sends a ping behind it, byte by byte. -/
theorem heard_purpose_answered_once :
    let recv : ScriptedFile := .ofContent (frameBytes (encodeControl (.connectionIntent .pairing)) ++
      frameBytes (encodeControl (.ping 7))) (List.replicate 20 (.move 0))
    let c : Connection ScriptedFile ScriptedFile := ⟨.ofContent [] [], recv, true, .fresh, false⟩
    let calls : List ControlCall :=
      [.receiveIntent, .sendIntentResult true, .respondToPing, .sendIntentResult false]
    let run := runControlCalls calls c
    run.2.control = false ∧ ∃ messages phase, Wrote c messages run.2 ∧
      Negotiated phase (messages.filter isPurpose) true := by
  intro recv c calls run
  obtain ⟨messages, phase, hw, hn, -⟩ := one_purpose_per_connection c rfl rfl calls
  have hheard : heardIntent run.1 = true := by decide +kernel
  exact ⟨by decide +kernel, messages, phase, hw, hheard ▸ hn⟩

end Rift.Transport
