import Rift.Protocol.Stream

/-! # Control calls on a connection

A bootstrapped connection and the calls on its control stream: the purpose of the connection, pings,
pairing messages, and the service of an admitted session, which answers pings and nothing else. Every
failure drops the stream and closes the connection, so no call after it can read or write.

A call that its deadline cuts short fails in the step that the deadline cut; the stream it was on says
so (`Clocked`).

The main results are `serveOnce_ping`, `serveOnce_stop`, `serve_pings` and
`ControlCall.run_poisoned`. -/

namespace Rift.Transport

open Rift.Lib Rift.Lib.Framing Rift.Protocol

/-! ### Connections -/

/-- Failures of control messages. -/
inductive ControlError
  | frame (error : FrameError)
  | unexpectedMessage (expected received : MessageKind)
  | nonceMismatch (expected actual : UInt64)
  deriving DecidableEq

/-- Failures of control calls. -/
inductive TransportError
  | intentRejected
  | intentFrame (error : FrameError)
  | unexpectedIntentMessage (expected received : MessageKind)
  | intentSequence
  | control (error : ControlError)
  | pairingFrame (error : FrameError)
  | unexpectedPairingMessage (received : MessageKind)
  | controlConnectionPoisoned
  | controlTimeout
  deriving DecidableEq

/-- Where the negotiation of the purpose stands. -/
inductive IntentPhase
  | fresh
  | awaitingDecision
  | finished
  deriving DecidableEq

/-- A stream that says whether a deadline cut its last step short. -/
class Clocked (S : Type) where
  expired : S → Bool

/-- A connection after the exchange of hellos. `control` says whether it still has its control stream;
the two halves of one that was dropped stay here as they were then. -/
structure Connection (S R : Type) where
  send : S
  recv : R
  control : Bool
  intentPhase : IntentPhase
  closed : Bool

namespace Connection

section Calls

variable {S R : Type} {α : Type}

/-- Drops the control stream and closes the connection. -/
def poison (c : Connection S R) : Connection S R := { c with control := false, closed := true }

/-- A call that fails poisons the connection. -/
def fail (c : Connection S R) (error : TransportError) : Except TransportError α × Connection S R :=
  (.error error, c.poison)

variable [AsyncRead R] [AsyncWrite S] [Clocked R] [Clocked S]

/-- Writes a message before the deadline; `wrap` is what a failed frame is reported as. -/
def sendMessage (c : Connection S R) (wrap : FrameError → TransportError)
    (message : ControlMessage) : Except TransportError Unit × Connection S R :=
  if c.control = false then (.error .controlConnectionPoisoned, c)
  else
    match writeMessage c.send message with
    | (.ok (), send) => (.ok (), { c with send })
    | (.error error, send) =>
      { c with send }.fail (if Clocked.expired send then .controlTimeout else wrap error)

/-- Reads a message before the deadline. -/
def receiveMessage (c : Connection S R) (wrap : FrameError → TransportError) :
    Except TransportError ControlMessage × Connection S R :=
  if c.control = false then (.error .controlConnectionPoisoned, c)
  else
    match readMessage c.recv with
    | (.ok message, recv) => (.ok message, { c with recv })
    | (.error error, recv) =>
      { c with recv }.fail (if Clocked.expired recv then .controlTimeout else wrap error)

/-! #### The purpose of the connection -/

/-- The negotiation is in this phase. -/
def requireIntentPhase (c : Connection S R) (phase : IntentPhase) :
    Except TransportError Unit × Connection S R :=
  if c.control = false then (.error .controlConnectionPoisoned, c)
  else if c.intentPhase ≠ phase then c.fail .intentSequence
  else (.ok (), c)

/-- Dialer gate: sends exactly one purpose and requires the matching coarse result. -/
def requestIntent (c : Connection S R) (purpose : ConnectionPurpose) :
    Except TransportError Unit × Connection S R :=
  match c.requireIntentPhase .fresh with
  | (.error e, c) => (.error e, c)
  | (.ok (), c) =>
    match { c with intentPhase := .finished }.sendMessage .intentFrame (.connectionIntent purpose) with
    | (.error e, c) => (.error e, c)
    | (.ok (), c) =>
      match c.receiveMessage .intentFrame with
      | (.error e, c) => (.error e, c)
      | (.ok (.connectionIntentResult true), c) => (.ok (), c)
      | (.ok (.connectionIntentResult false), c) => c.fail .intentRejected
      | (.ok message, c) =>
        c.fail (.unexpectedIntentMessage .connectionIntentResult message.kind)

/-- Acceptor gate: reads the purpose before the session layer applies trust policy. -/
def receiveIntent (c : Connection S R) : Except TransportError ConnectionPurpose × Connection S R :=
  match c.requireIntentPhase .fresh with
  | (.error e, c) => (.error e, c)
  | (.ok (), c) =>
    match { c with intentPhase := .awaitingDecision }.receiveMessage .intentFrame with
    | (.error e, c) => (.error e, c)
    | (.ok (.connectionIntent purpose), c) => (.ok purpose, c)
    | (.ok message, c) => c.fail (.unexpectedIntentMessage .connectionIntent message.kind)

/-- Sends a coarse result; a rejection closes after it was delivered or its deadline passed. -/
def sendIntentResult (c : Connection S R) (accepted : Bool) :
    Except TransportError Unit × Connection S R :=
  match c.requireIntentPhase .awaitingDecision with
  | (.error e, c) => (.error e, c)
  | (.ok (), c) =>
    match { c with intentPhase := .finished }.sendMessage .intentFrame
        (.connectionIntentResult accepted) with
    | (.error e, c) => (.error e, c)
    | (.ok (), c) => (.ok (), if accepted then c else c.poison)

/-! #### Pings -/

/-- Sends a ping and waits for the matching pong. -/
def ping (c : Connection S R) (nonce : UInt64) : Except TransportError Unit × Connection S R :=
  match c.sendMessage (.control ∘ .frame) (.ping nonce) with
  | (.error e, c) => (.error e, c)
  | (.ok (), c) =>
    match c.receiveMessage (.control ∘ .frame) with
    | (.error e, c) => (.error e, c)
    | (.ok (.pong actual), c) =>
      if actual = nonce then (.ok (), c) else c.fail (.control (.nonceMismatch nonce actual))
    | (.ok message, c) => c.fail (.control (.unexpectedMessage .pong message.kind))

/-- Waits for one ping and sends its matching pong. -/
def respondToPing (c : Connection S R) : Except TransportError UInt64 × Connection S R :=
  match c.receiveMessage (.control ∘ .frame) with
  | (.error e, c) => (.error e, c)
  | (.ok (.ping nonce), c) =>
    match c.sendMessage (.control ∘ .frame) (.pong nonce) with
    | (.error e, c) => (.error e, c)
    | (.ok (), c) => (.ok nonce, c)
  | (.ok message, c) => c.fail (.control (.unexpectedMessage .ping message.kind))

/-! #### Pairing -/

/-- Sends a pairing message. -/
def sendPairing (c : Connection S R) (message : PairingMessage) :
    Except TransportError Unit × Connection S R :=
  c.sendMessage .pairingFrame (.ofPairing message)

/-- Receives one pairing message; other control messages are refused. -/
def receivePairing (c : Connection S R) : Except TransportError PairingMessage × Connection S R :=
  match c.receiveMessage .pairingFrame with
  | (.error e, c) => (.error e, c)
  | (.ok message, c) =>
    match message.intoPairing with
    | .ok pairing => (.ok pairing, c)
    | .error received => c.fail (.unexpectedPairingMessage received)

/-! #### The service of an admitted session -/

/-- One turn: the first byte of a frame is awaited without a deadline, and put in front of the stream
again. -/
def serveOnce (c : Connection S R) : Except TransportError Unit × Connection S R :=
  if c.control = false then (.error .controlConnectionPoisoned, c)
  else
    match readExact 1 c.recv with
    | (.error _, recv) => { c with recv }.fail (.control (.frame .truncatedLengthPrefix))
    | (.ok first, recv) =>
      match readMessage (⟨first, recv⟩ : Chain R) with
      | (.ok (.ping nonce), frame) =>
        { c with recv := frame.second }.sendMessage (.control ∘ .frame) (.pong nonce)
      | (.ok message, frame) =>
        { c with recv := frame.second }.fail (.control (.unexpectedMessage .ping message.kind))
      | (.error error, frame) =>
        { c with recv := frame.second }.fail
          (if Clocked.expired frame.second then .controlTimeout else .control (.frame error))

/-- Turn after turn, at most `fuel` of them, until one fails. -/
def serveAuthorizedControl : ℕ → Connection S R → Option TransportError × Connection S R
  | 0, c => (none, c)
  | fuel + 1, c =>
    match c.serveOnce with
    | (.ok (), c) => serveAuthorizedControl fuel c
    | (.error error, c) => (some error, c)

end Calls

/-! ### One turn of the service -/

section Turns

variable {S R : Type} [Tape R]

open Tape

theorem chain_ahead {r : R} (h : Flows r) (hne : ahead r ≠ []) :
    ∃ first recv, readExact 1 r = (.ok first, recv) ∧ first.length = 1 ∧ Flows recv ∧
      ahead (⟨first, recv⟩ : Chain R) = ahead r := by
  have hpos := List.length_pos_of_ne_nil hne
  obtain ⟨recv, hread, hrest, hflows⟩ := readExact_ok h (n := 1) hpos
  refine ⟨_, recv, hread, by rw [List.length_take]; omega, hflows, ?_⟩
  rw [Chain.ahead_mk, hrest, List.take_append_drop]

theorem readMessage_chain {first : Bytes} {recv : R} (hl : first.length = 1) (hf : Flows recv) :
    Flows (readMessage (⟨first, recv⟩ : Chain R)).2.second ∧
      ahead (readMessage (⟨first, recv⟩ : Chain R)).2 =
        ahead (readMessage (⟨first, recv⟩ : Chain R)).2.second := by
  have heq : (readMessage (⟨first, recv⟩ : Chain R)).2 =
      (readFrame maxControlFrameLen (⟨first, recv⟩ : Chain R)).2 := by
    unfold readMessage
    rw [readValue_eq]
  rw [heq]
  refine ⟨hf.of_reads (Chain.reads_behind (c := ⟨first, recv⟩) (readFrame_reads _ _)), ?_⟩
  have hfirst : (readFrame maxControlFrameLen (⟨first, recv⟩ : Chain R)).2.first = [] :=
    Chain.first_readFrame (by rw [hl]; decide)
  rcases hc : (readFrame maxControlFrameLen (⟨first, recv⟩ : Chain R)).2 with ⟨first', recv'⟩
  rw [hc] at hfirst
  obtain rfl : first' = [] := hfirst
  rfl

variable [Sink S] [Clocked R] [Clocked S] {c : Connection S R}

/-- The service is on, and its streams do not fail. -/
structure Serving (c : Connection S R) : Prop where
  control : c.control = true
  recv : Flows c.recv
  send : Absorbs c.send
  ready : Sink.ready c.send

/-- **A ping is answered**, and its frame is all that is taken off the stream. -/
theorem serveOnce_ping (h : c.Serving) {frame rest : Bytes} {nonce : UInt64}
    (hahead : ahead c.recv = frame ++ rest) (hdecode : decodeMessage frame = .ok (.ping nonce)) :
    ∃ c', c.serveOnce = (.ok (), c') ∧ c'.Serving ∧ ahead c'.recv = rest ∧
      Sink.taken c'.send = Sink.taken c.send ++ frameBytes (encodeControl (.pong nonce)) := by
  obtain ⟨payload, hframe, -, -⟩ := decodeFrame_iff_frameBytes.mp hdecode
  have hne : ahead c.recv ≠ [] := by
    rw [hahead, hframe]
    exact List.append_ne_nil_of_left_ne_nil (frameBytes_ne_nil payload) _
  obtain ⟨first, recv, hread, hl, hflows, hchain⟩ := chain_ahead h.recv hne
  obtain ⟨hok, hrest, -⟩ :=
    readMessage_decodes (r := (⟨first, recv⟩ : Chain R)) (Chain.flows hflows)
      (hchain.trans hahead) hdecode
  obtain ⟨hflows', hsecond⟩ := readMessage_chain hl hflows
  obtain ⟨hw, hsend, hready, htaken⟩ := writeMessage_absorbs h.send h.ready
    (show (ControlMessage.pong nonce).Bounded from trivial)
  rcases hm : readMessage (⟨first, recv⟩ : Chain R) with ⟨message, chain⟩
  rw [hm] at hok hrest hflows' hsecond
  obtain rfl : message = .ok (.ping nonce) := hok
  rcases hs : writeMessage c.send (.pong nonce) with ⟨result, send⟩
  rw [hs] at hw hsend hready htaken
  obtain rfl : result = .ok () := hw
  refine ⟨{ c with send, recv := chain.second }, ?_, ⟨h.control, hflows', hsend, hready⟩,
    hsecond.symm.trans hrest, htaken⟩
  unfold serveOnce sendMessage
  simp only [h.control, hread, hm, hs, Bool.true_eq_false, if_false]

/-- **Anything else ends the service**, with nothing written and nothing taken that is behind the
frame. -/
theorem serveOnce_stop (h : c.Serving)
    (hno : ∀ frame rest nonce, ahead c.recv = frame ++ rest → decodeMessage frame ≠ .ok (.ping nonce)) :
    ∃ e c', c.serveOnce = (.error e, c') ∧ c'.control = false ∧ c'.send = c.send ∧
      ∃ k, ahead c'.recv = (ahead c.recv).drop k ∧
        k ≤ lengthLen + declaredLength ((ahead c.recv).take lengthLen) ∧
        (maxControlFrameLen < declaredLength ((ahead c.recv).take lengthLen) → k ≤ lengthLen) := by
  unfold serveOnce
  simp only [h.control, Bool.true_eq_false, if_false]
  by_cases hne : ahead c.recv = []
  · obtain ⟨k, hk, hrest⟩ := readExact_within 1 h.recv
    obtain ⟨recv, hread⟩ := readExact_short h.recv (n := 1) (by rw [hne]; decide)
    rw [hread] at hrest
    simp only [hread]
    refine ⟨_, _, rfl, rfl, rfl, k, hrest, ?_, fun _ => hk.trans (by decide)⟩
    exact hk.trans ((show 1 ≤ lengthLen by decide).trans (Nat.le_add_right _ _))
  · obtain ⟨first, recv, hread, hl, hflows, hchain⟩ := chain_ahead h.recv hne
    have hchain' : Flows (⟨first, recv⟩ : Chain R) := Chain.flows hflows
    obtain ⟨-, hsecond⟩ := readMessage_chain hl hflows
    obtain ⟨k, hk, hle, hlarge⟩ := readMessage_within hchain'
    rw [hchain] at hk hle hlarge
    rw [hsecond] at hk
    simp only [hread]
    rcases hm : readMessage (⟨first, recv⟩ : Chain R) with ⟨e | message, chain⟩ <;>
      rw [hm] at hk
    · exact ⟨_, _, rfl, rfl, rfl, k, hk, hle, hlarge⟩
    · have hok : (readMessage (⟨first, recv⟩ : Chain R)).1 = .ok message := by rw [hm]
      obtain ⟨frame, hahead, hdecode⟩ := decodes_of_readMessage hchain' hok
      rw [hchain] at hahead
      cases message with
      | ping nonce => exact absurd hdecode (hno frame _ nonce hahead)
      | _ => exact ⟨_, _, rfl, rfl, rfl, k, hk, hle, hlarge⟩

end Turns

/-! ### The whole service -/

/-- The stream is frames of these pings, and what is behind them does not start with one. -/
def LeadingPings (stream : Bytes) (nonces : List UInt64) (rest : Bytes) : Prop :=
  (∃ frames : List Bytes, stream = frames.flatten ++ rest ∧
    frames.map decodeMessage = nonces.map fun nonce => .ok (.ping nonce)) ∧
  ∀ frame more nonce, rest = frame ++ more → decodeMessage frame ≠ .ok (.ping nonce)

theorem exists_leadingPings (stream : Bytes) : ∃ nonces rest, LeadingPings stream nonces rest := by
  induction hn : stream.length using Nat.strongRecOn generalizing stream with
  | ind n ih =>
    by_cases h : ∃ frame more nonce, stream = frame ++ more ∧ decodeMessage frame = .ok (.ping nonce)
    · obtain ⟨frame, more, nonce, rfl, hdecode⟩ := h
      obtain ⟨payload, hframe, -, -⟩ := decodeFrame_iff_frameBytes.mp hdecode
      have hpos : 0 < frame.length := by
        rw [hframe]
        exact List.length_pos_of_ne_nil (frameBytes_ne_nil payload)
      rw [List.length_append] at hn
      obtain ⟨nonces, rest, ⟨frames, hmore, hframes⟩, hrest⟩ := ih more.length (by omega) more rfl
      refine ⟨nonce :: nonces, rest, ⟨frame :: frames, ?_, ?_⟩, hrest⟩
      · rw [hmore, List.flatten_cons, List.append_assoc]
      · rw [List.map_cons, List.map_cons, hdecode, hframes]
    · exact ⟨[], stream, ⟨[], rfl, rfl⟩,
        fun frame more nonce hs hd => h ⟨frame, more, nonce, hs, hd⟩⟩

/-- The frames that answer pings. -/
def pongs (nonces : List UInt64) : Bytes :=
  (nonces.map fun nonce => frameBytes (encodeControl (.pong nonce))).flatten

section Service

variable {S R : Type} [Sink S] [Tape R] [Clocked R] [Clocked S]

open Tape

/-- **The service answers the pings that lead the stream, and stops behind them.** -/
theorem serve_pings : ∀ (nonces : List UInt64) {rest : Bytes} {c : Connection S R} {fuel : ℕ},
    c.Serving → LeadingPings (ahead c.recv) nonces rest → nonces.length < fuel →
    ∃ e c', serveAuthorizedControl fuel c = (some e, c') ∧ c'.control = false ∧
      Sink.taken c'.send = Sink.taken c.send ++ pongs nonces ∧
      ∃ k, ahead c'.recv = rest.drop k ∧
        k ≤ lengthLen + declaredLength (rest.take lengthLen) ∧
        (maxControlFrameLen < declaredLength (rest.take lengthLen) → k ≤ lengthLen)
  | [], rest, c, fuel + 1, h, ⟨⟨frames, hahead, hframes⟩, hrest⟩, _ => by
    obtain rfl : frames = [] := by simpa using hframes
    obtain rfl : ahead c.recv = rest := hahead
    obtain ⟨e, c', hturn, hcontrol, hsend, hread⟩ := serveOnce_stop h hrest
    refine ⟨e, c', ?_, hcontrol, ?_, hread⟩
    · rw [serveAuthorizedControl, hturn]
    · rw [hsend, pongs, List.map_nil, List.flatten_nil, List.append_nil]
  | nonce :: nonces, rest, c, fuel + 1, h, ⟨⟨frames, hahead, hframes⟩, hrest⟩, hfuel => by
    rcases frames with _ | ⟨frame, frames⟩
    · cases hframes
    · rw [List.map_cons, List.map_cons, List.cons.injEq] at hframes
      rw [List.flatten_cons, List.append_assoc] at hahead
      obtain ⟨c₁, hturn, hserving, hahead₁, htaken₁⟩ := serveOnce_ping h hahead hframes.1
      obtain ⟨e, c', hserve, hcontrol, htaken, hread⟩ := serve_pings nonces hserving
        ⟨⟨frames, hahead₁, hframes.2⟩, hrest⟩ (Nat.lt_of_succ_lt_succ hfuel)
      refine ⟨e, c', ?_, hcontrol, ?_, hread⟩
      · rw [serveAuthorizedControl, hturn]
        exact hserve
      · rw [htaken, htaken₁, pongs, pongs, List.map_cons, List.flatten_cons, List.append_assoc]

end Service

end Connection

open Connection

/-! ### Calls on a poisoned connection -/

/-- A call on the control stream. -/
inductive ControlCall
  | requestIntent (purpose : ConnectionPurpose)
  | receiveIntent
  | sendIntentResult (accepted : Bool)
  | ping (nonce : UInt64)
  | respondToPing
  | sendPairing (message : PairingMessage)
  | receivePairing
  | serve
  deriving DecidableEq

section Poisoned

variable {S R : Type} [AsyncRead R] [AsyncWrite S] [Clocked R] [Clocked S]

/-- What a call makes of a connection. The service fails if its first turn does. -/
def ControlCall.run (c : Connection S R) : ControlCall → Except TransportError Unit × Connection S R
  | .requestIntent purpose => c.requestIntent purpose
  | .receiveIntent => let (result, c) := c.receiveIntent; (result.map fun _ => (), c)
  | .sendIntentResult accepted => c.sendIntentResult accepted
  | .ping nonce => c.ping nonce
  | .respondToPing => let (result, c) := c.respondToPing; (result.map fun _ => (), c)
  | .sendPairing message => c.sendPairing message
  | .receivePairing => let (result, c) := c.receivePairing; (result.map fun _ => (), c)
  | .serve => c.serveOnce

/-- **No call gets past a failed one**: it fails at once, and reads and writes nothing. -/
theorem ControlCall.run_poisoned {c : Connection S R} (h : c.control = false) (call : ControlCall) :
    call.run c = (.error .controlConnectionPoisoned, c) := by
  have hphase : ∀ phase, c.requireIntentPhase phase = (.error .controlConnectionPoisoned, c) :=
    fun phase => if_pos h
  have hsend : ∀ wrap message,
      c.sendMessage wrap message = (.error .controlConnectionPoisoned, c) :=
    fun wrap message => if_pos h
  have hreceive : ∀ wrap, c.receiveMessage wrap = (.error .controlConnectionPoisoned, c) :=
    fun wrap => if_pos h
  cases call with
  | requestIntent purpose => simp only [run, Connection.requestIntent, hphase]
  | receiveIntent =>
    simp only [run, Connection.receiveIntent, hphase]
    rfl
  | sendIntentResult accepted => simp only [run, Connection.sendIntentResult, hphase]
  | ping nonce => simp only [run, Connection.ping, hsend]
  | respondToPing =>
    simp only [run, Connection.respondToPing, hreceive]
    rfl
  | sendPairing message => exact hsend _ _
  | receivePairing =>
    simp only [run, Connection.receivePairing, hreceive]
    rfl
  | serve => exact if_pos h

end Poisoned

/-- **An authorized control stream answers pings and nothing else.** Of every stream, however it is
split, the longest run of pings in front is answered by the pongs with their nonces, in order; the
service ends at what is behind them, taking no more of it than a frame there declares; and the
connection is poisoned then, so that every later call fails and leaves both halves of the stream
alone. -/
theorem authorized_control_answers_pings {S R : Type} [Sink S] [Tape R] [Clocked R] [Clocked S]
    (c : Connection S R) (h : c.Serving) :
    (∃ nonces rest, LeadingPings (Tape.ahead c.recv) nonces rest) ∧
    ∀ nonces rest fuel, LeadingPings (Tape.ahead c.recv) nonces rest → nonces.length < fuel →
      ∃ e c', serveAuthorizedControl fuel c = (some e, c') ∧
        Sink.taken c'.send = Sink.taken c.send ++ pongs nonces ∧
        (∃ k, Tape.ahead c'.recv = rest.drop k ∧
          k ≤ lengthLen + declaredLength (rest.take lengthLen) ∧
          (maxControlFrameLen < declaredLength (rest.take lengthLen) → k ≤ lengthLen)) ∧
        c'.control = false ∧
        ∀ (calls : List ControlCall) (call : ControlCall),
          call.run (calls.foldl (fun c call => (call.run c).2) c') =
            (.error .controlConnectionPoisoned, c') := by
  refine ⟨exists_leadingPings _, fun nonces rest fuel hlead hfuel => ?_⟩
  obtain ⟨e, c', hserve, hcontrol, htaken, hread⟩ := serve_pings nonces h hlead hfuel
  refine ⟨e, c', hserve, htaken, hread, hcontrol, fun calls call => ?_⟩
  have hfold : calls.foldl (fun c call => (call.run c).2) c' = c' := by
    induction calls with
    | nil => rfl
    | cons first calls ih =>
      rw [List.foldl_cons, ControlCall.run_poisoned hcontrol]
      exact ih
  rw [hfold]
  exact ControlCall.run_poisoned hcontrol call

instance : Clocked ScriptedFile := ⟨fun _ => false⟩

/-- Two pings that arrive byte by byte, and a frame that is cut short behind them. -/
theorem two_pings_answered :
    let recv : ScriptedFile := .ofContent (frameBytes (encodeControl (.ping 7)) ++
      (frameBytes (encodeControl (.ping 9)) ++ [1])) (List.replicate 20 (.move 0))
    let c : Connection ScriptedFile ScriptedFile := ⟨.ofContent [] [], recv, true, .finished, false⟩
    c.Serving ∧ ∃ e c', serveAuthorizedControl 3 c = (some e, c') ∧
      Sink.taken c'.send = pongs [7, 9] ∧ c'.control = false := by
  intro recv c
  have hrecv : recv.Calm := fun s hs => ⟨0, List.eq_of_mem_replicate hs⟩
  have hsend : c.send.Calm := nofun
  have h : c.Serving := ⟨rfl, hrecv.flows, hsend.absorbs, rfl⟩
  have hlead : LeadingPings (Tape.ahead c.recv) [7, 9] [1] := by
    refine ⟨⟨[frameBytes (encodeControl (.ping 7)), frameBytes (encodeControl (.ping 9))], rfl, ?_⟩,
      fun frame more nonce hs hdecode => ?_⟩
    · have hd : ∀ nonce, decodeMessage (frameBytes (encodeControl (.ping nonce))) =
          .ok (.ping nonce) := fun nonce =>
        decodeFrame_frameBytes (length_encodeControl_le trivial)
          (takeControl_encode trivial)
      rw [List.map_cons, List.map_cons, hd, hd]
      rfl
    · obtain ⟨payload, rfl, -, -⟩ := decodeFrame_iff_frameBytes.mp hdecode
      have hlen := congrArg List.length hs
      rw [List.length_append, length_frameBytes, lengthLen] at hlen
      simp only [List.length_singleton] at hlen
      omega
  obtain ⟨e, c', hserve, htaken, -, hcontrol, -⟩ :=
    (authorized_control_answers_pings c h).2 [7, 9] [1] 3 hlead (by decide)
  exact ⟨h, e, c', hserve, htaken, hcontrol⟩

end Rift.Transport
