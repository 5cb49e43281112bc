import Rift.Lib.Dialogue
import Rift.Session.Setup

/-! # Two devices set up a session

A dialer and an acceptor as scripts of one dialogue over reliable channels: both exchange hellos, the
dialer states its purpose, the acceptor answers, and each reads its own trust store at its four
moments. The answers of the stores are arbitrary, so that any other work on them may go on.

The main definition is `Encounter.plan`, the main results `perform_dialScript`,
`perform_acceptScript` and `setup_agreement`. -/

namespace Rift.Session

open Rift.Lib Rift.Lib.Dialogue Rift.Core Rift.Protocol Rift.Transport Rift.Trust
open Rift.Transport.Connection (agreement statedPurpose)

/-! ### Scripts -/

/-- Why no session was set up. -/
inductive SetupFailure
  | bootstrap (error : EndpointError)
  | session (error : SessionError)
  deriving DecidableEq

/-- What a stage exchanges. -/
inductive Stage
  | hello
  | purpose
  deriving DecidableEq

/-- What a stream tells of the loss of its connection. -/
inductive Loss
  | frame (error : Protocol.FrameError)
  | timeout
  deriving DecidableEq

/-- How a loss shows at a stage. -/
def Loss.failure : Stage → Loss → SetupFailure
  | .hello, .frame e => .bootstrap (.handshake (.frame e))
  | .hello, .timeout => .bootstrap (.handshake .handshakeTimeout)
  | .purpose, .frame e => .session (.ofCall (.intentFrame e))
  | .purpose, .timeout => .session (.ofCall .controlTimeout)

/-- A script that asks for the trust store at its moments. -/
abbrev SetupScript :=
  Script ControlMessage Stage (fun _ : Moment => StoreInner) (Except SetupFailure SessionAdmission)

section Scripts

variable (localDeviceId remoteDeviceId : DeviceId) (metadata : HelloMetadata)

/-- Both say hello. -/
def helloScript (next : SetupScript) : SetupScript :=
  .send .hello (.hello (.ofMetadata localDeviceId metadata)) <|
  .receive .hello fun message =>
    match greeting remoteDeviceId message with
    | .error e => .done (.error (.bootstrap (.handshake e)))
    | .ok _ => next

/-- The trust is looked up again before the connection is admitted. -/
def admitScript (purpose : ConnectionPurpose) (generation : ℕ) : SetupScript :=
  .ask .rechecked fun store =>
  if store.currentGeneration remoteDeviceId ≠ generation then
    .done (.error (.session (.purposeNotAllowed remoteDeviceId purpose)))
  else
    .ask .decided fun store =>
    .done ((admitEntry remoteDeviceId generation purpose (store.entry remoteDeviceId)).mapError .session)

/-- The dialling side after the hellos. -/
def outboundScript (purpose : ConnectionPurpose) : SetupScript :=
  .ask .captured fun captured =>
  .ask .checked fun checked =>
  let generation := captured.currentGeneration remoteDeviceId
  let entry := checked.entry remoteDeviceId
  if purposeAllowed entry purpose = false then
    .done (.error (.session (localPurposeError remoteDeviceId entry purpose)))
  else
    .send .purpose (.connectionIntent purpose) <|
    .receive .purpose fun message =>
      match agreement message with
      | .error e => .done (.error (.session (.ofCall e)))
      | .ok () => admitScript remoteDeviceId purpose generation

/-- An acceptor that waits for a purpose. -/
def answerScript (generation : ℕ) : SetupScript :=
  .receive .purpose fun message =>
    match statedPurpose message with
    | .error e => .done (.error (.session (.ofCall e)))
    | .ok purpose =>
      .ask .checked fun checked =>
      let entry := checked.entry remoteDeviceId
      .send .purpose (.connectionIntentResult (purposeAllowed entry purpose)) <|
      if purposeAllowed entry purpose = false then
        .done (.error (.session (localPurposeError remoteDeviceId entry purpose)))
      else admitScript remoteDeviceId purpose generation

/-- The accepting side after the hellos. -/
def inboundScript : SetupScript :=
  .ask .captured fun captured =>
  answerScript remoteDeviceId (captured.currentGeneration remoteDeviceId)

/-- All that the dialling side does. -/
def dialScript (purpose : ConnectionPurpose) : SetupScript :=
  helloScript localDeviceId remoteDeviceId metadata (outboundScript remoteDeviceId purpose)

/-- All that the accepting side does. -/
def acceptScript : SetupScript :=
  helloScript localDeviceId remoteDeviceId metadata (inboundScript remoteDeviceId)

end Scripts

/-! ### The drivers -/

section Drivers

variable {S R : Type} [AsyncRead R] [AsyncWrite S] [Clocked R] [Clocked S]

/-- A connection that was dialled is bootstrapped and prepared. -/
def dialSession (store : Moment → StoreInner) (localDeviceId : DeviceId) (metadata : HelloMetadata)
    (connection : AuthenticatedConnection S R) (purpose : ConnectionPurpose) :
    Except SetupFailure SessionAdmission :=
  match (bootstrap localDeviceId metadata .openControl connection).1 with
  | .error e => .error (.bootstrap e)
  | .ok bootstrapped => (prepareOutbound store bootstrapped purpose).1.mapError .session

/-- A connection that came in is bootstrapped and accepted. -/
def acceptSession (store : Moment → StoreInner) (localDeviceId : DeviceId) (metadata : HelloMetadata)
    (connection : AuthenticatedConnection S R) : Except SetupFailure SessionAdmission :=
  match (bootstrap localDeviceId metadata .acceptControl connection).1 with
  | .error e => .error (.bootstrap e)
  | .ok bootstrapped => (acceptInbound store bootstrapped).1.mapError .session

/-- A setup goes by a script, on the control stream and with the readings of its trust store. -/
def performSetup (store : Moment → StoreInner) :
    SetupScript → ControlChannel S R → Except SetupFailure SessionAdmission
  | .done result, _ => result
  | .send stage message next, channel =>
    match writeMessage channel.send message with
    | (.ok (), send) => performSetup store next { channel with send }
    | (.error e, send) =>
      .error (Loss.failure stage (if Clocked.expired send then .timeout else .frame e))
  | .receive stage next, channel =>
    match readMessage channel.recv with
    | (.ok message, recv) => performSetup store (next message) { channel with recv }
    | (.error e, recv) =>
      .error (Loss.failure stage (if Clocked.expired recv then .timeout else .frame e))
  | .ask moment next, channel => performSetup store (next (store moment)) channel

end Drivers

/-! ### The drivers perform their scripts -/

section Performance

variable {S R : Type} [Sink S] [Tape R] [Clocked S] [Clocked R] {store : Moment → StoreInner}
  {b : Transport.BootstrappedConnection S R}

theorem performSetup_admitScript (connection : Connection S R) (channel : ControlChannel S R)
    (deviceId : DeviceId) (purpose : ConnectionPurpose) (generation : ℕ) :
    performSetup store (admitScript deviceId purpose generation) channel =
      (admitPeer store connection deviceId purpose generation).1.mapError .session := by
  unfold admitScript admitPeer
  simp only [performSetup]
  by_cases hgeneration : (store .rechecked).currentGeneration deviceId ≠ generation
  · simp only [if_pos hgeneration, performSetup]
    rfl
  · simp only [if_neg hgeneration, performSetup]
    cases admitEntry deviceId generation purpose ((store .decided).entry deviceId) <;> rfl

theorem performSetup_outboundScript (h : Fresh b) (purpose : ConnectionPurpose) :
    performSetup store (outboundScript b.remoteDeviceId purpose)
      ⟨b.connection.send, b.connection.recv⟩ =
        (prepareOutbound store b purpose).1.mapError .session := by
  unfold outboundScript
  simp only [performSetup]
  rcases hallowed : purposeAllowed ((store .checked).entry b.remoteDeviceId) purpose with _ | _
  · rw [prepareOutbound_refused hallowed]
    rfl
  rw [prepareOutbound_allowed hallowed, Connection.requestIntent_eq purpose h.control h.phase]
  simp only [Bool.true_eq_false, if_false, performSetup]
  rcases writeMessage b.connection.send (.connectionIntent purpose) with ⟨e | ⟨⟩, send⟩
  · simp only [Connection.fail]
    split_ifs <;> rfl
  simp only
  rcases readMessage b.connection.recv with ⟨e | message, recv⟩
  · simp only [Connection.fail]
    split_ifs <;> rfl
  simp only
  cases agreement message with
  | error e => rfl
  | ok _ => exact performSetup_admitScript _ _ _ _ _

theorem performSetup_inboundScript (h : Fresh b) :
    performSetup store (inboundScript b.remoteDeviceId)
      ⟨b.connection.send, b.connection.recv⟩ = (acceptInbound store b).1.mapError .session := by
  unfold inboundScript answerScript acceptInbound
  rw [Connection.receiveIntent_eq h.control h.phase]
  simp only [performSetup]
  rcases readMessage b.connection.recv with ⟨e | message, recv⟩
  · simp only [Connection.fail]
    split_ifs <;> rfl
  simp only
  cases statedPurpose message with
  | error e => rfl
  | ok purpose =>
    simp only [performSetup]
    rw [Connection.sendIntentResult_eq
      (c := { b.connection with intentPhase := .awaitingDecision, recv }) _ h.control rfl]
    rcases hallowed : purposeAllowed ((store .checked).entry b.remoteDeviceId) purpose with _ | _ <;>
      rcases writeMessage b.connection.send (.connectionIntentResult _) with ⟨e | ⟨⟩, send⟩
    · simp only [Connection.fail]
      split_ifs <;> rfl
    · rfl
    · simp only [Connection.fail]
      split_ifs <;> rfl
    · exact performSetup_admitScript _ _ _ _ _

section Hello

variable {connection : AuthenticatedConnection S R} {send : S} {recv : R} {localDeviceId : DeviceId}
  {metadata : HelloMetadata}

theorem performSetup_helloScript (hwithin : metadata.Within)
    (hstream : connection.stream = some (.ok (send, recv))) (direction : ControlDirection)
    (next : SetupScript) :
    performSetup store (helloScript localDeviceId connection.remoteDeviceId metadata next)
      ⟨send, recv⟩ =
        match (bootstrap localDeviceId metadata direction connection).1 with
        | .error e => .error (.bootstrap e)
        | .ok b => performSetup store next ⟨b.connection.send, b.connection.recv⟩ := by
  unfold bootstrap AuthenticatedConnection.control helloScript
  simp only [hstream, exchangeHelloWithTimeout_of_within hwithin, performSetup]
  rcases writeMessage send (.hello (.ofMetadata localDeviceId metadata)) with ⟨e | ⟨⟩, send'⟩
  · simp only
    split_ifs <;> rfl
  simp only
  rcases readMessage recv with ⟨e | message, recv'⟩
  · simp only
    split_ifs <;> rfl
  simp only
  cases greeting connection.remoteDeviceId message <;> rfl

theorem bootstrap_fresh (hstream : connection.stream = some (.ok (send, recv)))
    (hready : Sink.ready send) {direction : ControlDirection}
    (h : (bootstrap localDeviceId metadata direction connection).1 = .ok b) :
    Fresh b ∧ b.remoteDeviceId = connection.remoteDeviceId := by
  obtain ⟨hcontrol, hphase, send', recv', hstream', hx⟩ := bootstrap_ok (Prod.ext h rfl)
  cases hstream.symm.trans hstream'
  obtain ⟨hready', -, -, -, hidentity⟩ := exchangeHello_ok hready hx
  exact ⟨⟨hcontrol, hphase, hready'⟩, hidentity⟩

/-- **A dialer performs its script**, on any streams. -/
theorem perform_dialScript (hwithin : metadata.Within)
    (hstream : connection.stream = some (.ok (send, recv))) (hready : Sink.ready send)
    (purpose : ConnectionPurpose) :
    performSetup store (dialScript localDeviceId connection.remoteDeviceId metadata purpose)
      ⟨send, recv⟩ = dialSession store localDeviceId metadata connection purpose := by
  unfold dialScript dialSession
  rw [performSetup_helloScript hwithin hstream .openControl]
  rcases hb : (bootstrap localDeviceId metadata .openControl connection).1 with e | b
  · rfl
  · obtain ⟨hfresh, hidentity⟩ := bootstrap_fresh hstream hready hb
    simp only [← hidentity]
    exact performSetup_outboundScript hfresh purpose

/-- **An acceptor performs its script**, on any streams. -/
theorem perform_acceptScript (hwithin : metadata.Within)
    (hstream : connection.stream = some (.ok (send, recv))) (hready : Sink.ready send) :
    performSetup store (acceptScript localDeviceId connection.remoteDeviceId metadata)
      ⟨send, recv⟩ = acceptSession store localDeviceId metadata connection := by
  unfold acceptScript acceptSession
  rw [performSetup_helloScript hwithin hstream .acceptControl]
  rcases hb : (bootstrap localDeviceId metadata .acceptControl connection).1 with e | b
  · rfl
  · obtain ⟨hfresh, hidentity⟩ := bootstrap_fresh hstream hready hb
    simp only [← hidentity]
    exact performSetup_inboundScript hfresh

end Hello

end Performance

/-! ### Two devices -/

/-- A dialer, which is the first party, and an acceptor, each authenticated to the other by the
network, with any purpose and any readings of their trust stores. -/
structure Encounter where
  deviceId : Party → DeviceId
  metadata : Party → HelloMetadata
  within : ∀ p, (metadata p).Within
  purpose : ConnectionPurpose
  store : Party → Moment → StoreInner

example (purpose : ConnectionPurpose) (store : Party → Moment → StoreInner) : Encounter where
  deviceId
    | .first => .repeated 1
    | .second => .repeated 2
  metadata _ := ⟨"phone", "linux", [.pairingV1]⟩
  within _ := by decide
  purpose := purpose
  store := store

instance : Nonempty Loss := ⟨.timeout⟩

namespace Encounter

variable (encounter : Encounter)

/-- What each of the two does. -/
def script : Party → SetupScript
  | .first => dialScript (encounter.deviceId .first) (encounter.deviceId .second)
      (encounter.metadata .first) encounter.purpose
  | .second => acceptScript (encounter.deviceId .second) (encounter.deviceId .first)
      (encounter.metadata .second)

/-- A side answers with the readings of its store; it closes the connection when it fails. -/
def setting : Setting Stage Loss (fun _ : Moment => StoreInner)
    (Except SetupFailure SessionAdmission) where
  answer p moment := encounter.store p moment
  lost stage loss := .error (loss.failure stage)
  closes
    | .ok _ => false
    | .error _ => true

/-- The store of a side allows the purpose when it is checked. -/
def allows (p : Party) : Bool :=
  purposeAllowed ((encounter.store p .checked).entry (encounter.deviceId p.other)) encounter.purpose

def hello (p : Party) : ControlMessage :=
  .hello (.ofMetadata (encounter.deviceId p) (encounter.metadata p))

abbrev Done := List (Act ControlMessage fun _ : Moment => StoreInner)

/-- A party reads its store. -/
def asks (p : Party) (moment : Moment) : Act ControlMessage fun _ : Moment => StoreInner :=
  .asked moment (encounter.store p moment)

/-- The generation has not moved between the first and the third reading. -/
def current (p : Party) : Bool :=
  (encounter.store p .rechecked).currentGeneration (encounter.deviceId p.other) =
    (encounter.store p .captured).currentGeneration (encounter.deviceId p.other)

/-- What a side does once both allow the purpose. -/
def admitting (p : Party) : Done :=
  encounter.asks p .rechecked :: if encounter.current p then [encounter.asks p .decided] else []

/-- What a side does, if the dialer gets to state the purpose. -/
def negotiating : Party → Done
  | .first => [.sent (.connectionIntent encounter.purpose),
      .received (.connectionIntentResult (encounter.allows .second))]
  | .second => [.received (.connectionIntent encounter.purpose), encounter.asks .second .checked,
      .sent (.connectionIntentResult (encounter.allows .second))]

/-- What a side does before that. -/
def opening : Party → Done
  | .first => [.sent (encounter.hello .first), .received (encounter.hello .second),
      encounter.asks .first .captured, encounter.asks .first .checked]
  | .second => [.sent (encounter.hello .second), .received (encounter.hello .first),
      encounter.asks .second .captured]

/-- All that a party does if nothing is lost. -/
def trace (p : Party) : Done :=
  encounter.opening p ++
    if encounter.allows .first then
      encounter.negotiating p ++ if encounter.allows .second then encounter.admitting p else []
    else []

/-- How a side ends, if the dialer gets to state the purpose. -/
def outcome (p : Party) : Except SetupFailure SessionAdmission :=
  match p with
  | .first => (outboundOutcome (encounter.store .first) (encounter.deviceId .second)
      encounter.purpose (.connectionIntentResult (encounter.allows .second))).mapError .session
  | .second => (inboundOutcome (encounter.store .second) (encounter.deviceId .first)
      (.connectionIntent encounter.purpose)).mapError .session

/-- Where a side is when it has done its trace. -/
def final : Party → SetupScript
  | .first => .done (encounter.outcome .first)
  | .second =>
    if encounter.allows .first then .done (encounter.outcome .second)
    else answerScript (encounter.deviceId .first)
      ((encounter.store .second .captured).currentGeneration (encounter.deviceId .first))

theorem greeting_hello (p : Party) : greeting (encounter.deviceId p) (encounter.hello p) =
    .ok (.ofMetadata (encounter.deviceId p) (encounter.metadata p)) := by
  have hversion : (UInt16.ofNat protocolVersion).toNat = protocolVersion := by decide
  simp [greeting, hello, Hello.ofMetadata, hversion]

theorem follows_admitting (p : Party) : Follows (encounter.setting.answer p)
    (admitScript (encounter.deviceId p.other) encounter.purpose
      ((encounter.store p .captured).currentGeneration (encounter.deviceId p.other)))
    (encounter.admitting p)
    (.done ((verdict (encounter.store p) (encounter.deviceId p.other) encounter.purpose).mapError
      .session)) := by
  unfold admitScript admitting verdict current
  refine .ask ?_
  change Follows _ (if (encounter.store p .rechecked).currentGeneration _ ≠ _ then _ else _) _ _
  by_cases h : (encounter.store p .rechecked).currentGeneration (encounter.deviceId p.other) =
      (encounter.store p .captured).currentGeneration (encounter.deviceId p.other)
  · simp only [h, ne_eq, not_true_eq_false, if_false, decide_true, if_true]
    exact .ask (.refl _)
  · simp only [h, ne_eq, not_false_eq_true, if_true, decide_false, Bool.false_eq_true, if_false]
    exact .refl _

theorem follows_dialer : Follows (encounter.setting.answer .first) (encounter.script .first)
    (encounter.trace .first) (encounter.final .first) := by
  unfold script dialScript helloScript trace opening final outcome outboundOutcome
  refine .send (.receive ?_)
  simp only [encounter.greeting_hello .second]
  unfold outboundScript
  refine .ask (.ask ?_)
  rcases hfirst : encounter.allows .first with _ | _ <;>
    have hchecked : purposeAllowed ((encounter.store .first .checked).entry (encounter.deviceId .second))
      encounter.purpose = _ := hfirst
  · simp only [setting, hchecked, if_true]
    exact .refl _
  simp only [setting, hchecked, Bool.true_eq_false, if_false, if_true]
  refine .send (.receive ?_)
  rcases encounter.allows .second with _ | _
  · exact .refl _
  · exact encounter.follows_admitting .first

theorem follows_acceptor : Follows (encounter.setting.answer .second) (encounter.script .second)
    (encounter.trace .second) (encounter.final .second) := by
  unfold script acceptScript helloScript trace opening final outcome inboundOutcome
  refine .send (.receive ?_)
  simp only [encounter.greeting_hello .first]
  unfold inboundScript
  refine .ask ?_
  rcases encounter.allows .first with _ | _
  · exact .refl _
  simp only [if_true]
  unfold answerScript
  refine .receive ?_
  simp only [statedPurpose]
  refine .ask (.send ?_)
  rcases hsecond : encounter.allows .second with _ | _ <;>
    have hchecked : purposeAllowed ((encounter.store .second .checked).entry (encounter.deviceId .first))
      encounter.purpose = _ := hsecond
  · simp only [setting, hchecked, if_true]
    exact .refl _
  · simp only [setting, hchecked, Bool.true_eq_false, if_false, if_true]
    exact encounter.follows_admitting .second

/-! #### The plan of an encounter -/

theorem sentBy_admitting (p : Party) : sentBy (encounter.admitting p) = [] := by
  unfold admitting asks
  cases encounter.current p <;> rfl

theorem receivedBy_admitting (p : Party) : receivedBy (encounter.admitting p) = [] := by
  unfold admitting asks
  cases encounter.current p <;> rfl

theorem receivedBy_trace (p : Party) :
    receivedBy (encounter.trace p) = sentBy (encounter.trace p.other) := by
  unfold trace
  cases p <;> cases encounter.allows .first <;> cases encounter.allows .second <;>
    simp [Party.other, opening, negotiating, asks, sentBy, receivedBy, sentBy_admitting,
      receivedBy_admitting]

theorem leads_admitting (p : Party) {k credit : ℤ} {waits : Prop} (h : waits → k ≤ credit) :
    Leads k waits credit (encounter.admitting p) := by
  unfold admitting asks
  cases encounter.current p <;> exact h

theorem outcome_refused (h : encounter.allows .first = false) :
    encounter.outcome .first = .error (.session (localPurposeError (encounter.deviceId .second)
      ((encounter.store .first .checked).entry (encounter.deviceId .second)) encounter.purpose)) := by
  have hchecked : purposeAllowed ((encounter.store .first .checked).entry (encounter.deviceId .second))
      encounter.purpose = false := h
  unfold outcome outboundOutcome
  rw [if_pos hchecked]
  rfl

theorem not_waits_done (v : Except SetupFailure SessionAdmission) :
    ¬(Script.done v : SetupScript).Waits := by
  rintro ⟨l, next, heq⟩
  cases heq

theorem leads_dialer :
    Leads Party.first.lead (encounter.final .first).Waits 0 (encounter.trace .first) := by
  have hend (waits : Prop) (h : ¬waits) (credit : ℤ) : waits → Party.first.lead ≤ credit :=
    fun hw => absurd hw h
  refine ⟨by decide, ?_⟩
  cases encounter.allows .first with
  | false => exact hend _ (not_waits_done _) _
  | true =>
    refine ⟨by decide, ?_⟩
    cases encounter.allows .second with
    | false => exact hend _ (not_waits_done _) _
    | true => exact encounter.leads_admitting .first (hend _ (not_waits_done _) _)

theorem leads_acceptor :
    Leads Party.second.lead (encounter.final .second).Waits 0 (encounter.trace .second) := by
  unfold trace
  refine ⟨by decide, ?_⟩
  cases encounter.allows .first with
  | false => exact fun _ => by decide
  | true =>
    refine ⟨by decide, ?_⟩
    cases encounter.allows .second with
    | false => exact fun _ => by decide
    | true => exact encounter.leads_admitting .second fun _ => by decide

/-- **What both sides do**, whatever their stores say. -/
def plan : Plan encounter.setting encounter.script where
  trace := encounter.trace
  final := encounter.final
  follows p := by
    cases p
    · exact encounter.follows_dialer
    · exact encounter.follows_acceptor
  dual p := by
    rw [encounter.receivedBy_trace p]
  ends p := by
    cases p with
    | first => exact Or.inl ⟨_, rfl⟩
    | second =>
      unfold final
      cases hfirst : encounter.allows .first with
      | true => exact Or.inl ⟨_, rfl⟩
      | false =>
        -- The acceptor waits for a purpose; the dialer has closed without one.
        refine Or.inr ⟨⟨_, _, rfl⟩, encounter.receivedBy_trace .second, _, rfl, ?_⟩
        rw [encounter.outcome_refused hfirst]
        rfl
  leads p := by
    cases p
    · exact encounter.leads_dialer
    · exact encounter.leads_acceptor

end Encounter

/-- **A setup ends in agreement.** A dialer and an acceptor that the network has authenticated to each
other, with any purpose and any readings of their trust stores, under any schedule:

* the script of a side is what its driver performs, on any streams;
* the dialer ends as its store and the answer of the acceptor's store decide; in particular it is
  refused by its own store before it states a purpose, told of a refusal of the acceptor as such and
  never as a failure of the network, or it ends with the verdict of its own store;
* the acceptor ends as its store decides about the purpose that the dialer has stated; if the dialer's
  own store refused it, the acceptor is told that the connection is lost;
* each side has done a beginning of its trace, and when nobody can move both have ended. -/
theorem setup_agreement (encounter : Encounter) (moves : List (Move Loss)) :
    let t := (Talk.start encounter.script).run encounter.setting moves
    (∀ (S R : Type) [Sink S] [Tape R] [Clocked S] [Clocked R] (connection : AuthenticatedConnection S R)
      (send : S) (recv : R), connection.stream = some (.ok (send, recv)) → Sink.ready send →
      (connection.remoteDeviceId = encounter.deviceId .second →
        performSetup (encounter.store .first) (encounter.script .first) ⟨send, recv⟩ =
          dialSession (encounter.store .first) (encounter.deviceId .first) (encounter.metadata .first)
            connection encounter.purpose) ∧
      (connection.remoteDeviceId = encounter.deviceId .first →
        performSetup (encounter.store .second) (encounter.script .second) ⟨send, recv⟩ =
          acceptSession (encounter.store .second) (encounter.deviceId .second)
            (encounter.metadata .second) connection)) ∧
    (∀ result, t.script .first = .done result →
      result = (outboundOutcome (encounter.store .first) (encounter.deviceId .second)
        encounter.purpose (.connectionIntentResult (encounter.allows .second))).mapError .session) ∧
    (∀ result, t.script .second = .done result →
      if encounter.allows .first then
        result = (inboundOutcome (encounter.store .second) (encounter.deviceId .first)
          (.connectionIntent encounter.purpose)).mapError .session
      else ∃ stage loss, result = .error (Loss.failure stage loss)) ∧
    (∀ p, t.log p <+: encounter.trace p) ∧
    (t.Stuck encounter.setting → ∀ p, ∃ result, t.script p = .done result) := by
  intro t
  have h : Sound encounter.plan t := encounter.plan.sound moves
  have hall (p : Party) : sentBy (encounter.plan.trace p) = receivedBy (encounter.plan.trace p.other) := by
    have htrace := encounter.receivedBy_trace p.other
    rw [Party.other_other] at htrace
    exact htrace.symm
  refine ⟨?_, fun result hdone => ?_, fun result hdone => ?_, h.log_begins, fun hstuck p =>
    h.done_of_stuck hstuck p⟩
  · intro S R _ _ _ _ connection send recv hstream hready
    refine ⟨fun hidentity => ?_, fun hidentity => ?_⟩
    · rw [← perform_dialScript (encounter.within .first) hstream hready encounter.purpose, hidentity]
      rfl
    · rw [← perform_acceptScript (encounter.within .second) hstream hready, hidentity]
      rfl
  · rcases h.ended hdone with ⟨-, hfinal⟩ | hl
    · cases hfinal
      rfl
    · exact absurd (hl.waits h (hall .first)) (Encounter.not_waits_done _)
  · rcases h.ended hdone with ⟨-, hfinal⟩ | hl
    · change encounter.final .second = .done result at hfinal
      unfold Encounter.final at hfinal
      cases hfirst : encounter.allows .first with
      | true =>
        simp only [hfirst, if_true] at hfinal
        cases hfinal
        rfl
      | false =>
        simp only [hfirst] at hfinal
        cases hfinal
    · have hwaits : (encounter.final .second).Waits := hl.waits h (hall .second)
      unfold Encounter.final at hwaits
      cases hfirst : encounter.allows .first with
      | true =>
        simp only [hfirst, if_true] at hwaits
        exact absurd hwaits (Encounter.not_waits_done _)
      | false =>
        obtain ⟨stage, loss, heq⟩ := hl.outcome
        rw [hdone] at heq
        cases heq
        exact ⟨stage, loss, rfl⟩

end Rift.Session
