import Rift.Lib.History
import Rift.Protocol.Transfer

/-! # The logical transfer machine

The sequencing of one transfer at one of its two ends, independent of sessions, files and stores.
Every method of the source is a `Transition`, which keeps what was written before it failed. What a
call can do is said once (`call_cases`): it fails and nothing changes, or it succeeds by one of the
rules of `Advance`. -/

namespace Rift.Transfer

open Rift.Lib Rift.Core Rift.Protocol Std.Do

set_option mvcgen.warning false

/-! ### States -/

/-- The local role in one immutable transfer. -/
inductive TransferDirection
  | outgoing
  | incoming
  deriving DecidableEq

/-- A monotonically increasing worker generation within one logical transfer. -/
structure TransferAttempt where
  generation : ℕ
  deriving DecidableEq

/-- Attempt generations are machine words, which never wrap. -/
def attemptLimit : ℕ := 2 ^ 64

/-- Where a transfer stands. -/
inductive TransferState
  | queued
  | offered
  | pendingOffer
  | accepted (offset : ℕ)
  | sending (attempt : TransferAttempt)
  | receiving (attempt : TransferAttempt)
  | completing (attempt : TransferAttempt)
  | waitingForTerminal (attempt : TransferAttempt)
  | paused
  | terminalAwaitingAck (status : TransferTerminalStatus)
  | settled (status : TransferTerminalStatus)
  deriving DecidableEq

/-- The attempt of the worker that owns the transfer. -/
def TransferState.held : TransferState → Option TransferAttempt
  | .sending attempt | .receiving attempt | .completing attempt | .waitingForTerminal attempt =>
    some attempt
  | _ => none

/-- The outcome of a transfer that has ended, acknowledged or not. -/
def TransferState.outcome : TransferState → Option TransferTerminalStatus
  | .terminalAwaitingAck status | .settled status => some status
  | _ => none

/-- The idempotent response to a repeated incoming offer. -/
inductive OfferReplay
  | pending
  | accept (offset : ℕ)
  | terminal (status : TransferTerminalStatus)
  deriving DecidableEq

/-- Why a call is refused. -/
inductive TransferTransitionError
  | wrongDirection
  | unexpectedState
  | invalidOffset
  | conflictingMetadata
  | wrongTransfer
  | staleAttempt
  | attemptExhausted
  | conflictingTerminal
  deriving DecidableEq

/-- One keyed immutable logical transfer. -/
structure LogicalTransfer where
  peer : DeviceId
  transferId : TransferId
  metadata : TransferMetadata
  direction : TransferDirection
  state : TransferState
  nextAttempt : ℕ
  deriving DecidableEq

/-- A method that can fail. What it wrote before it failed stays written. -/
abbrev Transition := ExceptT TransferTransitionError (StateM LogicalTransfer)

namespace LogicalTransfer

/-- A prepared outgoing or newly offered incoming record. -/
def new (peer : DeviceId) (transferId : TransferId) (metadata : TransferMetadata)
    (direction : TransferDirection) : LogicalTransfer where
  peer := peer
  transferId := transferId
  metadata := metadata
  direction := direction
  state := match direction with
    | .outgoing => .queued
    | .incoming => .pendingOffer
  nextAttempt := 0

/-! ### Methods -/

def setState (state : TransferState) : Transition Unit := modify fun t => { t with state }

/-- Fails with `error` unless the condition holds. -/
def ensure (condition : LogicalTransfer → Prop) [DecidablePred condition]
    (error : TransferTransitionError) : Transition Unit := do
  unless condition (← get) do throw error

/-- Refuses the other direction. -/
def requireDirection (direction : TransferDirection) : Transition Unit :=
  ensure (·.direction = direction) .wrongDirection

/-- Refuses every other state. -/
def requireState (state : TransferState) (error : TransferTransitionError) : Transition Unit :=
  ensure (·.state = state) error

/-- Refuses an offset beyond the file. -/
def checkOffset (offset : ℕ) : Transition Unit :=
  ensure (offset ≤ ·.metadata.byteLen) .invalidOffset

/-- A fresh attempt, as long as there are numbers. -/
def allocateAttempt : Transition TransferAttempt := do
  ensure (·.nextAttempt + 1 < attemptLimit) .attemptExhausted
  modify fun t => { t with nextAttempt := t.nextAttempt + 1 }
  return ⟨(← get).nextAttempt⟩

/-- The offer has been sent, perhaps again. -/
def offerSent : Transition Unit := do
  requireDirection .outgoing
  ensure (fun t => t.state ∈ [.queued, .paused, .offered]) .unexpectedState
  setState .offered

/-- The receiver has accepted from this offset on. -/
def acceptReceived (offset : ℕ) : Transition Unit := do
  requireDirection .outgoing
  checkOffset offset
  requireState .offered .unexpectedState
  setState (.accepted offset)

/-- The local acceptance is durable. -/
def acceptancePersisted (offset : ℕ) : Transition Unit := do
  requireDirection .incoming
  checkOffset offset
  match (← get).state with
  | .pendingOffer =>
    ensure (fun _ => offset = 0) .unexpectedState
    setState (.accepted offset)
  | .paused | .accepted _ => setState (.accepted offset)
  | _ => throw .unexpectedState

/-- The sender offers again. -/
def replayOffer (metadata : TransferMetadata) (durableOffset : ℕ) : Transition OfferReplay := do
  requireDirection .incoming
  ensure (metadata = ·.metadata) .conflictingMetadata
  match (← get).state with
  | .pendingOffer => return .pending
  | .terminalAwaitingAck status | .settled status => return .terminal status
  | .accepted _ | .paused | .receiving _ | .completing _ =>
    checkOffset durableOffset
    return .accept durableOffset
  | _ => throw .unexpectedState

/-- A worker starts to send. -/
def startSend : Transition (TransferAttempt × ℕ) := do
  requireDirection .outgoing
  match (← get).state with
  | .accepted offset =>
    let attempt ← allocateAttempt
    setState (.sending attempt)
    return (attempt, offset)
  | _ => throw .unexpectedState

/-- A worker starts to receive. -/
def startReceive (header : DataStreamHeader) : Transition TransferAttempt := do
  requireDirection .incoming
  ensure (header.transferId = ·.transferId) .wrongTransfer
  ensure (header.validate ·.metadata.byteLen = .ok ()) .invalidOffset
  requireState (.accepted header.offset) .unexpectedState
  let attempt ← allocateAttempt
  setState (.receiving attempt)
  return attempt

/-- The worker has sent the payload. -/
def sendFinished (attempt : TransferAttempt) : Transition Unit := do
  requireDirection .outgoing
  requireState (.sending attempt) .staleAttempt
  setState (.waitingForTerminal attempt)

/-- The worker has received the payload and checked it. -/
def payloadVerified (attempt : TransferAttempt) : Transition Unit := do
  requireDirection .incoming
  requireState (.receiving attempt) .staleAttempt
  setState (.completing attempt)

/-- Invalidates connection-bound work, and returns the attempt of the worker to join. -/
def pause : Transition (Option TransferAttempt) := do
  match (← get).state with
  | .sending attempt | .receiving attempt | .completing attempt | .waitingForTerminal attempt =>
    setState .paused
    return some attempt
  | .offered | .accepted _ =>
    setState .paused
    return none
  | _ => return none

/-- What a first outcome requires of the state, by its status. -/
def requireOutcome (status : TransferTerminalStatus) (workerAttempt : Option TransferAttempt) :
    Transition Unit :=
  match status with
  | .completed =>
    ensure (fun t => ∃ attempt ∈ workerAttempt, t.state = .completing attempt) .staleAttempt
  | .rejected => do
    requireDirection .incoming
    requireState .pendingOffer .unexpectedState
  | .cancelled | .failed _ => pure ()

/-- A local outcome is durable. -/
def terminalPersisted (status : TransferTerminalStatus) (workerAttempt : Option TransferAttempt) :
    Transition Unit := do
  match (← get).state.outcome with
  | some existing => ensure (fun _ => existing = status) .conflictingTerminal
  | none =>
    ensure (fun t => status = .completed → t.direction = .incoming) .wrongDirection
    ensure (fun t => ∀ attempt ∈ workerAttempt, t.state.held = some attempt) .staleAttempt
    requireOutcome status workerAttempt
    setState (.terminalAwaitingAck status)

/-- The outcome of the peer is durable. -/
def peerTerminalPersisted (status : TransferTerminalStatus) : Transition Unit := do
  match (← get).state.outcome with
  | some _ => pure ()
  | none =>
    ensure (fun t => status.receiverOnly → t.direction = .outgoing) .wrongDirection
    setState (.settled status)

/-- The peer knows the outcome. -/
def terminalAckReceived : Transition Unit := do
  match (← get).state with
  | .terminalAwaitingAck status => setState (.settled status)
  | .settled _ => pure ()
  | _ => throw .unexpectedState

/-! ### Calls -/

end LogicalTransfer

/-- A call of one of the methods. -/
inductive Call
  | offerSent
  | acceptReceived (offset : ℕ)
  | acceptancePersisted (offset : ℕ)
  | replayOffer (metadata : TransferMetadata) (durableOffset : ℕ)
  | startSend
  | startReceive (header : DataStreamHeader)
  | sendFinished (attempt : TransferAttempt)
  | payloadVerified (attempt : TransferAttempt)
  | pause
  | terminalPersisted (status : TransferTerminalStatus) (workerAttempt : Option TransferAttempt)
  | peerTerminalPersisted (status : TransferTerminalStatus)
  | terminalAckReceived
  deriving DecidableEq

/-- What a successful call returns. -/
inductive Reply
  | done
  | replayed (replay : OfferReplay)
  | started (attempt : TransferAttempt) (offset : ℕ)
  | receiving (attempt : TransferAttempt)
  | stopped (attempt : Option TransferAttempt)
  deriving DecidableEq

/-- What a call gives. -/
abbrev Result := Except TransferTransitionError Reply

namespace LogicalTransfer

/-- The method that a call names. -/
def perform : Call → Transition Reply
  | .offerSent => do offerSent; return .done
  | .acceptReceived offset => do acceptReceived offset; return .done
  | .acceptancePersisted offset => do acceptancePersisted offset; return .done
  | .replayOffer metadata durableOffset => return .replayed (← replayOffer metadata durableOffset)
  | .startSend => do
    let (attempt, offset) ← startSend
    return .started attempt offset
  | .startReceive header => return .receiving (← startReceive header)
  | .sendFinished attempt => do sendFinished attempt; return .done
  | .payloadVerified attempt => do payloadVerified attempt; return .done
  | .pause => return .stopped (← pause)
  | .terminalPersisted status workerAttempt => do
    terminalPersisted status workerAttempt
    return .done
  | .peerTerminalPersisted status => do peerTerminalPersisted status; return .done
  | .terminalAckReceived => do terminalAckReceived; return .done

/-- What a call returns, and the transfer after it. -/
def call : Machine Call Result LogicalTransfer := fun c t => (perform c).run t

/-! ### What a call can do -/

/-- The calls that succeed, what they return and what they change. -/
inductive Advance (t : LogicalTransfer) : Call → Reply → LogicalTransfer → Prop
  | offerSent (out : t.direction = .outgoing)
      (ready : t.state = .queued ∨ t.state = .paused ∨ t.state = .offered) :
      Advance t .offerSent .done { t with state := .offered }
  | acceptReceived {offset : ℕ} (out : t.direction = .outgoing)
      (fits : offset ≤ t.metadata.byteLen) (ready : t.state = .offered) :
      Advance t (.acceptReceived offset) .done { t with state := .accepted offset }
  | acceptFirst (inc : t.direction = .incoming) (ready : t.state = .pendingOffer) :
      Advance t (.acceptancePersisted 0) .done { t with state := .accepted 0 }
  | acceptAgain {offset : ℕ} (inc : t.direction = .incoming) (fits : offset ≤ t.metadata.byteLen)
      (ready : t.state = .paused ∨ ∃ o, t.state = .accepted o) :
      Advance t (.acceptancePersisted offset) .done { t with state := .accepted offset }
  | replayPending {offset : ℕ} (inc : t.direction = .incoming) (ready : t.state = .pendingOffer) :
      Advance t (.replayOffer t.metadata offset) (.replayed .pending) t
  | replayAccept {offset : ℕ} (inc : t.direction = .incoming) (fits : offset ≤ t.metadata.byteLen)
      (live : t.state.outcome = none) :
      Advance t (.replayOffer t.metadata offset) (.replayed (.accept offset)) t
  | replayTerminal {offset : ℕ} {status : TransferTerminalStatus} (inc : t.direction = .incoming)
      (ended : t.state.outcome = some status) :
      Advance t (.replayOffer t.metadata offset) (.replayed (.terminal status)) t
  | startSend {offset : ℕ} (out : t.direction = .outgoing) (ready : t.state = .accepted offset) :
      Advance t .startSend (.started ⟨t.nextAttempt + 1⟩ offset)
        { t with nextAttempt := t.nextAttempt + 1, state := .sending ⟨t.nextAttempt + 1⟩ }
  | startReceive {header : DataStreamHeader} (inc : t.direction = .incoming)
      (same : header.transferId = t.transferId)
      (fits : header.offset + header.remainingLen = t.metadata.byteLen)
      (ready : t.state = .accepted header.offset) :
      Advance t (.startReceive header) (.receiving ⟨t.nextAttempt + 1⟩)
        { t with nextAttempt := t.nextAttempt + 1, state := .receiving ⟨t.nextAttempt + 1⟩ }
  | sendFinished {attempt : TransferAttempt} (out : t.direction = .outgoing)
      (ready : t.state = .sending attempt) :
      Advance t (.sendFinished attempt) .done { t with state := .waitingForTerminal attempt }
  | payloadVerified {attempt : TransferAttempt} (inc : t.direction = .incoming)
      (ready : t.state = .receiving attempt) :
      Advance t (.payloadVerified attempt) .done { t with state := .completing attempt }
  | pauseActive {attempt : Option TransferAttempt} (held : t.state.held = attempt)
      (live : t.state.outcome = none) (old : t.state ≠ .queued ∧ t.state ≠ .pendingOffer) :
      Advance t .pause (.stopped attempt) { t with state := .paused }
  | pauseIdle (idle : t.state.held = none ∧ t.state ≠ .offered ∧ ∀ offset, t.state ≠ .accepted offset) :
      Advance t .pause (.stopped none) t
  | complete {attempt : TransferAttempt} (inc : t.direction = .incoming)
      (ready : t.state = .completing attempt) :
      Advance t (.terminalPersisted .completed (some attempt)) .done
        { t with state := .terminalAwaitingAck .completed }
  | reject (inc : t.direction = .incoming) (ready : t.state = .pendingOffer) :
      Advance t (.terminalPersisted .rejected none) .done
        { t with state := .terminalAwaitingAck .rejected }
  | giveUp {status : TransferTerminalStatus} {workerAttempt : Option TransferAttempt}
      (live : t.state.outcome = none) (either : status.receiverOnly = false)
      (holds : ∀ attempt, workerAttempt = some attempt → t.state.held = some attempt) :
      Advance t (.terminalPersisted status workerAttempt) .done
        { t with state := .terminalAwaitingAck status }
  | endAgain {status : TransferTerminalStatus} {workerAttempt : Option TransferAttempt}
      (ended : t.state.outcome = some status) :
      Advance t (.terminalPersisted status workerAttempt) .done t
  | peerEnds {status : TransferTerminalStatus} (live : t.state.outcome = none)
      (out : status.receiverOnly = true → t.direction = .outgoing) :
      Advance t (.peerTerminalPersisted status) .done { t with state := .settled status }
  | peerAgain {status : TransferTerminalStatus} (ended : t.state.outcome.isSome) :
      Advance t (.peerTerminalPersisted status) .done t
  | acked {status : TransferTerminalStatus} (ready : t.state = .terminalAwaitingAck status) :
      Advance t .terminalAckReceived .done { t with state := .settled status }
  | ackAgain {status : TransferTerminalStatus} (ended : t.state = .settled status) :
      Advance t .terminalAckReceived .done t

theorem perform_spec (t : LogicalTransfer) (c : Call) :
    ⦃fun t' => ⌜t' = t⌝⦄ perform c
    ⦃post⟨fun y t' => ⌜Advance t c y t'⌝, fun _ t' => ⌜t' = t⌝⟩⦄ := by
  cases c with
  | offerSent =>
    mvcgen [perform, offerSent, requireDirection, ensure, setState]
    case vc1 v heq out ready _ =>
      subst heq
      exact .offerSent out (by simpa using ready)
  | acceptReceived offset =>
    mvcgen [perform, acceptReceived, requireDirection, checkOffset, requireState, ensure, setState]
    case vc1 v heq out fits ready _ =>
      subst heq
      exact .acceptReceived out fits ready
  | acceptancePersisted offset =>
    mvcgen [perform, acceptancePersisted, requireDirection, checkOffset, ensure, setState]
    case vc1 v heq inc fits ready zero _ =>
      subst heq zero
      exact .acceptFirst inc ready
    case vc3 v heq inc fits ready _ =>
      subst heq
      exact .acceptAgain inc fits (.inl ready)
    case vc4 v heq inc fits o ready _ =>
      subst heq
      exact .acceptAgain inc fits (.inr ⟨o, ready⟩)
  | replayOffer metadata durableOffset =>
    mvcgen [perform, replayOffer, requireDirection, checkOffset, ensure]
    case vc1 v heq inc same ready =>
      subst heq same
      exact .replayPending inc ready
    case vc2 v heq inc same status ended | vc3 v heq inc same status ended =>
      subst heq same
      exact .replayTerminal inc (by rw [ended]; rfl)
    -- The four states of an accepted transfer answer alike.
    all_goals
      rename_i live fits
      subst_vars
      exact .replayAccept ‹_› fits (by rw [live]; rfl)
  | startSend =>
    mvcgen [perform, startSend, requireDirection, ensure, setState, allocateAttempt]
    case vc1 v heq out offset ready _ _ _ =>
      subst heq
      exact .startSend out ready
  | startReceive header =>
    mvcgen [perform, startReceive, requireDirection, requireState, ensure, setState,
      allocateAttempt]
    case vc1 v heq inc same fits ready _ _ _ =>
      subst heq
      exact .startReceive inc same (DataStreamHeader.validate_ok_iff.mp fits) ready
  | sendFinished attempt =>
    mvcgen [perform, sendFinished, requireDirection, requireState, ensure, setState]
    case vc1 v heq out ready _ =>
      subst heq
      exact .sendFinished out ready
  | payloadVerified attempt =>
    mvcgen [perform, payloadVerified, requireDirection, requireState, ensure, setState]
    case vc1 v heq inc ready _ =>
      subst heq
      exact .payloadVerified inc ready
  | pause =>
    mvcgen [perform, pause, setState]
    case vc5 v heq ready _ | vc6 v heq offset ready _ =>
      subst heq
      exact .pauseActive (by rw [ready]; rfl) (by rw [ready]; rfl) (by simp [ready])
    case vc7 v heq s h₁ h₂ h₃ h₄ _ _ hs =>
      subst heq hs
      refine .pauseIdle ⟨?_, ?_⟩
      · cases h : v.state <;> simp_all [TransferState.held]
      · cases h : v.state <;> simp_all
    -- A worker holds the transfer in each of the other four.
    all_goals
      rename_i v heq attempt ready _
      subst heq
      exact .pauseActive (by rw [ready]; rfl) (by rw [ready]; rfl) (by simp [ready])
  | terminalPersisted status workerAttempt =>
    mvcgen [perform, terminalPersisted, requireOutcome, requireDirection, requireState, ensure,
      setState]
    case vc1 v heq existing ended same =>
      subst heq same
      exact .endAgain ended
    case vc3 v heq live inc holds hs ready _ =>
      subst heq
      obtain ⟨attempt, rfl, ready⟩ := ready
      exact .complete (inc hs) ready
    case vc5 v heq live _ holds hs inc ready _ =>
      subst heq
      rcases workerAttempt with _ | attempt
      · exact .reject inc ready
      · simp [ready, TransferState.held] at holds
    case vc8 v heq live _ holds hs _ | vc9 v heq live _ holds code hs _ =>
      subst heq
      exact .giveUp live rfl fun attempt h => holds attempt h
  | peerTerminalPersisted status =>
    mvcgen [perform, peerTerminalPersisted, ensure, setState]
    case vc1 v heq existing ended =>
      subst heq
      exact .peerAgain (by rw [ended]; rfl)
    case vc2 v heq live out _ =>
      subst heq
      exact .peerEnds live out
  | terminalAckReceived =>
    mvcgen [perform, terminalAckReceived, setState]
    case vc1 v heq status ready _ =>
      subst heq
      exact .acked ready
    case vc2 v heq status ended =>
      subst heq
      exact .ackAgain ended

/-- **What a call can do.** It fails and changes nothing, or it succeeds by one of the rules. -/
theorem call_cases (c : Call) (t : LogicalTransfer) :
    (∃ e, call c t = (.error e, t)) ∨ ∃ y t', call c t = (.ok y, t') ∧ Advance t c y t' := by
  rcases cases_of_triple (perform_spec t c) rfl with ⟨y, hr, ha⟩ | ⟨e, hr, ht⟩
  · exact Or.inr ⟨y, _, Prod.ext hr rfl, ha⟩
  · exact Or.inl ⟨e, Prod.ext hr ht⟩

end LogicalTransfer

end Rift.Transfer
