import Rift.Daemon.Supervisor
import Rift.Session.Encounter

/-! # The setup tasks and the session manager

A setup task of the daemon is one call of the session manager, cut at its awaits: between two phases
any other task may run, so every phase finds its own state of what the tasks share. Here the events of
the phases are those that the calls on the control stream give, byte for byte.

The main results are `runSetup_outbound`, `runSetup_inbound` and `setup_task_refines_manager`. -/

namespace Rift.Daemon

open Rift.Lib Rift.Lib.Framing Rift.Core Rift.Protocol Rift.Ipc Rift.Session Rift.Trust
open Rift.Transport hiding BootstrappedConnection EndpointAddr

/-! ### A setup on its control stream -/

/-- The reading of the trust store that a phase makes; some phases make none. -/
def SetupPhase.moment : SetupPhase → Moment
  | .checking .. => .checked
  | .admitting .. => .rechecked
  | .deciding .. => .decided
  | _ => .captured

section Runs

variable {S R : Type} [AsyncRead R] [AsyncWrite S] [Clocked R] [Clocked S]

/-- What the call that a phase waits for gives, and the connection after it. -/
def SetupPhase.event (dial : Option (DeviceId × Bool)) (connection : Connection S R) :
    SetupPhase → Option (TaskEvent × Connection S R)
  | .capturing _ | .checking .. | .admitting .. | .deciding .. => some (.proceed, connection)
  | .receivingIntent _ _ =>
    let (result, connection) := connection.receiveIntent
    some (.intent (result.mapError (.ofTransport ∘ .call)), connection)
  | .exchanging _ _ purpose entry =>
    let (result, connection) :=
      if dial.isSome then connection.requestIntent purpose
      else connection.sendIntentResult (purposeAllowed entry purpose)
    some (.exchange (result.mapError (.ofTransport ∘ .call)), connection)
  | _ => none

/-- The phases of a setup, as long as the session manager is at work on it. -/
def runSetup (dial : Option (DeviceId × Bool)) (shared : Moment → Shared) :
    ℕ → SetupPhase → Connection S R → SetupPhase
  | 0, phase, _ => phase
  | n + 1, phase, connection =>
    match phase.event dial connection with
    | none => phase
    | some (event, connection) =>
      match phase.step dial (shared phase.moment) event with
      | none => phase
      | some (phase, _) => runSetup dial shared n phase connection

/-- A setup from the connection on: its control stream is bootstrapped, and the session manager has
the rest. `start` is what the tasks share when the hellos have been exchanged. -/
def setupTask (dial : Option (DeviceId × Bool)) (start : Shared) (shared : Moment → Shared)
    (localDeviceId : DeviceId) (metadata : HelloMetadata) (connection : AuthenticatedConnection S R) :
    SetupPhase :=
  let direction := if dial.isSome then .openControl else .acceptControl
  match (bootstrap localDeviceId metadata direction connection).1 with
  | .error e =>
    ((SetupPhase.connecting.step dial start (.bootstrap (.error (.ofTransport e)))).map
      Prod.fst).getD .connecting
  | .ok b =>
    match SetupPhase.connecting.step dial start (.bootstrap (.ok b.peerHello)) with
    | none => .connecting
    | some (phase, _) => runSetup dial shared 6 phase b.connection

end Runs

/-! ### The phases are those of the session manager -/

/-- The phase in which the session manager's result leaves a setup. -/
def SetupPhase.ofResult (b : Session.BootstrappedConnection) (generation : ℕ) :
    Except SessionError SessionAdmission → SetupPhase
  | .error e => .done (.error (sessionError e))
  | .ok (.authorized connection) => .done (.ok (.authorized ⟨b.connection, connection⟩))
  | .ok .pairable => .pairable b generation

section Phases

variable {S R : Type} [AsyncRead R] [AsyncWrite S] [Clocked R] [Clocked S]
  {dial : Option (DeviceId × Bool)} {shared : Moment → Shared} {b : Session.BootstrappedConnection}
  {generation : ℕ} {purpose : ConnectionPurpose} {entry : Option TrustEntry} {n : ℕ}
  {connection connection' : Connection S R}

theorem runSetup_done (result : OperationResult ConnectionCandidate) :
    runSetup dial shared n (.done result) connection = .done result := by
  cases n <;> rfl

theorem runSetup_pairable :
    runSetup dial shared n (.pairable b generation) connection = .pairable b generation := by
  cases n <;> rfl

theorem runSetup_deciding (hdial : ∀ d, dial = some d → purpose = dialPurpose d.2) :
    runSetup dial shared (n + 1) (.deciding b generation purpose) connection =
      .ofResult b generation (admitEntry b.remoteDeviceId generation purpose
        ((shared .decided).store.entry b.remoteDeviceId)) := by
  simp only [runSetup, SetupPhase.event, SetupPhase.step, SetupPhase.moment]
  rcases hadmit : admitEntry b.remoteDeviceId generation purpose
    ((shared .decided).store.entry b.remoteDeviceId) with e | (c | _) <;>
    simp only [SetupPhase.failed, runSetup_done, SetupPhase.ofResult]
  have hpurpose : purpose = .pairing := by simpa [SessionAdmission.purpose] using admitEntry_purpose hadmit
  have hpairs : (dial.all fun d => d.2) = true := by
    rcases dial with _ | d
    · rfl
    · have hd := hdial d rfl
      rw [hpurpose] at hd
      rcases hd2 : d.2 with _ | _
      · rw [hd2] at hd
        cases hd
      · simp [hd2]
  simp only [hpairs, if_true, runSetup_pairable]

theorem runSetup_admitting (hdial : ∀ d, dial = some d → purpose = dialPurpose d.2) :
    runSetup dial shared (n + 2) (.admitting b generation purpose) connection =
      .ofResult b generation (admitPeer (fun moment => (shared moment).store) connection b.remoteDeviceId
        purpose generation).1 := by
  rw [runSetup]
  simp only [SetupPhase.event, SetupPhase.step, SetupPhase.moment]
  unfold admitPeer
  by_cases hgeneration : (shared .rechecked).store.currentGeneration b.remoteDeviceId = generation
  · simp only [hgeneration, if_true, ne_eq, not_true, if_false, runSetup_deciding hdial]
    split <;> simp_all
  · simp only [hgeneration, if_false, ne_eq, not_false_eq_true, if_true, SetupPhase.failed,
      runSetup_done, SetupPhase.ofResult]

theorem runSetup_exchanging_error (e : Transport.TransportError)
    (h : (if dial.isSome then connection.requestIntent purpose
      else connection.sendIntentResult (purposeAllowed entry purpose)) = (.error e, connection')) :
    runSetup dial shared (n + 1) (.exchanging b generation purpose entry) connection =
      .ofResult b generation (.error (.ofCall e)) := by
  rw [runSetup]
  simp only [SetupPhase.event, h, Except.mapError, SetupPhase.step, SetupPhase.failed, runSetup_done]
  rfl

theorem runSetup_exchanging_ok (hdial : ∀ d, dial = some d → purpose = dialPurpose d.2)
    (h : (if dial.isSome then connection.requestIntent purpose
      else connection.sendIntentResult (purposeAllowed entry purpose)) = (.ok (), connection')) :
    runSetup dial shared (n + 3) (.exchanging b generation purpose entry) connection =
      .ofResult b generation (if purposeAllowed entry purpose = false then
        .error (localPurposeError b.remoteDeviceId entry purpose)
      else (admitPeer (fun moment => (shared moment).store) connection' b.remoteDeviceId purpose
        generation).1) := by
  rw [runSetup]
  simp only [SetupPhase.event, h, Except.mapError, SetupPhase.step]
  rcases purposeAllowed entry purpose with _ | _
  · simp only [Bool.false_eq_true, if_false, SetupPhase.failed, runSetup_done, if_true,
      SetupPhase.ofResult]
  · simp only [if_true, runSetup_admitting hdial, Bool.true_eq_false, if_false]

end Phases

section Tasks

variable {S R : Type} [AsyncRead R] [AsyncWrite S] [Clocked R] [Clocked S]

/-- **The phases of a dial** end as the session manager's `prepare_outbound` does. -/
theorem runSetup_outbound (shared : Moment → Shared) (b : Transport.BootstrappedConnection S R)
    (id : ConnectionId) (deviceId : DeviceId) (pairs : Bool) :
    runSetup (some (deviceId, pairs)) shared 6 (.capturing ⟨id, b.peerHello⟩) b.connection =
      .ofResult ⟨id, b.peerHello⟩ ((shared .captured).store.currentGeneration b.remoteDeviceId)
        (prepareOutbound (fun moment => (shared moment).store) b (dialPurpose pairs)).1 := by
  have hdial : ∀ d, some (deviceId, pairs) = some d → dialPurpose pairs = dialPurpose d.2 := by
    rintro d ⟨⟩
    rfl
  have hid : Session.BootstrappedConnection.remoteDeviceId ⟨id, b.peerHello⟩ = b.remoteDeviceId := rfl
  rw [runSetup, SetupPhase.event]
  simp only [SetupPhase.step, SetupPhase.moment, hid]
  rw [runSetup, SetupPhase.event]
  simp only [SetupPhase.step, SetupPhase.moment, hid, Option.isSome_some, true_and]
  rcases hallowed : purposeAllowed ((shared .checked).store.entry b.remoteDeviceId)
    (dialPurpose pairs) with _ | _
  · rw [prepareOutbound_refused hallowed]
    simp only [if_true, SetupPhase.failed, runSetup_done, SetupPhase.ofResult]
  · rw [prepareOutbound_allowed hallowed]
    simp only [Bool.true_eq_false, if_false]
    rcases hr : b.connection.requestIntent (dialPurpose pairs) with ⟨e | ⟨⟩, connection⟩
    · exact runSetup_exchanging_error e (by exact hr)
    · refine (runSetup_exchanging_ok hdial (by exact hr)).trans ?_
      rw [hallowed]
      rfl

/-- **The phases of an accepted connection** end as the session manager's `accept_inbound` does. -/
theorem runSetup_inbound (shared : Moment → Shared) (b : Transport.BootstrappedConnection S R)
    (id : ConnectionId) :
    runSetup none shared 6 (.capturing ⟨id, b.peerHello⟩) b.connection =
      .ofResult ⟨id, b.peerHello⟩ ((shared .captured).store.currentGeneration b.remoteDeviceId)
        (acceptInbound (fun moment => (shared moment).store) b).1 := by
  have hid : Session.BootstrappedConnection.remoteDeviceId ⟨id, b.peerHello⟩ = b.remoteDeviceId := rfl
  rw [runSetup, SetupPhase.event]
  simp only [SetupPhase.step, SetupPhase.moment, hid]
  rw [runSetup, SetupPhase.event]
  unfold acceptInbound
  rcases hr : b.connection.receiveIntent with ⟨e | purpose, connection⟩
  · simp only [Except.mapError, SetupPhase.step, SetupPhase.failed, runSetup_done, SetupPhase.ofResult]
    rfl
  simp only [Except.mapError, SetupPhase.step]
  rw [runSetup, SetupPhase.event]
  simp only [SetupPhase.step, SetupPhase.moment, hid, Option.isSome_none, Bool.false_eq_true,
    false_and, if_false]
  rcases hs : connection.sendIntentResult (purposeAllowed
    ((shared .checked).store.entry b.remoteDeviceId) purpose) with ⟨e | ⟨⟩, connection'⟩
  · exact runSetup_exchanging_error e (by exact hs)
  · refine (runSetup_exchanging_ok (by rintro d ⟨⟩) (by exact hs)).trans ?_
    simp only [hid]
    split_ifs <;> rfl

/-- A setup is in the phase that a result of the session manager, or of the bootstrap, leaves it in. -/
def SetupPhase.Ends (phase : SetupPhase) (id : ConnectionId) (deviceId : DeviceId) (generation : ℕ) :
    Except SetupFailure SessionAdmission → Prop
  | .error (.bootstrap e) => phase = .done (.error (connectionError (.ofTransport e)))
  | .error (.session e) => phase = .done (.error (sessionError e))
  | .ok (.authorized connection) => phase = .done (.ok (.authorized ⟨id, connection⟩))
  | .ok .pairable => ∃ hello : Hello, hello.deviceId = deviceId ∧ phase = .pairable ⟨id, hello⟩ generation

theorem SetupPhase.ends_ofResult (id : ConnectionId) (hello : Hello) (generation : ℕ)
    (result : Except SessionError SessionAdmission) :
    (SetupPhase.ofResult ⟨id, hello⟩ generation result).Ends id hello.deviceId generation
      (result.mapError .session) := by
  rcases result with e | (connection | _)
  · rfl
  · rfl
  · exact ⟨hello, rfl, rfl⟩

end Tasks

section Refinement

variable {S R : Type} [Sink S] [Tape R] [Clocked S] [Clocked R]

/-- **A setup task refines the session manager.** Whatever the peer and the streams do, and whatever
other tasks do to what they share between two phases, a task that dials, or one that accepts, ends in
the phase that the calls of the transport and of the session manager stand for, with the same error if
they fail, when these read the trust store as the phases find it. -/
theorem setup_task_refines_manager (start : Shared) (shared : Moment → Shared)
    (localDeviceId : DeviceId) (metadata : HelloMetadata)
    (connection : AuthenticatedConnection S R) :
    (∀ pairs,
      (setupTask (some (connection.remoteDeviceId, pairs)) start shared localDeviceId metadata
        connection).Ends start.nextConnection connection.remoteDeviceId
        ((shared .captured).store.currentGeneration connection.remoteDeviceId)
        (dialSession (fun moment => (shared moment).store) localDeviceId metadata connection
          (dialPurpose pairs))) ∧
    (setupTask none start shared localDeviceId metadata connection).Ends start.nextConnection
      connection.remoteDeviceId
      ((shared .captured).store.currentGeneration connection.remoteDeviceId)
      (acceptSession (fun moment => (shared moment).store) localDeviceId metadata connection) := by
  constructor
  · intro pairs
    unfold setupTask dialSession
    rcases hb : bootstrap localDeviceId metadata .openControl connection with ⟨e | b, connection'⟩
    · simp [hb, SetupPhase.step, SetupPhase.failed, SetupPhase.Ends]
    · obtain ⟨-, -, _, _, -, hx⟩ := bootstrap_ok hb
      have hdevice := (exchangeHello_eq_ok hx).2.2.2.2.symm
      simp only [Option.isSome_some, if_true, hb, SetupPhase.step, Option.all_some, hdevice, decide_true,
        runSetup_outbound]
      exact SetupPhase.ends_ofResult _ _ _ _
  · unfold setupTask acceptSession
    rcases hb : bootstrap localDeviceId metadata .acceptControl connection with ⟨e | b, connection'⟩
    · simp [hb, SetupPhase.step, SetupPhase.failed, SetupPhase.Ends]
    · obtain ⟨-, -, _, _, -, hx⟩ := bootstrap_ok hb
      have hdevice := (exchangeHello_eq_ok hx).2.2.2.2.symm
      simp only [Option.isSome_none, Bool.false_eq_true, if_false, hb, SetupPhase.step, Option.all_none,
        if_true, hdevice, runSetup_inbound]
      exact SetupPhase.ends_ofResult _ _ _ _

end Refinement

end Rift.Daemon
