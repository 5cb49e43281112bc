import Mathlib.Logic.Relation
import Rift.Daemon.Evolution
import Rift.Daemon.Handlers

/-! # What the supervisor may do

An abstract account of the daemon's loop. Handling an event is an opening, which may put something into
the supervisor's hand (`Hand`: a worker to be respawned, callers to be answered, a decision to be
passed on, a pairing to be resolved), then moves, mixed with steps of the tasks, then possibly one
move that answers the callers of a dial, and a closing, which disposes of what is in hand. Each comes
with the facts that the code has established where it does this.

`Bounds` says what the tasks may do meanwhile, and which of the ways in which one part of the daemon
gets into the way of another may show.

The main results are `Handled.lead` and `Handled.keep`. -/

namespace Rift.Daemon

open Rift.Lib Rift.Lib.Interference Rift.Core Rift.Ipc Rift.Protocol Rift.Session Std
open Rift.Trust hiding Event

/-! ### The session of a device -/

section Sessions

variable {σ σ' : Daemon} {d : DeviceId} {s : SessionId} {r : SessionRecord}

theorem canonicalSession_eq_none : σ.canonicalSession d = none ↔
    ∀ (s : SessionId) (r : SessionRecord), σ.sessions[s]? = some r → r.info.deviceId = d →
      r.closer ∈ σ.shared.closed := by
  simp only [canonicalSession, Option.map_eq_none_iff, List.find?_eq_none, Prod.forall,
    ExtTreeMap.mem_toList_iff_getElem?_eq_some, decide_eq_true_eq, not_and, not_not]

theorem canonicalSession_eq_some (h : σ.canonicalSession d = some s) :
    ∃ r, σ.sessions[s]? = some r ∧ r.info.deviceId = d ∧ r.closer ∉ σ.shared.closed := by
  obtain ⟨⟨s', r⟩, hf, rfl⟩ := Option.map_eq_some_iff.mp h
  have hp := List.find?_some hf
  have hm := List.mem_of_find?_eq_some hf
  rw [ExtTreeMap.mem_toList_iff_getElem?_eq_some] at hm
  simp only [decide_eq_true_eq] at hp
  exact ⟨r, hm, hp⟩

theorem existingSession_eq_none : σ.existingSession d = none ↔
    ∀ (s : SessionId) (r : SessionRecord), σ.sessions[s]? = some r → r.info.deviceId ≠ d := by
  simp only [existingSession, List.find?_eq_none, Prod.forall,
    ExtTreeMap.mem_toList_iff_getElem?_eq_some, decide_eq_true_eq]

theorem existingSession_eq_some (h : σ.existingSession d = some (s, r)) :
    σ.sessions[s]? = some r ∧ r.info.deviceId = d := by
  have hp := List.find?_some h
  have hm := List.mem_of_find?_eq_some h
  rw [ExtTreeMap.mem_toList_iff_getElem?_eq_some] at hm
  exact ⟨hm, by simpa using hp⟩

theorem Evolved.canonicalSession (h : Evolved σ σ') (hn : σ.canonicalSession d = none) :
    σ'.canonicalSession d = none := by
  have hc := h.closed
  obtain ⟨tasks, shared, rfl⟩ := h.owned
  rw [canonicalSession_eq_none] at hn ⊢
  exact fun s r hs hd => hc (hn s r hs hd)

end Sessions

theorem insertPeer_eq_some {σ σ' : Daemon} {d : DeviceId} (h : σ.insertPeer d = some σ') :
    σ' = σ ∧ d ∈ σ.connectivity.peers ∨
      σ' = σ.setPeers (σ.connectivity.peers.insert d (Peer.new σ.shared.clock)) ∧
        d ∉ σ.connectivity.peers ∧ σ.connectivity.peers.size ≠ maxManagedPeers := by
  unfold insertPeer Scheduler.insert at h
  split_ifs at h with hd hm
  · cases h; exact Or.inl ⟨rfl, by simpa using hd⟩
  · cases h
  · cases h; exact Or.inr ⟨rfl, by simpa using hd, hm⟩

theorem mem_of_insertPeer {σ σ' : Daemon} {d : DeviceId} (h : σ.insertPeer d = some σ') :
    d ∈ σ'.connectivity.peers ∧ ∃ peers, σ' = σ.setPeers peers := by
  rcases insertPeer_eq_some h with ⟨rfl, hd⟩ | ⟨rfl, -, -⟩
  · exact ⟨hd, σ'.connectivity.peers, rfl⟩
  · exact ⟨ExtTreeMap.mem_insert_self, _, rfl⟩

theorem insertPeer_isSome {σ : Daemon} {d : DeviceId} : (σ.insertPeer d).isSome ↔
    d ∈ σ.connectivity.peers ∨ σ.connectivity.peers.size ≠ maxManagedPeers := by
  unfold insertPeer Scheduler.insert
  split_ifs with hd hm
  · simpa using Or.inl hd
  · simpa [hm] using hd
  · simp [hm]

/-! ### Bounds -/

/-- The bounds of one handled event. -/
structure Bounds where
  /-- What the tasks may do meanwhile. -/
  acts : TaskStep → Prop
  /-- The devices whose pairing dial an inbound session may end. -/
  yields : DeviceId → Prop
  /-- The devices to which cancelled or other work may hold up a dial. -/
  blocked : DeviceId → Prop
  /-- The devices a dial to which may go unreported. -/
  unreported : DeviceId → Prop
  /-- The pairings whose task may have ended before it is told the decision. -/
  abandons : PairingAttemptId → Prop
  /-- The devices whose pairing may end without them being managed. -/
  lapses : DeviceId → Prop
  /-- Whether a connection may have authenticated the identity of this device. -/
  itself : Prop
  /-- The devices that trust may be withdrawn from. -/
  drops : DeviceId → Prop

/-- A live dial for a session with the device is on record. -/
def Live (σ : Daemon) (d : DeviceId) : Prop :=
  ∃ record, σ.outbound[d]? = some record ∧ record.cancelled = false ∧ record.pairing = false

/-- A managed peer that is `connecting` has a live dial. -/
def Settled (σ : Daemon) (d : DeviceId) : Prop :=
  ∀ p, σ.connectivity.peers[d]? = some p → p.state = .connecting → Live σ d

/-- What was last reported of a managed peer, if anything, is how it is. -/
def Told (σ : Daemon) (d : DeviceId) : Prop :=
  ∀ p, σ.connectivity.peers[d]? = some p → p.Truthful d

/-- Nothing has been reported of the peer since it is managed. -/
def Silent (σ : Daemon) (d : DeviceId) : Prop :=
  ∀ p, σ.connectivity.peers[d]? = some p → p.lastEmitted = none

/-- The errors that say that an invariant failed. -/
def invariantFailures : List ErrorResponse :=
  [operationError .internal "pairing result invariant failed",
    operationError .internal "session result invariant failed",
    operationError .internal "outbound purpose invariant failed",
    operationError .internal "outbound registry invariant failed"]

/-- The result is one for a dial with this purpose: a pairing that is registered for the device, a
session that is, or an error. -/
def Answers (σ : Daemon) (d : DeviceId) (pairing : Bool) : OperationResult DialResult → Prop
  | .error e => e ∉ invariantFailures
  | .ok (.pairing a) => pairing = true ∧
    ∃ record, σ.pendingPairings[a]? = some record ∧ record.info.deviceId = d
  | .ok (.session d' s) => pairing = false ∧ d' = d ∧
    ∃ record, σ.sessions[s]? = some record ∧ record.info.deviceId = d

/-! ### What is in hand -/

/-- What the supervisor holds while it handles an event: an incoming worker to be respawned, callers of
a dial, a request to be answered at once, a decision to be passed on, or a pairing that has ended. -/
inductive Hand
  | none
  | incoming
  | dial (deviceId : DeviceId) (pairing : Bool) (waiting : List OutboundReply)
  | request (reply : ReplyId)
  | decision (attemptId : PairingAttemptId) (accepted : Bool) (reply : ReplyId)
  | attempt (attemptId : PairingAttemptId) (deviceId : DeviceId) (registered : Bool)
      (reply : Option ReplyId)

/-- What a command puts into the hand. -/
def Command.hand : Command → Hand
  | .request (.confirmPairing a accepted) reply _ => .decision a accepted reply
  | .request (.beginPairing d) reply _ => .dial d true [.ipc reply]
  | .request (.connectPeer d) reply _ => .dial d false [.ipc reply]
  | .request _ reply _ => .request reply
  | .beginPairing peer reply => .dial peer.deviceId true [.pairing reply]
  | .connectAuthenticated peer reply => .dial peer.deviceId false [.session reply]
  | .sessionHandle _ reply => .request reply
  | .rememberPeer _ reply => .request reply

/-- The command asks for a session with the device. -/
def Command.Dials (d : DeviceId) (command : Command) : Prop :=
  ∃ waiting, command.hand = .dial d false waiting

/-- The command withdraws trust from the device. -/
def Command.Drops (d : DeviceId) : Command → Prop
  | .request (.revokePeer d') _ _ => d' = d
  | .request (.forgetPeer d') _ _ => d' = d
  | _ => False

/-! ### Moves -/

/-- The session that a new session of the device replaces is the only one it has. -/
def Replaces (σ : Daemon) (d : DeviceId) : Existing → Prop
  | some (s, r, closed) =>
    σ.sessions[s]? = some r ∧ r.info.deviceId = d ∧ (closed = true → r.closer ∈ σ.shared.closed)
  | none => σ.sessions.size < σ.config.maxActiveSessions ∧
    ∀ (s : SessionId) (r : SessionRecord), σ.sessions[s]? = some r → r.info.deviceId ≠ d

/-- A session takes the place of the one that its device has, and is reported. -/
def registered (σ : Daemon) (existing : Existing)
    (connection : Authorized) (origin : SessionOrigin) : Daemon :=
  ((retireExisting σ existing).openSession connection origin).emit
    (.sessionOpened (σ.sessionRecord connection origin).info)

/-- One move of the supervisor with something in hand, or one step of the tasks. -/
inductive Move (blake3 : Blake3) (B : Bounds) :
    Hand → Daemon → Daemon → Prop
  | act {hand : Hand} (σ : Daemon) {s : TaskStep} (h : B.acts s) :
      Move blake3 B hand σ (taskStep blake3 σ s)
  | hint {hand : Hand} (σ : Daemon) (hints : Finset DeviceId) :
      Move blake3 B hand σ { σ with hints }
  | close {hand : Hand} (σ : Daemon) (c : ConnectionId) : Move blake3 B hand σ (σ.close c)
  | drop {hand : Hand} (σ : Daemon) (pending : Pending) :
      Move blake3 B hand σ (σ.dropPending pending)
  | manage {hand : Hand} {σ σ' : Daemon} {d : DeviceId} (h : σ.insertPeer d = some σ')
      (ht : σ.shared.store.state d = some .trusted) (hl : d = σ.deviceId → B.itself) :
      Move blake3 B hand σ σ'
  | resume (σ : Daemon) (d : DeviceId) (waiting : List OutboundReply) :
      Move blake3 B (.dial d false waiting) σ (σ.resumePeer d)
  | resolved {σ : Daemon} {d : DeviceId} (h : σ.awaitsRoute d = true) (reply : ReplyId) :
      Move blake3 B (.request reply) σ
        (σ.changePeer d fun peer => peer.resume σ.shared.clock)
  | fail {σ : Daemon} {d : DeviceId} (h : σ.canonicalSession d = none)
      (failure : ConnectivityFailure) (waiting : List OutboundReply) :
      Move blake3 B (.dial d false waiting) σ (σ.connectivityFailed d failure)
  | coalesce {σ : Daemon} {d : DeviceId} (h : Live σ d) (hs : σ.canonicalSession d = none)
      (waiting : List OutboundReply) :
      Move blake3 B (.dial d false waiting) σ (σ.modifyPeer d Peer.dialling)
  | dial {σ : Daemon} {d : DeviceId} {pairing : Bool} (h : σ.outbound[d]? = none)
      (hl : d ≠ σ.deviceId) (hs : pairing = false → σ.canonicalSession d = none)
      (hp : pairing = true → σ.connectivity.peers[d]? = none)
      (ho : σ.outbound.size < σ.config.maxOutboundConnects)
      (ht : σ.tasks.size < hardMaxOwnedTasks) (waiting : List OutboundReply) :
      Move blake3 B (.dial d pairing waiting) σ (σ.startDial d pairing)
  | pend {hand : Hand} {σ : Daemon} {pending : Pending}
      (ht : σ.shared.store.state pending.remoteDeviceId ≠ some .revoked)
      (hg : σ.shared.store.currentGeneration pending.remoteDeviceId = pending.trustGeneration)
      (hl : pending.remoteDeviceId = σ.deviceId → B.itself)
      (hp : σ.pendingPairings.size < σ.config.maxPendingPairings)
      (hroom : σ.tasks.size < hardMaxOwnedTasks - 1) (origin : SessionOrigin) :
      Move blake3 B hand σ (σ.addPending pending origin)
  | openSession {hand : Hand} {σ : Daemon} {existing : Existing}
      {connection : Authorized}
      (ht : σ.shared.store.state connection.remoteDeviceId = some .trusted)
      (hg : σ.shared.store.currentGeneration connection.remoteDeviceId = connection.trustGeneration)
      (hp : connection.remoteDeviceId ∈ σ.connectivity.peers)
      (he : Replaces σ connection.remoteDeviceId existing)
      (hroom : σ.tasks.size < hardMaxOwnedTasks - 1) (origin : SessionOrigin) :
      Move blake3 B hand σ (registered σ existing connection origin)
  | commitFails {σ : Daemon} {m : TrustMutation} {io : IoOutcome} {e : TrustStoreError}
      (hm : ∀ peer, m ≠ .trust peer) (h : (commit blake3 σ.shared.store m none io).1 = .error e)
      (reply : ReplyId) :
      Move blake3 B (.request reply) σ (σ.setStore (commit blake3 σ.shared.store m none io).2)

/-- A move that answers the callers of a dial. -/
inductive Answering (blake3 : Blake3) (B : Bounds) : Daemon → Daemon → Prop
  | yield {σ : Daemon} {d : DeviceId} {s : SessionId} {r : SessionRecord} {p : Peer}
      (hs : σ.sessions[s]? = some r) (hd : r.info.deviceId = d)
      (hp : σ.connectivity.peers[d]? = some p) (hc : p.state = .connected)
      (hy : ∀ record, σ.outbound[d]? = some record → record.cancelled = false →
        record.pairing = true → B.yields d) :
      Answering blake3 B σ (σ.cancelOutbound d (.ok (.session d s)))
  | disconnect {σ : Daemon} {s : SessionId} {r : SessionRecord} (h : σ.sessions[s]? = some r) :
      Answering blake3 B σ (σ.disconnect s r)
  -- The tasks may run between the commit and what follows it.
  | invalidate {σ σ' : Daemon} {m : TrustMutation} {io : IoOutcome} (hm : ∀ peer, m ≠ .trust peer)
      (h : (commit blake3 σ.shared.store m none io).1 = .ok ())
      (he : Evolves (taskStep blake3) B.acts
        (σ.setStore (commit blake3 σ.shared.store m none io).2) σ')
      (reason : SessionCloseReason) (state : Option TrustState) (hd : B.drops m.deviceId) :
      Answering blake3 B σ
        ((σ'.invalidatePeer m.deviceId reason).emit (.trustChanged m.deviceId state))

/-! ### Openings and closings -/

/-- Nothing in the registries refers to the task of a dial or a session. -/
def Task.Unlinked (σ : Daemon) : Task → Prop
  | .outbound d token _ _ => ∀ record, σ.outbound[d]? = some record → record.token ≠ token
  | .session s _ _ => σ.sessions[s]? = none
  | _ => False

/-- How handling an event begins. -/
inductive Opening (σ : Daemon) : Step → Hand → Daemon → Prop
  | idle {s : Step} (h : ∀ command script, s ≠ .command command script) : Opening σ s .none σ
  | accepted (hc : σ.ipcClients < σ.config.maxIpcClients) (ht : σ.tasks.size < hardMaxOwnedTasks) :
      Opening σ .acceptClient .none
        ({ σ with ipcClients := σ.ipcClients + 1 }.spawn (.ipcClient false))
  | command (command : Command) (script : List (List TaskStep)) :
      Opening σ (.command command script) command.hand σ
  | workerJoined {id : ℕ} {script : List (List TaskStep)} {phase : SetupPhase}
      (h : σ.tasks[id]? = some (.incoming phase)) :
      Opening σ (.join id script) .incoming { σ with tasks := σ.tasks.erase id }
  | clientJoined {id : ℕ} {script : List (List TaskStep)} {ended : Bool}
      (h : σ.tasks[id]? = some (.ipcClient ended)) :
      Opening σ (.join id script) .none
        { σ with tasks := σ.tasks.erase id, ipcClients := σ.ipcClients - 1 }
  | staleJoined {id : ℕ} {script : List (List TaskStep)} {task : Task}
      (h : σ.tasks[id]? = some task) (hu : task.Unlinked σ) :
      Opening σ (.join id script) .none { σ with tasks := σ.tasks.erase id }
  | cancelledJoined {id : ℕ} {script : List (List TaskStep)} {d : DeviceId} {pairing : Bool}
      {phase : SetupPhase} {record : OutboundRecord}
      (h : σ.tasks[id]? = some (.outbound d record.token pairing phase))
      (hr : σ.outbound[d]? = some record) (hc : record.cancelled = true) :
      Opening σ (.join id script) .none
        { σ with tasks := σ.tasks.erase id, outbound := σ.outbound.erase d }
  | dialJoined {id : ℕ} {script : List (List TaskStep)} {d : DeviceId} {pairing : Bool}
      {phase : SetupPhase} {record : OutboundRecord}
      (h : σ.tasks[id]? = some (.outbound d record.token pairing phase))
      (hr : σ.outbound[d]? = some record) (hc : record.cancelled = false) :
      Opening σ (.join id script) (.dial d record.pairing record.replies)
        { σ with tasks := σ.tasks.erase id, outbound := σ.outbound.erase d }
  | pairingJoined {id : ℕ} {script : List (List TaskStep)} {a : PairingAttemptId}
      {pending : Pending} {commands : List PairingCommand} {result : PairingTaskResult}
      {reply : Option ReplyId}
      (h : σ.tasks[id]? = some (.pairing a pending commands (.done result reply))) :
      Opening σ (.join id script)
        (.attempt a pending.remoteDeviceId (σ.pendingPairings.contains a) reply)
        { σ with tasks := σ.tasks.erase id, pendingPairings := σ.pendingPairings.erase a }
  | sessionJoined {id : ℕ} {script : List (List TaskStep)} {s : SessionId} {c : Authorized}
      {failure : ConnectivityFailure} (h : σ.tasks[id]? = some (.session s c (some failure)))
      (hs : s ∈ σ.sessions) :
      Opening σ (.join id script) .none
        ({ σ with tasks := σ.tasks.erase id }.sessionLost s c.remoteDeviceId .connectionClosed
          failure)
  | due {script : List (List TaskStep)} {d : DeviceId} {connectivity : Scheduler}
      (h : σ.connectivity.takeDue σ.shared.clock = some (d, connectivity)) :
      Opening σ (.timer script) (.dial d false []) { σ with connectivity }

/-- How it ends. -/
inductive Closing (blake3 : Blake3) (B : Bounds) :
    Hand → Daemon → Daemon → Prop
  | none (σ : Daemon) : Closing blake3 B .none σ σ
  | respawned (σ : Daemon) : Closing blake3 B .incoming σ (σ.spawn (.incoming .connecting))
  | request (σ : Daemon) (reply : ReplyId) (message : Reply) :
      Closing blake3 B (.request reply) σ (σ.send reply message)
  | answered {σ : Daemon} {d : DeviceId} {pairing : Bool} {result : OperationResult DialResult}
      (h : Answers σ d pairing result) (hs : pairing = false → Settled σ d ∨ B.blocked d)
      (ht : pairing = false → Told σ d ∨ B.unreported d) (waiting : List OutboundReply) :
      Closing blake3 B (.dial d pairing waiting) σ (σ.answer waiting result)
  | waits {σ : Daemon} {d : DeviceId} {record : OutboundRecord} {waiting : List OutboundReply}
      (h : σ.outbound[d]? = some record) (hc : record.cancelled = false)
      (hw : record.replies.length + waiting.length ≤ maxDialWaiters)
      (ht : record.pairing = false → Told σ d ∨ B.unreported d) :
      Closing blake3 B (.dial d record.pairing waiting) σ (σ.addWaiter d waiting)
  | refused (σ : Daemon) (a : PairingAttemptId) (accepted : Bool) (reply : ReplyId)
      (message : Reply) : Closing blake3 B (.decision a accepted reply) σ (σ.send reply message)
  -- The tasks may run before the decision is handed over.
  | delivered {σ σ' : Daemon} {a : PairingAttemptId} {record : PendingRecord} {accepted : Bool}
      (h : σ.pendingPairings[a]? = some record) (hr : record.resolving = Option.none)
      (hf : accepted = true → managedFull σ = false)
      (he : Evolves (taskStep blake3) B.acts
        (σ.setPending a { record with resolving := some accepted }) σ')
      (hl : σ'.listens a = true) (reply : ReplyId) :
      Closing blake3 B (.decision a accepted reply) σ (σ'.deliver a (.confirm accepted reply))
  | abandoned {σ σ' : Daemon} {a : PairingAttemptId} {record : PendingRecord} {accepted : Bool}
      (h : σ.pendingPairings[a]? = some record) (hr : record.resolving = Option.none)
      (he : Evolves (taskStep blake3) B.acts
        (σ.setPending a { record with resolving := some accepted }) σ')
      (hl : σ'.listens a = false) (hb : B.abandons a) (reply : ReplyId) :
      Closing blake3 B (.decision a accepted reply) σ (σ'.removePending a)
  | resolved {σ : Daemon} {d : DeviceId} {registered : Bool}
      (hm : registered = true → d ∈ σ.connectivity.peers ∨ B.lapses d) (a : PairingAttemptId)
      (reply : Option ReplyId) (result : PairingOutcome × OperationResult Response) :
      Closing blake3 B (.attempt a d registered reply) σ
        (resolvePairing σ a d registered reply result)

/-- Any number of moves. -/
abbrev Moves (blake3 : Blake3) (B : Bounds) (hand : Hand) :
    Daemon → Daemon → Prop :=
  Relation.ReflTransGen (Move blake3 B hand)

/-- Any number of moves, and possibly one that answers. -/
inductive Ended (blake3 : Blake3) (B : Bounds) (hand : Hand) (σ : Daemon) :
    Daemon → Prop
  | moved {σ' : Daemon} (h : Moves blake3 B hand σ σ') : Ended blake3 B hand σ σ'
  | answered {σ₁ σ' : Daemon} (h : Moves blake3 B hand σ σ₁) (ha : Answering blake3 B σ₁ σ') :
      Ended blake3 B hand σ σ'

/-- One handled event. Only before a timer is looked at may the tasks run. -/
inductive Handled (blake3 : Blake3) (B : Bounds) (σ : Daemon) (s : Step) :
    Daemon → Prop
  | intro {σ₁ σ₂ σ₃ σ' : Daemon} {hand : Hand} (hm : Moves blake3 B .none σ σ₁)
      (hs : σ₁ = σ ∨ ∃ script, s = .timer script) (ho : Opening σ₁ s hand σ₂)
      (he : Ended blake3 B hand σ₂ σ₃) (hc : Closing blake3 B hand σ₃ σ') : Handled blake3 B σ s σ'

/-! ### What every handled event keeps -/

variable {blake3 : Blake3} {B : Bounds} {hand : Hand} {σ σ' : Daemon}

theorem moves_of_evolves (h : Evolves (taskStep blake3) B.acts σ σ') : Moves blake3 B hand σ σ' :=
  h.stable (fun σ₁ _ hs h₁ => h₁.tail (.act σ₁ hs)) .refl

theorem Closing.connectivity_eq (h : Closing blake3 B hand σ σ') :
    σ'.connectivity = σ.connectivity := by
  cases h with
  | delivered _ _ _ he => exact (evolves_spec he).connectivity
  | abandoned _ _ he => exact (evolves_spec he).connectivity
  | @resolved _ _ registered _ _ reply _ =>
    unfold resolvePairing
    cases registered <;> cases reply <;> rfl
  | none | respawned | request | answered | waits | refused => rfl

theorem Moves.keep {P : Daemon → Prop} (h : Moves blake3 B hand σ σ')
    (hP : ∀ {σ σ'}, Move blake3 B hand σ σ' → P σ → P σ') (hσ : P σ) : P σ' := by
  induction h with
  | refl => exact hσ
  | tail _ hm ih => exact hP hm ih

/-- **The rule of handled events, stage by stage.** What holds before the opening, what it leads to,
which moves keep, what answers leads to, and where the closing leads. -/
theorem Handled.stages {s : Step} {P : Daemon → Prop} {Q A : Hand → Daemon → Prop}
    {R : Daemon → Prop} (h : Handled blake3 B σ s σ')
    (hidle : ∀ {σ σ'}, Move blake3 B .none σ σ' → P σ → P σ')
    (hopen : ∀ {hand σ σ'}, Opening σ s hand σ' → P σ → Q hand σ')
    (hmove : ∀ {hand σ σ'}, Move blake3 B hand σ σ' → Q hand σ → Q hand σ')
    (hstay : ∀ {hand σ}, Q hand σ → A hand σ)
    (hanswer : ∀ {hand σ σ'}, Answering blake3 B σ σ' → Q hand σ → A hand σ')
    (hclose : ∀ {hand σ σ'}, Closing blake3 B hand σ σ' → A hand σ → R σ')
    (hσ : P σ) : R σ' := by
  obtain @⟨_, _, _, _, hand, hm, -, ho, he, hc⟩ := h
  have hopened := hopen ho (hm.keep hidle hσ)
  refine hclose hc ?_
  cases he with
  | moved h => exact hstay (h.keep hmove hopened)
  | answered h ha => exact hanswer ha (h.keep hmove hopened)

/-- **The rule of handled events.** A property that tells what is in hand: moves and the opening keep
it, what answers leads from it to another one, and the closing from that to what is wanted. -/
theorem Handled.lead {s : Step} {P Q : Hand → Daemon → Prop} {R : Daemon → Prop}
    (h : Handled blake3 B σ s σ')
    (hmove : ∀ {hand σ σ'}, Move blake3 B hand σ σ' → P hand σ → P hand σ')
    (hopen : ∀ {hand σ σ'}, Opening σ s hand σ' → P .none σ → P hand σ')
    (hstay : ∀ {hand σ}, P hand σ → Q hand σ)
    (hanswer : ∀ {hand σ σ'}, Answering blake3 B σ σ' → P hand σ → Q hand σ')
    (hclose : ∀ {hand σ σ'}, Closing blake3 B hand σ σ' → Q hand σ → R σ')
    (hσ : P .none σ) : R σ' :=
  h.stages (P := P .none) hmove hopen hmove hstay hanswer hclose hσ

theorem Handled.keep {s : Step} {P : Hand → Daemon → Prop} (h : Handled blake3 B σ s σ')
    (hmove : ∀ {hand σ σ'}, Move blake3 B hand σ σ' → P hand σ → P hand σ')
    (hopen : ∀ {hand σ σ'}, Opening σ s hand σ' → P .none σ → P hand σ')
    (hanswer : ∀ {hand σ σ'}, Answering blake3 B σ σ' → P hand σ → P hand σ')
    (hclose : ∀ {hand σ σ'}, Closing blake3 B hand σ σ' → P hand σ → P .none σ')
    (hσ : P .none σ) : P .none σ' :=
  h.lead hmove hopen id hanswer hclose hσ

end Rift.Daemon
