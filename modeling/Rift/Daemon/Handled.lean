import Rift.Daemon.Dialling
import Rift.Daemon.Fence

/-! # Every step is a handled event

The handlers of commands, of task outputs and of the retry timer, run against any script of the tasks,
and with them the step of the daemon.

The main definitions are `Within` and `Passes`, the main results `handleCommand_spec`,
`handleTaskOutput_spec`, `timerFired_spec`, `step_handled` and `step_passes`. -/

namespace Rift.Daemon

open Rift.Lib Rift.Lib.Interference Rift.Core Rift.Ipc Rift.Session Std Std.Do
open Rift.Trust hiding Event

set_option mvcgen.warning false

variable {blake3 : Blake3} {B : Bounds} {hand : Hand}
  {w₀ w : World Daemon TaskStep} {d : DeviceId}

theorem Along.ended (h : Along blake3 B hand w₀ w) :
    Ended blake3 B hand w₀.state w.state ∧ Looks blake3 B hand w₀ w :=
  ⟨.moved h.moves, h.looks⟩

/-! ### Commands -/

/-- The device has no session and no pairing. -/
structure Cleared (σ : Daemon) (d : DeviceId) : Prop where
  sessions : ∀ (s : SessionId) (r : SessionRecord), σ.sessions[s]? = some r → r.info.deviceId ≠ d
  pairings : ∀ (a : PairingAttemptId) (r : PendingRecord), σ.pendingPairings[a]? = some r →
    r.info.deviceId ≠ d

theorem cleared_invalidatePeer (σ : Daemon) (d : DeviceId) (reason : SessionCloseReason) :
    Cleared (σ.invalidatePeer d reason) d where
  sessions _ _ hs := ((Sound.invalidatePeer_sessions reason).mp hs).2.symm
  pairings _ _ ha := of_decide_eq_true (Map.filter_eq_some.mp ha).2

theorem Along.invalidated (h : Along blake3 B hand w₀ w) {m : TrustMutation} {io : IoOutcome}
    (hm : ∀ peer, m ≠ .trust peer) (hok : (commit blake3 w.state.shared.store m none io).1 = .ok ())
    (hd : B.drops m.deviceId) (reason : SessionCloseReason) (state : Option TrustState) {σ : Daemon}
    (hσ : σ = ((World.acted (taskStep blake3)
      ⟨w.state.setStore (commit blake3 w.state.shared.store m none io).2, w.script⟩).state.invalidatePeer
        m.deviceId reason).emit (.trustChanged m.deviceId state)) :
    Ended blake3 B hand w₀.state σ ∧ Cleared σ m.deviceId ∧
      ∀ g ≤ w.state.shared.store.currentGeneration m.deviceId, Fenced σ.shared.store m.deviceId g := by
  subst hσ
  have hallowed : World.Allowed B.acts
      ⟨w.state.setStore (commit blake3 w.state.shared.store m none io).2, w.script⟩ := h.allowed
  have hev : Evolves (taskStep blake3) B.acts _ _ := hallowed.evolves
  obtain ⟨hsessions, hpairings⟩ := cleared_invalidatePeer (World.acted (taskStep blake3)
    ⟨w.state.setStore (commit blake3 w.state.shared.store m none io).2, w.script⟩).state m.deviceId
    reason
  refine ⟨.answered h.moves (.invalidate hm hok hev reason state hd), ⟨hsessions, hpairings⟩,
    fun g hg => ?_⟩
  exact (fenced_commit h.sound.bounded hm hok hg).grows (evolves_spec hev).grows

/-- The decision about the device is in force: nothing rests on trust in it any more, and what was
captured at the generation, or before, stays out. -/
structure Enforced (σ : Daemon) (d : DeviceId) (generation : ℕ) : Prop where
  cleared : Cleared σ d
  fenced : ∀ g ≤ generation, Fenced σ.shared.store d g

theorem executeRequest_spec {reply : ReplyId} (h : Along blake3 B (.request reply) w₀ w)
    (request : Request) (io : IoOutcome)
    (hd : ∀ d, (Command.request request reply io).Drops d → B.drops d) :
    ∀ r w', (executeRequest blake3 request io).run w = (r, w') →
      Ended blake3 B (.request reply) w₀.state w'.state ∧ Looks blake3 B (.request reply) w₀ w' := by
  refine run_of_triple ?_
  mvcgen [executeRequest, mutate, invalidate]
  case vc2.h_2 heq => subst heq; exact h.acted.ended
  case vc6.h_6.h_1 heq e he | vc8.h_7.h_1 heq e he =>
    subst heq
    exact (h.acted.move (.commitFails (fun _ hm => by cases hm) he reply)).ended
  case vc7.h_6.h_2 d hreq v heq hok =>
    subst heq hreq
    exact ⟨(h.acted.invalidated (m := .revoke d) (fun _ hm => by cases hm) hok (hd d rfl) .revoked _
      rfl).1, h.acted.looked fun _ he => .committed h.acted.moves hok he⟩
  case vc9.h_7.h_2 d hreq v heq hok =>
    subst heq hreq
    exact ⟨(h.acted.invalidated (m := .forget d) (fun _ hm => by cases hm) hok (hd d rfl) .forgotten _
      rfl).1, h.acted.looked fun _ he => .committed h.acted.moves hok he⟩
  case vc11.h_8.h_2 v heq record hs =>
    subst heq
    exact ⟨.answered h.moves (.disconnect hs), h.looks⟩
  case vc10.h_8.h_1 heq _ => subst heq; exact h.ended
  all_goals
    next heq => subst heq; exact h.ended

theorem executeRequest_enforces (h : Along blake3 B hand w₀ w) {request : Request}
    (hreq : request = .revokePeer d ∨ request = .forgetPeer d) (io : IoOutcome) (hd : B.drops d) :
    ∀ r w', (executeRequest blake3 request io).run w = (r, w') → (∃ response, r = .ok response) →
      Enforced w'.state d (w.state.shared.store.currentGeneration d) := by
  have hgen := h.evolved.grows.generation d
  rcases hreq with rfl | rfl
  · refine run_of_triple ?_
    mvcgen [executeRequest, mutate, invalidate]
    case vc1 => rintro ⟨_, hr⟩; cases hr
    case vc2 v heq hok =>
      subst heq
      obtain ⟨-, hcleared, hfenced⟩ :=
        h.acted.invalidated (m := .revoke d) (fun _ hm => by cases hm) hok hd .revoked (some .revoked)
          rfl
      exact fun _ => ⟨hcleared, fun g hg => hfenced g (hg.trans_eq hgen.symm)⟩
  · refine run_of_triple ?_
    mvcgen [executeRequest, mutate, invalidate]
    case vc1 => rintro ⟨_, hr⟩; cases hr
    case vc2 v heq hok =>
      subst heq
      obtain ⟨-, hcleared, hfenced⟩ :=
        h.acted.invalidated (m := .forget d) (fun _ hm => by cases hm) hok hd .forgotten none rfl
      exact fun _ => ⟨hcleared, fun g hg => hfenced g (hg.trans_eq hgen.symm)⟩

@[spec] theorem executeRequest_run (request : Request) (io : IoOutcome)
    {Q : Post Daemon TaskStep (OperationResult Response)} :
    ⦃fun w => Q.1 ((executeRequest blake3 request io).run w).1
      ((executeRequest blake3 request io).run w).2⦄
    executeRequest blake3 request io ⦃Q⦄ :=
  run_spec _

theorem rememberPeerAddr_ok {σ : Daemon} {peer : EndpointAddr}
    (h : (σ.rememberPeerAddr peer).1 = .ok d) : d = peer.deviceId := by
  unfold rememberPeerAddr at h
  split_ifs at h <;> cases h <;> rfl

theorem dialAddr_spec {peer : EndpointAddr} {pairing : Bool} {reply : OutboundReply}
    (h : Along blake3 B (.dial peer.deviceId pairing [reply]) w₀ w)
    (hb : pairing = false → Settled w.state peer.deviceId ∨ B.blocked peer.deviceId)
    (ht : pairing = false → ¬ B.unreported peer.deviceId → Joinable w.state peer.deviceId) :
    ∀ r w', (dialAddr blake3 peer pairing reply).run w = (r, w') →
      Finished blake3 B (.dial peer.deviceId pairing [reply]) w₀ w' := by
  refine run_of_triple ?_
  mvcgen [dialAddr]
  case vc1.h_1 v heq d hd =>
    subst heq
    obtain rfl := rememberPeerAddr_ok hd
    have hhinted := h.move (.hint v.state (v.state.rememberPeerAddr peer).2)
    exact spawnOutbound_spec (some reply) hhinted (fun hp _ => hb hp)
      (fun hp hu => Or.inl ⟨(ht hp hu).told, (ht hp hu).live⟩) _ _ rfl
  case vc2.h_2 v heq e _ =>
    subst heq
    have he := not_mem_invariantFailures (connectionError_code e)
    have hhinted := h.move (.hint v.state (v.state.rememberPeerAddr peer).2)
    refine ⟨_, .moved hhinted.moves, .answered ?_ ?_ (fun hp => ?_) _, hhinted.looks⟩
    · exact he
    · exact hb
    · by_cases hu : B.unreported peer.deviceId
      · exact Or.inr hu
      · exact Or.inl (ht hp hu).told

@[spec] theorem dialAddr_run (peer : EndpointAddr) (pairing : Bool) (reply : OutboundReply)
    {Q : Post Daemon TaskStep Unit} :
    ⦃fun w => Q.1 ((dialAddr blake3 peer pairing reply).run w).1
      ((dialAddr blake3 peer pairing reply).run w).2⦄
    dialAddr blake3 peer pairing reply ⦃Q⦄ :=
  run_spec _

/-- What a command needs of its bounds. -/
structure CommandWithin (blake3 : Blake3) (B : Bounds)
    (w : World Daemon TaskStep) (command : Command) : Prop where
  dial : ∀ d waiting, command.hand = .dial d false waiting → Settled w.state d ∨ B.blocked d
  told : ∀ d waiting, command.hand = .dial d false waiting → ¬ B.unreported d → Joinable w.state d
  decision : ∀ a accepted reply, command.hand = .decision a accepted reply →
    Abandons blake3 w a accepted → B.abandons a
  drops : ∀ d, command.Drops d → B.drops d

theorem resumeUnresolved_moves (σ : Daemon) (result : Except TransportFailure DeviceId)
    (reply : ReplyId) : Moves blake3 B (.request reply) σ (resumeUnresolved σ result) := by
  cases result with
  | error e => exact .refl
  | ok d =>
    unfold resumeUnresolved
    by_cases hd : σ.awaitsRoute d = true
    · simpa [hd] using Relation.ReflTransGen.single (Move.resolved hd reply)
    · simpa [hd] using Relation.ReflTransGen.refl

/-- **Handling a command.** -/
theorem handleCommand_spec {command : Command} (h : Along blake3 B command.hand w₀ w)
    (hc : CommandWithin blake3 B w command) :
    ∀ r w', (handleCommand blake3 command).run w = (r, w') →
      Finished blake3 B command.hand w₀ w' := by
  refine run_of_triple ?_
  mvcgen [handleCommand]
  case vc1.h_1 a accepted reply io hcmd v heq =>
    subst heq hcmd
    exact confirmPairing_spec h (hc.decision a accepted reply rfl) _ _ rfl
  case vc2.h_2 d reply io hcmd v heq =>
    subst heq hcmd
    exact spawnOutbound_spec (some (.ipc reply)) h (fun hp => by cases hp)
      (fun hp => by cases hp) _ _ rfl
  case vc3.h_3 d reply io hcmd v heq =>
    subst heq hcmd
    exact spawnOutbound_spec (some (.ipc reply)) h (fun _ _ => hc.dial d _ rfl)
      (fun _ hu => Or.inl (hc.told d _ rfl hu)) _ _ rfl
  case vc4.h_4 request reply io hconfirm hbegin hconnect hcmd v heq =>
    subst heq hcmd
    have hhand : (Command.request request reply io).hand = .request reply := by
      cases request with
      | confirmPairing a accepted => exact absurd rfl (hconfirm a accepted)
      | beginPairing d => exact absurd rfl (hbegin d)
      | connectPeer d => exact absurd rfl (hconnect d)
      | _ => rfl
    rw [hhand] at h ⊢
    obtain ⟨hended, hlooks⟩ := executeRequest_spec h request io hc.drops _ _ rfl
    exact ⟨_, hended, .request .., hlooks⟩
  case vc5.h_5 peer reply hcmd v heq =>
    subst heq hcmd
    exact dialAddr_spec h (fun hp => by cases hp) (fun hp => by cases hp) _ _ rfl
  case vc6.h_6 peer reply hcmd v heq =>
    subst heq hcmd
    exact dialAddr_spec h (fun _ => hc.dial peer.deviceId _ rfl)
      (fun _ hu => hc.told peer.deviceId _ rfl hu) _ _ rfl
  case vc7.h_7 s reply hcmd v heq result =>
    subst heq hcmd
    exact ⟨_, .moved h.moves, .request .., h.looks⟩
  case vc8.h_8 peer reply hcmd v heq =>
    subst heq hcmd
    exact ⟨_, .moved ((h.move (.hint _ _)).moves.trans (resumeUnresolved_moves _ _ reply)),
      .request .., h.looks⟩

/-! ### Task outputs -/

theorem dropCandidate_moves (σ : Daemon) (result : OperationResult ConnectionCandidate) :
    Moves blake3 B hand σ (dropCandidate σ result) := by
  rcases result with e | c | p
  · exact .refl
  · exact .single (.close _ _)
  · exact .single (.drop _ _)

theorem registerCandidate_spec (h : Along blake3 B hand w₀ w) (candidate : ConnectionCandidate)
    (hy : ∀ c, candidate = .authorized c → MayYield B w.state c.remoteDeviceId .inbound)
    (hl : candidate.remoteDeviceId = w.state.deviceId → B.itself) :
    ∀ r w', (registerCandidate blake3 candidate).run w = (r, w') →
      Ended blake3 B hand w₀.state w'.state ∧ Looks blake3 B hand w₀ w' := by
  refine run_of_triple ?_
  mvcgen [registerCandidate]
  case vc1.h_1 c hc v heq =>
    subst heq hc
    have hreg := (registerSession_spec h (hy c rfl) hl _ _ rfl).1
    exact ⟨hreg.ended, hreg.looks⟩
  case vc2.h_2 p hp v heq =>
    subst heq hp
    exact (registerPending_spec h hl _ _ rfl).1.ended

@[spec] theorem registerCandidate_run (candidate : ConnectionCandidate)
    {Q : Post Daemon TaskStep Unit} :
    ⦃fun w => Q.1 ((registerCandidate blake3 candidate).run w).1
      ((registerCandidate blake3 candidate).run w).2⦄
    registerCandidate blake3 candidate ⦃Q⦄ :=
  run_spec _

/-- Joining the task registers an inbound connection of the device. -/
inductive Task.Brings (σ : Daemon) (d : DeviceId) : Task → Prop
  | incoming {c : Authorized} (h : c.remoteDeviceId = d) :
      Brings σ d (.incoming (.done (.ok (.authorized c))))
  | pairing {a : PairingAttemptId} {pending : Pending} {commands : List PairingCommand}
      {c : Authorized} {reply : Option ReplyId} {record : PendingRecord}
      (h : pending.remoteDeviceId = d) (hr : σ.pendingPairings[a]? = some record)
      (ho : record.origin = .inbound) :
      Brings σ d (.pairing a pending commands (.done (.authorized c) reply))

/-- An inbound connection of the device ends a pairing dial to it. -/
def Clashes (σ : Daemon) (d : DeviceId) : Prop :=
  compare σ.deviceId d = .gt ∧
    ∃ record, σ.outbound[d]? = some record ∧ record.cancelled = false ∧ record.pairing = true

/-- What joining a task needs of its bounds. -/
structure JoinWithin (blake3 : Blake3) (B : Bounds) (σ : Daemon) (id : ℕ)
    (script : List (List TaskStep)) : Prop where
  acts : ∀ point ∈ script, ∀ s ∈ point, B.acts s
  yields : ∀ task d, σ.tasks[id]? = some task → task.Brings σ d → Clashes σ d → B.yields d
  lapses : ∀ a pending commands result reply,
    σ.tasks[id]? = some (.pairing a pending commands (.done result reply)) →
    a ∈ σ.pendingPairings →
    ¬ Manageable blake3
      ⟨{ σ with tasks := σ.tasks.erase id, pendingPairings := σ.pendingPairings.erase a }, script⟩
      result → B.lapses pending.remoteDeviceId
  itself : ∀ task g, σ.tasks[id]? = some task → task.captured = some (σ.deviceId, g) → B.itself
  told : ∀ d token phase, σ.tasks[id]? = some (.outbound d token false phase) →
    Told σ d ∨ B.unreported d

variable {σ : Daemon} {id : ℕ} {script : List (List TaskStep)} {task : Task}

theorem JoinWithin.mayYield (h : JoinWithin blake3 B σ id script) (ht : σ.tasks[id]? = some task)
    {origin : SessionOrigin} (hb : origin = .inbound → task.Brings σ d) : MayYield B σ d origin :=
  fun ho hgt record hr hc hp => h.yields task d ht (hb ho) ⟨hgt, record, hr, hc, hp⟩

theorem joinIncoming_spec (h : Sound σ) (hw : JoinWithin blake3 B σ id script)
    {result : OperationResult ConnectionCandidate}
    (ht : σ.tasks[id]? = some (.incoming (.done result))) :
    ∀ r w', (handleTaskOutput blake3 (.incoming result)).run
        ⟨{ σ with tasks := σ.tasks.erase id }, script⟩ = (r, w') →
      ∃ hand σ₂, Opening σ (.join id script) hand σ₂ ∧ Finished blake3 B hand ⟨σ₂, script⟩ w' := by
  have hopen : Opening σ (.join id script) .incoming _ := .workerJoined ht
  have halong : Along blake3 B .incoming _ ⟨{ σ with tasks := σ.tasks.erase id }, script⟩ :=
    .refl (hopen.sound h) hw.acts
  refine run_of_triple ?_
  mvcgen [handleTaskOutput]
  case vc1.h_1 candidate hr v heq =>
    subst heq hr
    obtain ⟨hended, hlooks⟩ := registerCandidate_spec halong candidate
      (fun c hc => hw.mayYield ht fun _ => by subst hc; exact .incoming rfl)
      (fun hl => hw.itself _ candidate.trustGeneration ht (by simp [Task.captured,
        SetupPhase.captured, hl])) _ _ rfl
    exact ⟨.incoming, _, hopen, _, hended, .respawned _, hlooks⟩
  case vc2.h_2 e hr v heq =>
    subst heq hr
    exact ⟨.incoming, _, hopen, _, .moved halong.moves, .respawned _, halong.looks⟩

theorem dialled_of_coherent {token : ℕ} {pairs : Bool} {result : OperationResult ConnectionCandidate}
    (h : (Task.outbound d token pairs (.done result)).Coherent) : Dialled d pairs result := by
  obtain ⟨hfits, hid⟩ := h
  refine ⟨fun c hr => ?_, fun p hr => ?_, fun e hr => ?_⟩
  · subst hr
    exact ⟨hfits, hid _ rfl⟩
  · subst hr
    exact ⟨hfits, hid _ rfl⟩
  · subst hr
    exact not_mem_invariantFailures hfits

theorem joinOutbound_spec (h : Sound σ) (hw : JoinWithin blake3 B σ id script) {token : ℕ}
    {pairs : Bool} {result : OperationResult ConnectionCandidate}
    (ht : σ.tasks[id]? = some (.outbound d token pairs (.done result))) :
    ∀ r w', (handleTaskOutput blake3 (.outbound d token result)).run
        ⟨{ σ with tasks := σ.tasks.erase id }, script⟩ = (r, w') →
      ∃ hand σ₂, Opening σ (.join id script) hand σ₂ ∧ Finished blake3 B hand ⟨σ₂, script⟩ w' := by
  have hcoherent := h.tasked.coherent id _ ht
  refine run_of_triple ?_
  mvcgen [handleTaskOutput]
  case vc1.h_1 v heq hr =>
    subst heq
    refine ⟨.none, _, .staleJoined ht fun record hr' => ?_, _, .moved (dropCandidate_moves _ _),
      .none _, fun _ => Or.inl⟩
    exact absurd (hr.symm.trans hr') (by simp)
  case vc2.h_2.isTrue v heq record hr hne =>
    subst heq
    refine ⟨.none, _, .staleJoined ht fun record' hr' => ?_, _, .moved (dropCandidate_moves _ _),
      .none _, fun _ => Or.inl⟩
    cases hr.symm.trans hr'
    exact hne
  case vc3.h_2.isFalse.isTrue v heq record hr htoken hc =>
    subst heq
    obtain rfl := not_not.mp htoken
    exact ⟨.none, _, .cancelledJoined ht hr hc, _, .moved (dropCandidate_moves _ _), .none _,
      fun _ => Or.inl⟩
  case vc4.h_2.isFalse.isFalse v heq record hr htoken hc =>
    subst heq
    obtain rfl := not_not.mp htoken
    rw [Bool.not_eq_true] at hc
    have hopen : Opening σ (.join id script) _ _ := .dialJoined ht hr hc
    obtain ⟨-, hpairs⟩ := h.tasked.token id _ d record.token pairs ht rfl
    have hdialled := dialled_of_coherent hcoherent
    rw [← hpairs record hr rfl] at hdialled
    have halong : Along blake3 B (.dial d record.pairing record.replies) _ ⟨_, script⟩ :=
      .refl (hopen.sound h) hw.acts
    refine ⟨_, _, hopen, finishDial_spec halong hdialled ?_ (fun hp => ?_) _ _ rfl⟩
    · rintro candidate rfl hl
      refine hw.itself _ candidate.trustGeneration ht ?_
      rw [← (hl : d = σ.deviceId), ← hcoherent.2 _ rfl]
      rfl
    · obtain rfl := (hpairs record hr rfl).symm.trans hp
      exact hw.told d _ _ ht

theorem joinPairing_spec (h : Sound σ) (hw : JoinWithin blake3 B σ id script) {a : PairingAttemptId}
    {pending : Pending} {commands : List PairingCommand} {result : PairingTaskResult}
    {reply : Option ReplyId}
    (ht : σ.tasks[id]? = some (.pairing a pending commands (.done result reply))) :
    ∀ r w', (handleTaskOutput blake3 (.pairingEnded a pending.remoteDeviceId result reply)).run
        ⟨{ σ with tasks := σ.tasks.erase id }, script⟩ = (r, w') →
      ∃ hand σ₂, Opening σ (.join id script) hand σ₂ ∧ Finished blake3 B hand ⟨σ₂, script⟩ w' := by
  have hsound : Sound { σ with tasks := σ.tasks.erase id } :=
    ⟨h.keyed, h.bounded, h.registered, h.tasked.erase ht fun _ _ _ hk => by cases hk⟩
  have hadmissible (c : Authorized) (hc : result = .authorized c) :
      Admissible B { σ with tasks := σ.tasks.erase id } a pending.remoteDeviceId c := by
    subst hc
    obtain rfl := h.tasked.coherent id _ ht
    exact ⟨rfl, fun record hr => hw.mayYield ht fun ho => .pairing rfl hr ho,
      fun hl => hw.itself _ pending.trustGeneration ht (by rw [← hl]; rfl)⟩
  have hallowed : World.Allowed B.acts ⟨{ σ with tasks := σ.tasks.erase id }, script⟩ := hw.acts
  intro r w' hrun
  exact ⟨_, _, .pairingJoined ht, finishPairing_spec hsound hallowed hadmissible
    (fun hmem hm => hw.lapses a pending commands result reply ht hmem hm) r w' hrun⟩

/-- **Handling the output of a task.** -/
theorem handleTaskOutput_spec (h : Sound σ) (hw : JoinWithin blake3 B σ id script)
    (ht : σ.tasks[id]? = some task) {output : TaskOutput} (ho : task.output = some output) :
    ∀ r w', (handleTaskOutput blake3 output).run ⟨{ σ with tasks := σ.tasks.erase id }, script⟩ =
        (r, w') →
      ∃ hand σ₂, Opening σ (.join id script) hand σ₂ ∧ Finished blake3 B hand ⟨σ₂, script⟩ w' := by
  unfold Task.output at ho
  split at ho <;> cases ho
  · exact joinIncoming_spec h hw ht
  · exact joinOutbound_spec h hw ht
  · exact joinPairing_spec h hw ht
  · next s c failure =>
    refine run_of_triple ?_
    mvcgen [handleTaskOutput]
    case vc1 v heq hmem =>
      subst heq
      exact ⟨.none, _, .sessionJoined ht (by simpa using hmem), _, .moved .refl, .none _, fun _ => Or.inl⟩
    case vc2 v heq hmem =>
      subst heq
      have hnone : σ.sessions[s]? = none := by simpa using hmem
      exact ⟨.none, _, .staleJoined ht hnone, _, .moved .refl, .none _, fun _ => Or.inl⟩
  · refine run_of_triple ?_
    mvcgen [handleTaskOutput]
    case vc1 v heq =>
      subst heq
      exact ⟨.none, _, .clientJoined ht, _, .moved .refl, .none _, fun _ => Or.inl⟩

/-! ### The loop -/

/-- A state that handling an event passes through. -/
inductive Passes (blake3 : Blake3) (B : Bounds) (σ : Daemon) (s : Step) : Daemon → Prop
  | before {τ : Daemon} (h : Moves blake3 B .none σ τ) : Passes blake3 B σ s τ
  | opened {σ₁ σ₂ τ : Daemon} {hand : Hand} (hm : Moves blake3 B .none σ σ₁)
      (ho : Opening σ₁ s hand σ₂) (h : Looked blake3 B hand σ₂ τ) : Passes blake3 B σ s τ
  | answered {σ₁ σ₂ σ₃ τ : Daemon} {hand : Hand} (hm : Moves blake3 B .none σ σ₁)
      (ho : Opening σ₁ s hand σ₂) (h : Moves blake3 B hand σ₂ σ₃)
      (ha : Answering blake3 B σ₃ τ) : Passes blake3 B σ s τ
  | handled {τ : Daemon} (h : Handled blake3 B σ s τ) : Passes blake3 B σ s τ

/-- A world in which an event is handled, and all whose looks were on the way. -/
def HandledIn (blake3 : Blake3) (B : Bounds) (σ : Daemon) (s : Step) (w : World Daemon TaskStep) :
    Prop :=
  Handled blake3 B σ s w.state ∧ ∀ τ ∈ w.script.seen, Passes blake3 B σ s τ

theorem Finished.handledIn {s : Step} {σ₁ : Daemon} (h : Finished blake3 B hand w₀ w)
    (hm : Moves blake3 B .none σ σ₁) (hs : σ₁ = σ ∨ ∃ script, s = .timer script)
    (ho : Opening σ₁ s hand w₀.state) (hseen : ∀ τ ∈ w₀.script.seen, Passes blake3 B σ s τ) :
    HandledIn blake3 B σ s w := by
  obtain ⟨σ₃, hended, hclosing, hlooks⟩ := h
  refine ⟨.intro hm hs ho hended hclosing, fun τ hτ => ?_⟩
  rcases hlooks τ hτ with hτ | hτ
  · exact hseen τ hτ
  · exact .opened hm ho hτ

/-- What the retry timer needs of its bounds. -/
structure TimerWithin (blake3 : Blake3) (B : Bounds) (σ : Daemon)
    (script : List (List TaskStep)) : Prop where
  blocked : ∀ d connectivity, (World.acted (taskStep blake3) ⟨σ, script⟩).state.connectivity.takeDue
    (World.acted (taskStep blake3) ⟨σ, script⟩).state.shared.clock = some (d, connectivity) →
    Blocks σ d → B.blocked d
  told : ∀ d connectivity, (World.acted (taskStep blake3) ⟨σ, script⟩).state.connectivity.takeDue
    (World.acted (taskStep blake3) ⟨σ, script⟩).state.shared.clock = some (d, connectivity) →
    ¬ B.unreported d → σ.outbound[d]? = none ∨ Silent σ d

/-- **The retry timer has fired.** -/
theorem timerFired_spec (h : Sound σ) (hallowed : World.Allowed B.acts ⟨σ, script⟩)
    (hw : TimerWithin blake3 B σ script) :
    ∀ r w', (timerFired blake3).run ⟨σ, script⟩ = (r, w') →
      HandledIn blake3 B σ (.timer script) w' := by
  have halong : Along blake3 B .none _ ⟨σ, script⟩ := .refl h hallowed
  have hact := halong.acted
  have hbefore (τ : Daemon) (hτ : τ ∈ (World.acted (taskStep blake3) ⟨σ, script⟩).script.seen) :
      Passes blake3 B σ (.timer script) τ := by
    rcases hallowed.evolves_of_mem hτ with hτ | he
    · cases hτ
    · exact .before (moves_of_evolves he)
  refine run_of_triple ?_
  mvcgen [timerFired]
  case vc1.h_1 v heq _ =>
    subst heq
    exact ⟨.intro hact.moves (Or.inr ⟨script, rfl⟩) (.idle nofun) (.moved .refl) (.none _), hbefore⟩
  case vc2.h_2 v heq d connectivity hd =>
    subst heq
    have hopen : Opening (World.acted (taskStep blake3) ⟨σ, script⟩).state (.timer script) _ _ :=
      .due hd
    have hstart : Along blake3 B (.dial d false []) _
        ⟨_, (World.acted (taskStep blake3) ⟨σ, script⟩).script⟩ :=
      .refl (hopen.sound hact.sound) hact.allowed
    have hblocked (hblocks : Blocks (World.acted (taskStep blake3) ⟨σ, script⟩).state d) :
        B.blocked d := by
      obtain ⟨record, hr, hblocks⟩ := hblocks
      rw [halong.evolved.outbound] at hr
      exact hw.blocked d connectivity hd ⟨record, hr, hblocks⟩
    obtain ⟨⟨p, due, hp, hdue, -⟩, hpeers⟩ := Scheduler.takeDue_eq_some hd
    have hclosed := hact.sound.canonicalSession_of_due hp (by rw [hdue]; rfl)
    have hreportable (hu : ¬ B.unreported d) :
        Reportable { (World.acted (taskStep blake3) ⟨σ, script⟩).state with connectivity } d := by
      rcases hw.told d connectivity hd hu with hnone | hsilent
      · exact Or.inr ⟨halong.evolved.outbound ▸ hnone, hclosed⟩
      · refine Or.inl (hsilent.dialling (hpeers.trans ?_)).joinable
        rw [halong.evolved.connectivity]
    have hfinished := spawnOutbound_spec none hstart
      (fun _ hblocks => Or.inr (hblocked hblocks)) (fun _ => hreportable) _ _ rfl
    exact hfinished.handledIn hact.moves (Or.inr ⟨script, rfl⟩) hopen hbefore

/-- What the tasks do during a step. -/
def Step.taskSteps : Step → List TaskStep
  | .task s => [s]
  | .timer script => script.flatten
  | .acceptClient => []
  | .command _ script => script.flatten
  | .join _ script => script.flatten

/-- **What a step needs of its bounds.** -/
structure Within (blake3 : Blake3) (B : Bounds) (σ : Daemon) (s : Step) :
    Prop where
  acts : ∀ act ∈ s.taskSteps, B.acts act
  timer : ∀ script, s = .timer script → TimerWithin blake3 B σ script
  command : ∀ command script, s = .command command script →
    CommandWithin blake3 B ⟨σ, script⟩ command
  join : ∀ id script, s = .join id script → JoinWithin blake3 B σ id script

theorem handled_of_moves {s : Step} {σ' : Daemon} (hs : ∀ command script, s ≠ .command command script)
    (hm : Moves blake3 B .none σ σ') : Handled blake3 B σ s σ' :=
  .intro .refl (Or.inl rfl) (.idle hs) (.moved hm) (.none _)

theorem allowed_of_flatten (h : ∀ act ∈ script.flatten, B.acts act) :
    World.Allowed B.acts ⟨σ, script⟩ :=
  fun point hpoint act hact => h act (List.mem_flatten.mpr ⟨point, hpoint, hact⟩)

theorem handleCommand_handledIn {command : Command} (h : Sound σ)
    (hw : Within blake3 B σ (.command command script)) :
    HandledIn blake3 B σ (.command command script)
      ((handleCommand blake3 command).run ⟨σ, script⟩).2 := by
  have halong : Along blake3 B command.hand _ ⟨σ, script⟩ := .refl h (allowed_of_flatten hw.acts)
  refine (handleCommand_spec halong (hw.command command script rfl) _ _ rfl).handledIn .refl
    (Or.inl rfl) (.command command script) fun τ hτ => ?_
  cases hτ

theorem handleTaskOutput_handledIn (h : Sound σ) (hw : Within blake3 B σ (.join id script))
    {output : TaskOutput} (ho : σ.tasks[id]?.bind Task.output = some output) :
    HandledIn blake3 B σ (.join id script)
      ((handleTaskOutput blake3 output).run ⟨{ σ with tasks := σ.tasks.erase id }, script⟩).2 := by
  obtain ⟨task, ht, ho⟩ := Option.bind_eq_some_iff.mp ho
  obtain ⟨hand, σ₂, hopen, hfinished⟩ :=
    handleTaskOutput_spec h (hw.join id script rfl) ht ho _ _ rfl
  refine hfinished.handledIn .refl (Or.inl rfl) hopen fun τ hτ => ?_
  cases hτ

/-- **A step is a handled event.** -/
theorem step_handled {s : Step} (h : Sound σ) (hw : Within blake3 B σ s) :
    Handled blake3 B σ s (step blake3 σ s) := by
  cases s with
  | task act =>
    have hact : B.acts act := hw.acts act (by simp [Step.taskSteps])
    exact handled_of_moves (by simp) (.single (.act σ hact))
  | timer script =>
    rw [step]
    split_ifs
    · exact (timerFired_spec h (allowed_of_flatten hw.acts) (hw.timer script rfl) _ _ rfl).1
    · exact handled_of_moves (by simp) .refl
  | acceptClient =>
    rw [step]
    split_ifs with hroom
    · exact .intro .refl (Or.inl rfl) (.accepted hroom.1 hroom.2) (.moved .refl) (.none _)
    · exact handled_of_moves (by simp) .refl
  | command command script => exact (handleCommand_handledIn h hw).1
  | join id script =>
    rw [step]
    split
    · next output ho => exact (handleTaskOutput_handledIn h hw ho).1
    · exact handled_of_moves (by simp) .refl

/-- The states at which the tasks get to act while an event is handled. -/
def stepLooks (blake3 : Blake3) (σ : Daemon) : Step → List Daemon
  | .timer script => if timerDue σ then looks (timerFired blake3) σ script else []
  | .command command script => looks (handleCommand blake3 command) σ script
  | .join id script =>
    match σ.tasks[id]?.bind Task.output with
    | some output => looks (handleTaskOutput blake3 output) { σ with tasks := σ.tasks.erase id } script
    | none => []
  | .task _ | .acceptClient => []

/-- **A step passes through what it looks at**, and ends in what it is handled to. -/
theorem step_passes {s : Step} (h : Sound σ) (hw : Within blake3 B σ s) :
    ∀ τ ∈ step blake3 σ s :: stepLooks blake3 σ s, Passes blake3 B σ s τ := by
  refine List.forall_mem_cons.mpr ⟨.handled (step_handled h hw), fun τ hτ => ?_⟩
  cases s with
  | task | acceptClient => cases hτ
  | timer script =>
    rw [stepLooks] at hτ
    split_ifs at hτ
    · exact (timerFired_spec h (allowed_of_flatten hw.acts) (hw.timer script rfl) _ _ rfl).2 τ hτ
    · cases hτ
  | command command script => exact (handleCommand_handledIn h hw).2 τ hτ
  | join id script =>
    rw [stepLooks] at hτ
    split at hτ
    · next output ho => exact (handleTaskOutput_handledIn h hw ho).2 τ hτ
    · cases hτ

end Rift.Daemon
