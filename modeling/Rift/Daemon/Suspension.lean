import Rift.Daemon.Reconnect

/-! # A suspended peer stays suspended

Disconnecting a session suspends its peer. From then on, until a caller asks for a connection to it or
it is dropped, it has no deadline and no live dial, its dials that were under way give no session, and
whenever it has no session it rests in `suspended`, whatever else happens.

The main results are `Handled.resting` and `suspension_holds`. -/

namespace Rift.Daemon

open Rift.Lib Rift.Lib.Interference Rift.Core Rift.Ipc Rift.Session Std Std.Do
open Rift.Trust hiding Event

set_option mvcgen.warning false

variable {blake3 : Blake3} {B : Bounds} {hand : Hand} {σ σ' : Daemon}
  {d d' : DeviceId}

/-! ### Resting peers -/

namespace Peer

/-- The peer is suspended without a deadline, and in `suspended` unless it has a session. -/
structure Resting (peer : Peer) : Prop where
  suspended : peer.suspended = true
  due : peer.due = none
  state : peer.sessionId = none → peer.state = .suspended

theorem Resting.reported {peer : Peer} (h : peer.Resting) (deviceId : DeviceId) (now : ℕ) :
    (peer.reported deviceId now).Resting :=
  ⟨h.suspended, h.due, h.state⟩

theorem Resting.connected {peer : Peer} (h : peer.Resting) (sessionId : SessionId) (now : ℕ) :
    (peer.connected sessionId now).Resting :=
  ⟨h.suspended, rfl, nofun⟩

theorem resting_lost {peer : Peer} (h : peer.suspended = true) (now sample : ℕ) :
    (peer.lost now sample).Resting ∧ (peer.lost now sample).state = .suspended := by
  unfold lost
  rw [if_pos h]
  exact ⟨⟨h, rfl, fun _ => rfl⟩, rfl⟩

theorem resting_ended {peer : Peer} (h : peer.suspended = true) (failure : ConnectivityFailure)
    (now sample : ℕ) :
    (peer.ended failure now sample).Resting ∧ (peer.ended failure now sample).state = .suspended := by
  have hlost := resting_lost h now sample
  unfold ended
  rw [if_neg]
  · exact hlost
  · rintro ⟨-, hn⟩
    rw [hlost.1.suspended] at hn
    cases hn

theorem suspend_suspended (peer : Peer) : peer.suspend.suspended = true := by
  unfold suspend
  split_ifs <;> rfl

end Peer

/-- The device is managed and rests, and no live dial for a session with it is on record. -/
structure Resting (σ : Daemon) (d : DeviceId) : Prop where
  peer : ∃ p, σ.connectivity.peers[d]? = some p ∧ p.Resting
  idle : ¬ Live σ d

theorem Resting.modify (h : Resting σ d) {f : Peer → Peer}
    (hf : d' = d → ∀ p, p.Resting → (f p).Resting)
    (hp : σ'.connectivity.peers = σ.connectivity.peers.modify d' f) (hl : Live σ' d → Live σ d) :
    Resting σ' d := by
  obtain ⟨p, hpeer, hrest⟩ := h.peer
  refine ⟨?_, fun hlive => h.idle (hl hlive)⟩
  rw [hp]
  by_cases heq : d' = d
  · subst heq
    exact ⟨f p, Map.modify_eq_some.mpr (Or.inl ⟨rfl, p, hpeer, rfl⟩), hf rfl p hrest⟩
  · exact ⟨p, (Map.modify_ne heq).trans hpeer, hrest⟩

theorem Live.of_erase {tasks : ExtTreeMap ℕ Task}
    (h : Live { σ with tasks, outbound := σ.outbound.erase d' } d) : Live σ d := by
  obtain ⟨record, hr, hlive⟩ := h
  exact ⟨record, (Map.erase_eq_some.mp hr).2, hlive⟩

theorem Live.of_cancelled (h : Live σ' d) (ho : σ'.outbound = σ.outbound.modify d' fun record =>
    { record with cancelled := true, replies := [] }) : Live σ d := by
  obtain ⟨record, hr, hc, hp⟩ := h
  rw [ho] at hr
  rcases Map.modify_eq_some.mp hr with ⟨-, q, -, rfl⟩ | ⟨-, hr⟩
  · cases hc
  · exact ⟨record, hr, hc, hp⟩

theorem Live.of_addWaiter {waiting : List OutboundReply} (h : Live (σ.addWaiter d' waiting) d) :
    Live σ d := by
  obtain ⟨record, hr, hlive⟩ := h
  rcases Map.modify_eq_some.mp hr with ⟨rfl, q, hq, rfl⟩ | ⟨-, hr⟩
  · exact ⟨q, hq, hlive⟩
  · exact ⟨record, hr, hlive⟩

theorem Resting.congr (h : Resting σ d)
    (hp : σ'.connectivity.peers[d]? = σ.connectivity.peers[d]?) (hl : Live σ' d → Live σ d) :
    Resting σ' d :=
  ⟨hp ▸ h.peer, fun hlive => h.idle (hl hlive)⟩

theorem Resting.not_taken (h : Resting σ d) {now : ℕ} {connectivity : Scheduler}
    (htake : σ.connectivity.takeDue now = some (d', connectivity)) : d' ≠ d := by
  rintro rfl
  obtain ⟨⟨p, due, hp, hdue, -⟩, -⟩ := Scheduler.takeDue_eq_some htake
  obtain ⟨q, hq, hrest⟩ := h.peer
  cases hp.symm.trans hq
  rw [hrest.due] at hdue
  cases hdue

theorem Resting.evolved (h : Resting σ d) (he : Evolved σ σ') : Resting σ' d := by
  obtain ⟨tasks, shared, rfl⟩ := he.owned
  exact ⟨h.peer, h.idle⟩

theorem Resting.retireExisting (h : Resting σ d)
    (existing : Existing) :
    Resting (retireExisting σ existing) d := by
  rcases existing with _ | ⟨s, r, closed⟩
  · exact h
  · refine h.modify (fun _ p hp => ?_) rfl id
    cases closed with
    | false => exact hp
    | true => exact (Peer.resting_lost hp.suspended _ _).1

/-- **No move wakes a resting peer**, unless it is a caller's. -/
theorem Move.resting (hm : Move blake3 B hand σ σ') (hd : ∀ waiting, hand ≠ .dial d false waiting)
    (h : Resting σ d) : Resting σ' d := by
  cases hm with
  | act => exact h.evolved (taskStep_spec _ _).evolved
  | @manage _ _ _ d' hi =>
    rcases insertPeer_eq_some hi with ⟨rfl, -⟩ | ⟨rfl, hnew, -⟩
    · exact h
    · refine h.congr (Map.insert_ne ?_) id
      rintro rfl
      obtain ⟨p, hp, -⟩ := h.peer
      exact hnew (Map.mem_iff_exists.mpr ⟨p, hp⟩)
  | resume _ d' waiting => exact h.modify (fun heq => absurd (heq ▸ rfl) (hd waiting)) rfl id
  | @resolved _ d' hawaits =>
    refine h.modify (fun heq p hp => ?_) rfl id
    obtain ⟨q, hq, hrest⟩ := h.peer
    rw [awaitsRoute, heq, hq] at hawaits
    simp [hrest.suspended] at hawaits
  | fail _ _ waiting => exact h.modify (fun heq => absurd (heq ▸ rfl) (hd waiting)) rfl id
  | coalesce _ _ waiting => exact h.modify (fun heq => absurd (heq ▸ rfl) (hd waiting)) rfl id
  | @dial _ d' pairing _ _ _ hu _ _ waiting =>
    have hne : d' ≠ d := by
      rintro rfl
      cases pairing with
      | false => exact hd waiting rfl
      | true =>
        obtain ⟨p, hp, -⟩ := h.peer
        rw [hu rfl] at hp
        cases hp
    refine h.modify (fun heq => absurd heq hne) rfl ?_
    rintro ⟨record, hr, hlive⟩
    exact ⟨record, (Map.insert_ne hne).symm.trans hr, hlive⟩
  | openSession =>
    exact (h.retireExisting _).modify (fun _ p hp => (hp.connected _ _).reported _ _) rfl id
  | hint | close | drop | pend | commitFails => exact ⟨h.peer, h.idle⟩

theorem Opening.resting {s : Step} (ho : Opening σ s hand σ')
    (hs : ∀ command script, s = .command command script → ¬ command.Dials d) (h : Resting σ d) :
    Resting σ' d ∧ ∀ waiting, hand ≠ .dial d false waiting := by
  cases ho with
  | command command script => exact ⟨h, fun waiting heq => hs command script rfl ⟨waiting, heq⟩⟩
  | cancelledJoined => exact ⟨h.congr rfl Live.of_erase, nofun⟩
  | @dialJoined _ _ d' _ _ record _ hr hc =>
    refine ⟨h.congr rfl Live.of_erase, fun waiting heq => ?_⟩
    injection heq with hd hp
    subst hd
    exact h.idle ⟨record, hr, hc, hp⟩
  | sessionJoined =>
    refine ⟨h.modify (fun _ p hp => ?_) rfl id, nofun⟩
    exact (Peer.resting_ended hp.suspended _ _ _).1.reported _ _
  | due htake =>
    have hne := h.not_taken htake
    refine ⟨h.modify (fun heq => absurd heq hne) (Scheduler.takeDue_eq_some htake).2 id,
      fun _ heq => hne ?_⟩
    injection heq
  | idle | accepted | workerJoined | clientJoined | staleJoined | pairingJoined =>
    exact ⟨⟨h.peer, h.idle⟩, nofun⟩

theorem Answering.resting (ha : Answering blake3 B σ σ') (h : Resting σ d)
    (hd : B.drops d → d ∈ σ'.connectivity.peers) : Resting σ' d := by
  cases ha with
  | yield => exact h.congr rfl fun hl => hl.of_cancelled rfl
  | @disconnect s r _ =>
    refine h.modify (fun _ p hp => ?_) rfl fun hl => hl.of_cancelled rfl
    exact (Peer.resting_lost (Peer.suspend_suspended p) _ _).1.reported _ _
  | @invalidate τ m _ _ _ he reason _ hdrops =>
    have hev := evolves_spec he
    have hτ : Resting τ d := by
      refine h.congr (by rw [hev.connectivity]; rfl) ?_
      unfold Live
      rw [hev.outbound]
      exact id
    have hne : m.deviceId ≠ d := by
      rintro rfl
      obtain ⟨p, hp⟩ := Map.mem_iff_exists.mp (hd hdrops)
      exact ((Sound.invalidatePeer_peers reason).mp hp).2 rfl
    obtain ⟨p, hp, -⟩ := hτ.peer
    exact hτ.congr (((Sound.invalidatePeer_peers reason).mpr ⟨hp, hne⟩).trans hp.symm)
      fun hl => hl.of_cancelled rfl

theorem Closing.of_live (hc : Closing blake3 B hand σ σ') (h : Live σ' d) : Live σ d := by
  cases hc with
  | waits => exact h.of_addWaiter
  | delivered _ _ _ he =>
    have hev := (evolves_spec he).outbound
    unfold Live at h
    rw [show (deliver _ _ _).outbound = _ from hev] at h
    exact h
  | abandoned _ _ he =>
    have hev := (evolves_spec he).outbound
    unfold Live at h
    rw [show (removePending _ _).outbound = _ from hev] at h
    exact h
  | @resolved _ _ registered _ _ reply _ =>
    unfold resolvePairing at h
    cases registered <;> cases reply <;> exact h
  | none | respawned | request | answered | refused => exact h

/-- **No handled event but a caller's wakes a resting peer**, unless it is dropped. -/
theorem Handled.resting {s : Step} (hh : Handled blake3 B σ s σ')
    (hs : ∀ command script, s = .command command script → ¬ command.Dials d) (h : Resting σ d)
    (hd : B.drops d → d ∈ σ'.connectivity.peers) : Resting σ' d := by
  refine hh.lead (P := fun hand τ => Resting τ d ∧ ∀ waiting, hand ≠ .dial d false waiting)
    (Q := fun _ τ => (B.drops d → d ∈ τ.connectivity.peers) → Resting τ d)
    (R := fun τ => (B.drops d → d ∈ τ.connectivity.peers) → Resting τ d)
    (fun hm h => ⟨hm.resting h.2 h.1, h.2⟩) (fun ho h => ho.resting hs h.1) (fun h _ => h.1)
    (fun ha h => ha.resting h.1) (fun hc h hmem => ?_) ⟨h, nofun⟩ hd
  rw [hc.connectivity_eq] at hmem
  exact (h hmem).congr (by rw [hc.connectivity_eq]) hc.of_live

/-! ### Runs -/

theorem resting_disconnect (hs : Sound σ) {s : SessionId} {r : SessionRecord}
    (h : σ.sessions[s]? = some r) : Resting (σ.disconnect s r) r.info.deviceId := by
  obtain ⟨p, hp, -⟩ := hs.registered.linked s r h
  refine ⟨⟨_, Map.modify_eq_some.mpr (Or.inl ⟨rfl, p, hp, rfl⟩), ?_⟩, ?_⟩
  · exact (Peer.resting_lost (Peer.suspend_suspended p) _ _).1.reported _ _
  · rintro ⟨record, hr, hc, -⟩
    rcases Map.modify_eq_some.mp hr with ⟨-, q, -, rfl⟩ | ⟨hne, -⟩
    · cases hc
    · exact absurd rfl hne

theorem step_disconnectSession {s : SessionId} {r : SessionRecord} (h : σ.sessions[s]? = some r)
    (reply : ReplyId) (io : IoOutcome) (script : List (List TaskStep)) :
    step blake3 σ (.command (.request (.disconnectSession s) reply io) script) =
      (σ.disconnect s r).send reply (.response (.ok (.sessionDisconnected s))) := by
  have hrun : ∀ u w, (handleCommand blake3 (.request (.disconnectSession s) reply io)).run
      ⟨σ, script⟩ = (u, w) →
      w.state = (σ.disconnect s r).send reply (.response (.ok (.sessionDisconnected s))) := by
    refine run_of_triple ?_
    mvcgen [handleCommand, executeRequest]
    case vc1.h_1 v heq hnone =>
      subst heq
      exact absurd (h.symm.trans hnone) (by simp)
    case vc2.h_2 v heq record hr =>
      subst heq
      cases h.symm.trans hr
      rfl
  exact hrun _ _ rfl

/-- **No session dial to a resting peer gives a session**: its result is dropped. -/
theorem Resting.sessions_joined (h : Resting σ d) (hs : Sound σ) {id token : ℕ} {phase : SetupPhase}
    (ht : σ.tasks[id]? = some (.outbound d token false phase)) (script : List (List TaskStep)) :
    (step blake3 σ (.join id script)).sessions = σ.sessions := by
  have hdrop (τ : Daemon) (result : OperationResult ConnectionCandidate) :
      (dropCandidate τ result).sessions = τ.sessions := by
    rcases result with e | c | p <;> rfl
  have hrun (result : OperationResult ConnectionCandidate) :
      ∀ u w, (handleTaskOutput blake3 (.outbound d token result)).run
        ⟨{ σ with tasks := σ.tasks.erase id }, script⟩ = (u, w) → w.state.sessions = σ.sessions := by
    refine run_of_triple ?_
    mvcgen [handleTaskOutput]
    case vc1.h_1 v heq _ | vc2.h_2.isTrue v heq _ _ _ | vc3.h_2.isFalse.isTrue v heq _ _ _ _ =>
      subst heq
      exact hdrop _ _
    case vc4.h_2.isFalse.isFalse v heq record hr htoken hc =>
      subst heq
      have hp := (hs.tasked.token id _ d token false ht rfl).2 record hr (not_not.mp htoken)
      exact absurd ⟨record, hr, by simpa using hc, hp⟩ h.idle
  rw [step, ht]
  cases hphase : phase with
  | done result => exact hrun result _ _ rfl
  | _ => rfl

theorem Resting.session_joined (h : Resting σ d) {id : ℕ} {s : SessionId} {c : Authorized}
    {failure : ConnectivityFailure} (ht : σ.tasks[id]? = some (.session s c (some failure)))
    (hmem : s ∈ σ.sessions) (hd : c.remoteDeviceId = d) (script : List (List TaskStep)) :
    ∃ p, (step blake3 σ (.join id script)).connectivity.peers[d]? = some p ∧ p.state = .suspended := by
  have hrun : ∀ u w, (handleTaskOutput blake3
      (.sessionEnded s c.remoteDeviceId .connectionClosed failure)).run
        ⟨{ σ with tasks := σ.tasks.erase id }, script⟩ = (u, w) →
      ∃ p, w.state.connectivity.peers[d]? = some p ∧ p.state = .suspended := by
    refine run_of_triple ?_
    mvcgen [handleTaskOutput]
    case vc1 v heq _ =>
      subst heq hd
      obtain ⟨p, hp, hrest⟩ := h.peer
      exact ⟨_, Map.modify_eq_some.mpr (Or.inl ⟨rfl, p, hp, rfl⟩),
        (Peer.resting_ended hrest.suspended _ _ _).2⟩
    case vc2 v heq hnot =>
      subst heq
      exact absurd (ExtTreeMap.contains_iff_mem.mpr hmem) hnot
  rw [step, ht]
  exact hrun _ _ rfl

/-- The step is no caller's request for a session with the device, and does not drop it. -/
def LetsRest (blake3 : Blake3) (d : DeviceId) (σ : Daemon) : Step → Prop
  | .command command script => ¬ command.Dials d ∧
    (command.Drops d → d ∈ (step blake3 σ (.command command script)).connectivity.peers)
  | _ => True

/-- The bounds within which only what the step asks for is dropped. -/
def dropping (s : Step) : Bounds :=
  { unbounded with drops := fun d => ∃ command script, s = .command command script ∧ command.Drops d }

theorem within_dropping (σ : Daemon) (s : Step) : Within blake3 (dropping s) σ s where
  acts _ _ := trivial
  timer _ _ := ⟨fun _ _ _ _ => trivial, fun _ _ _ hu => absurd trivial hu⟩
  command command script hs := ⟨fun _ _ _ => Or.inr trivial, fun _ _ _ hu => absurd trivial hu,
    fun _ _ _ _ _ => trivial, fun _ hd => ⟨command, script, hs, hd⟩⟩
  join _ _ _ := ⟨fun _ _ _ _ => trivial, fun _ _ _ _ _ => trivial,
    fun _ _ _ _ _ _ _ _ => trivial, fun _ _ _ _ => trivial, fun _ _ _ _ => Or.inr trivial⟩

theorem resting_step (hs : Sound σ) {s : Step} (hl : LetsRest blake3 d σ s) (h : Resting σ d) :
    Resting (step blake3 σ s) d := by
  refine (step_handled hs (within_dropping σ s)).resting ?_ h ?_
  · rintro command script rfl
    exact hl.1
  · rintro ⟨command, script, rfl, hd⟩
    exact hl.2 hd

/-- **Suspension holds until an explicit reconnect.** After a session is disconnected on request, and
as long as no caller asks for a session with its device and the device is not dropped, its peer is
suspended without a deadline, the retry timer does not take it, no dial to it gives a session, and
whenever it has no session, or loses one, it is in `suspended`. -/
theorem suspension_holds {σ₀ : Daemon} (hreach : Reachable blake3 σ₀) {s : SessionId}
    {r : SessionRecord} (hsession : σ₀.sessions[s]? = some r) (reply : ReplyId) (io : IoOutcome)
    (script : List (List TaskStep)) {steps : List Step}
    (hrests : Meets blake3 (LetsRest blake3 r.info.deviceId)
      (step blake3 σ₀ (.command (.request (.disconnectSession s) reply io) script)) steps) :
    let d := r.info.deviceId
    let σ := run blake3 (step blake3 σ₀ (.command (.request (.disconnectSession s) reply io) script))
      steps
    (∃ p, σ.connectivity.peers[d]? = some p ∧ p.suspended = true ∧ p.due = none ∧
      (p.sessionId = none → p.state = .suspended)) ∧
    (∀ (now : ℕ) (d' : DeviceId) (connectivity : Scheduler),
      σ.connectivity.takeDue now = some (d', connectivity) → d' ≠ d) ∧
    (∀ (id token : ℕ) (phase : SetupPhase) (script : List (List TaskStep)),
      σ.tasks[id]? = some (.outbound d token false phase) →
      (step blake3 σ (.join id script)).sessions = σ.sessions) ∧
    ∀ (id : ℕ) (s : SessionId) (c : Authorized) (failure : ConnectivityFailure)
      (script : List (List TaskStep)), σ.tasks[id]? = some (.session s c (some failure)) →
      s ∈ σ.sessions → c.remoteDeviceId = d →
      ∃ p, (step blake3 σ (.join id script)).connectivity.peers[d]? = some p ∧
        p.state = .suspended := by
  intro d σ
  have hfirst : Resting
      (step blake3 σ₀ (.command (.request (.disconnectSession s) reply io) script)) d := by
    rw [step_disconnectSession hsession]
    have hrest := resting_disconnect hreach.sound hsession
    exact ⟨hrest.peer, hrest.idle⟩
  obtain ⟨hs, hrest⟩ : Sound σ ∧ Resting σ d :=
    hrests.keep (fun _ _ hs hl h => resting_step hs hl h) (hreach.sound.step _) hfirst
  obtain ⟨p, hp, hpeer⟩ := hrest.peer
  exact ⟨⟨p, hp, hpeer.suspended, hpeer.due, hpeer.state⟩, fun _ _ _ => hrest.not_taken,
    fun _ _ _ script ht => hrest.sessions_joined hs ht script,
    fun _ _ _ _ script ht hmem hd => hrest.session_joined ht hmem hd script⟩

/-- A session of the sample peer is disconnected, and two seconds later its peer is still suspended. -/
theorem sample_peer_is_suspended : ∃ σ₀, Reachable sampleBlake3 σ₀ ∧ ∃ s r,
    σ₀.sessions[s]? = some r ∧ ∃ p,
      (run sampleBlake3 (step sampleBlake3 σ₀ (.command (.request (.disconnectSession s) 0 .ok) []))
        [.task (.elapses (2000 * nanosPerMilli)), .timer []]).connectivity.peers[r.info.deviceId]? =
          some p ∧ p.suspended = true ∧ p.due = none := by
  obtain ⟨σ₀, hreach, hσ⟩ := exists_sampleRun (.repeated 1) (some sampleJournal) (sampleInbound 0)
    (fun σ => σ.sessions[1]?.isSome) (by decide +kernel)
  obtain ⟨r, hr⟩ := Option.isSome_iff_exists.mp hσ
  have hrests : Meets sampleBlake3 (LetsRest sampleBlake3 r.info.deviceId)
      (step sampleBlake3 σ₀ (.command (.request (.disconnectSession 1) 0 .ok) []))
      [.task (.elapses (2000 * nanosPerMilli)), .timer []] := ⟨trivial, trivial, trivial⟩
  obtain ⟨⟨p, hp, hsusp, hdue, -⟩, -⟩ := suspension_holds hreach hr 0 .ok [] hrests
  exact ⟨σ₀, hreach, 1, r, hr, p, hp, hsusp, hdue⟩

end Rift.Daemon
