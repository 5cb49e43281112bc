import Rift.Daemon.Spawned

/-! # What holds in every state

The invariant of the daemon that no step breaks, whatever the interleaving: the registries agree with
each other and with the trust store (`Registered`), and the tasks fit both (`Tasked`).

The main results are `Move.sound`, `Answering.sound`, `Opening.sound`, `Closing.sound` and
`Handled.sound`. -/

namespace Rift.Daemon

open Rift.Lib Rift.Lib.Interference Rift.Core Rift.Ipc Rift.Session Std
open Rift.Trust hiding Event

variable {blake3 : Blake3} {B : Bounds} {P : TaskStep → Prop}
  {hand : Hand} {σ σ' : Daemon} {d : DeviceId}

/-- What the parts of a daemon always have to do with each other. -/
structure Sound (σ : Daemon) : Prop where
  keyed : Keyed σ.shared.store.decisions
  bounded : GenerationsBounded σ.shared.store
  registered : Registered σ.shared.store σ.shared.closed σ.sessions σ.nextSessionId
    σ.connectivity.peers
  tasked : Tasked σ.shared.store.currentGeneration σ.sessions σ.outbound σ.nextTask
    σ.nextSessionId σ.nextDialId σ.tasks

/-- The part of it that does not speak of the registries of sessions and peers together. -/
structure Prepared (σ : Daemon) : Prop where
  keyed : Keyed σ.shared.store.decisions
  bounded : GenerationsBounded σ.shared.store
  tasked : Tasked σ.shared.store.currentGeneration σ.sessions σ.outbound σ.nextTask
    σ.nextSessionId σ.nextDialId σ.tasks

theorem Prepared.acted {s : TaskStep} (h : Prepared σ) (ha : Acted blake3 σ s σ') : Prepared σ' := by
  have hg := ha.grows
  have hgen : σ'.shared.store.currentGeneration = σ.shared.store.currentGeneration :=
    funext hg.generation
  refine ⟨hg.keyed h.keyed, hg.bounded h.bounded, ?_⟩
  rw [hgen]
  cases ha with
  | task ht hs =>
    exact h.tasked.step ht hs.kind (fun d g hc => hs.captured h.keyed hc) (hs.coherent h.keyed)
  | outside => exact h.tasked

theorem Prepared.evolves (h : Prepared σ) (he : Evolves (taskStep blake3) P σ σ') :
    Prepared σ' :=
  he.stable (fun σ₁ s _ h₁ => h₁.acted (taskStep_spec σ₁ s)) h

namespace Sound

theorem prepared (h : Sound σ) : Prepared σ := ⟨h.keyed, h.bounded, h.tasked⟩

/-! ### Steps of the tasks -/

theorem evolves (h : Sound σ) (he : Evolves (taskStep blake3) P σ σ') : Sound σ' := by
  have hp := h.prepared.evolves he
  have hev := evolves_spec he
  refine ⟨hp.keyed, hp.bounded, ?_, hp.tasked⟩
  have hreg := h.registered.mono hev.grows hev.closed
  obtain ⟨tasks, shared, rfl⟩ := hev.owned
  exact hreg

/-! ### Peers -/

theorem setPeers (h : Sound σ) {peers : ExtTreeMap DeviceId Peer}
    (hp : Registered σ.shared.store σ.shared.closed σ.sessions σ.nextSessionId peers) :
    Sound (σ.setPeers peers) :=
  ⟨h.keyed, h.bounded, hp, h.tasked⟩

theorem registered_resume (h : Sound σ) (d : DeviceId) {f : Peer → Peer} (now : ℕ)
    (hf : ∀ p, p.WellFormed → (f p).WellFormed ∧ (f p).sessionId = p.sessionId ∧
      (f p).state = (p.resume now).state) :
    Registered σ.shared.store σ.shared.closed σ.sessions σ.nextSessionId
      (σ.connectivity.peers.modify d f) := by
  refine h.registered.modify (fun p hp => ?_) fun p s r hp hs hd hr => ?_
  · have hw := hf p (h.registered.wellFormed d p hp)
    exact ⟨hw.1, hw.2.1⟩
  · subst hd
    obtain ⟨q, hq, hqs⟩ := h.registered.linked s r hs
    rw [hp] at hq
    cases hq
    rw [(hf p (h.registered.wellFormed _ p hp)).2.2, Peer.resume_state _ (by simp [hqs])]
    exact h.registered.connected s r p hs hr hp

theorem resumePeer (h : Sound σ) (d : DeviceId) : Sound (σ.resumePeer d) :=
  h.setPeers (h.registered_resume d σ.shared.clock fun _ hw =>
    ⟨hw.resume _, Peer.resume_sessionId .., rfl⟩)

theorem resolved (h : Sound σ) (d : DeviceId) :
    Sound (σ.changePeer d fun peer => peer.resume σ.shared.clock) :=
  ⟨h.keyed, h.bounded, h.registered_resume d σ.shared.clock fun _ hw =>
    ⟨(hw.resume _).reported .., Peer.resume_sessionId .., rfl⟩, h.tasked⟩

theorem registered_of_closed (h : Sound σ) (hn : σ.canonicalSession d = none) {f : Peer → Peer}
    (hf : ∀ p, (f p).WellFormed ∧ (f p).sessionId = p.sessionId) :
    Registered σ.shared.store σ.shared.closed σ.sessions σ.nextSessionId
      (σ.connectivity.peers.modify d f) := by
  refine h.registered.modify (fun p _ => hf p) fun p s r _ hs hd hr => ?_
  exact absurd (canonicalSession_eq_none.mp hn s r hs hd) hr

theorem connectivityFailed (h : Sound σ) (hn : σ.canonicalSession d = none)
    (failure : ConnectivityFailure) : Sound (σ.connectivityFailed d failure) :=
  ⟨h.keyed, h.bounded, h.registered_of_closed hn fun _ =>
    ⟨(Peer.wellFormed_failed ..).reported .., Peer.failed_sessionId ..⟩, h.tasked⟩

theorem dialling (h : Sound σ) (hn : σ.canonicalSession d = none) :
    Sound (σ.modifyPeer d Peer.dialling) :=
  h.setPeers (h.registered_of_closed hn fun _ => ⟨Peer.wellFormed_dialling _, rfl⟩)

theorem insertPeer (h : Sound σ) (hi : σ.insertPeer d = some σ')
    (ht : σ.shared.store.state d = some .trusted) : Sound σ' := by
  rcases insertPeer_eq_some hi with ⟨rfl, -⟩ | ⟨rfl, hd, -⟩
  · exact h
  · exact h.setPeers (h.registered.insert_new ht hd _)

/-! ### Tasks and dials -/

theorem spawn (h : Sound σ) {t : Task} (hc : t.captured = none)
    (hk : t.kind = .incoming ∨ t.kind = .ipcClient) : Sound (σ.spawn t) := by
  have hs (s : SessionId) (c : Authorized) : t.kind ≠ .session s c := by
    rcases hk with hk | hk <;> rw [hk] <;> exact nofun
  have ho (d : DeviceId) (token : ℕ) (pairs : Bool) : t.kind ≠ .outbound d token pairs := by
    rcases hk with hk | hk <;> rw [hk] <;> exact nofun
  refine ⟨h.keyed, h.bounded, h.registered, h.tasked.spawn (fun d g hcap => ?_) ?_
    (fun s c hk => absurd hk (hs s c)) fun d token pairs hk => absurd hk (ho d token pairs)⟩
  · rw [hc] at hcap
    cases hcap
  · cases t with
    | incoming | ipcClient => exact trivial
    | outbound | pairing | session => rcases hk with hk | hk <;> cases hk

theorem modify_outbound {outbound : ExtTreeMap DeviceId OutboundRecord}
    {f : OutboundRecord → OutboundRecord}
    (hf : ∀ record, (f record).token = record.token ∧ (f record).pairing = record.pairing)
    (d' : DeviceId) (record : OutboundRecord) (hr : (outbound.modify d f)[d']? = some record) :
    ∃ record' : OutboundRecord, outbound[d']? = some record' ∧ record'.token = record.token ∧
      record'.pairing = record.pairing := by
  rcases Map.modify_eq_some.mp hr with ⟨rfl, u, hu, rfl⟩ | ⟨-, hr⟩
  · exact ⟨u, hu, (hf u).1.symm, (hf u).2.symm⟩
  · exact ⟨record, hr, rfl, rfl⟩

theorem cancelOutbound (h : Sound σ) (d : DeviceId) (result : OperationResult DialResult) :
    Sound (σ.cancelOutbound d result) :=
  ⟨h.keyed, h.bounded, h.registered, h.tasked.mono (fun _ => Nat.le_refl _) (fun _ _ hs => hs)
    (modify_outbound fun _ => ⟨rfl, rfl⟩)⟩

theorem addWaiter (h : Sound σ) (d : DeviceId) (waiting : List OutboundReply) :
    Sound (σ.addWaiter d waiting) :=
  ⟨h.keyed, h.bounded, h.registered, h.tasked.mono (fun _ => Nat.le_refl _) (fun _ _ hs => hs)
    (modify_outbound fun _ => ⟨rfl, rfl⟩)⟩

theorem startDial (h : Sound σ) {pairing : Bool}
    (hs : pairing = false → σ.canonicalSession d = none)
    (hp : pairing = true → σ.connectivity.peers[d]? = none) : Sound (σ.startDial d pairing) := by
  have hreg : Registered σ.shared.store σ.shared.closed σ.sessions σ.nextSessionId
      (σ.connectivity.peers.modify d fun p => p.dialling.reported d σ.shared.clock) := by
    cases pairing with
    | false =>
      exact h.registered_of_closed (hs rfl) fun p => ⟨(Peer.wellFormed_dialling p).reported .., rfl⟩
    | true =>
      refine h.registered.modify (fun p hp' => ?_) fun p _ _ hp' => ?_
      · rw [hp rfl] at hp'; cases hp'
      · rw [hp rfl] at hp'; cases hp'
  exact ⟨h.keyed, h.bounded, hreg, h.tasked.dial d pairing⟩

theorem addPending (h : Sound σ) {pending : Pending}
    (hg : σ.shared.store.currentGeneration pending.remoteDeviceId = pending.trustGeneration)
    (origin : SessionOrigin) : Sound (σ.addPending pending origin) :=
  ⟨h.keyed, h.bounded, h.registered, h.tasked.spawn
    (fun d g hc => by cases hc; exact Nat.le_of_eq hg.symm) trivial
    (fun _ _ hk => by cases hk) fun _ _ _ hk => by cases hk⟩

/-! ### Sessions -/

theorem disconnect (h : Sound σ) {s : SessionId} {r : SessionRecord}
    (hs : σ.sessions[s]? = some r) : Sound (σ.disconnect s r) := by
  refine ⟨h.keyed, h.bounded, ?_, ?_⟩
  · have hreg := h.registered.erase hs
      (f := fun p => (p.suspend.lost σ.shared.clock 0).reported r.info.deviceId σ.shared.clock)
      fun p => ⟨(Peer.wellFormed_lost ..).reported .., Peer.lost_sessionId ..⟩
    exact hreg.mono (.refl _) (Finset.subset_insert _ _)
  · exact h.tasked.mono (fun _ => Nat.le_refl _) (fun _ _ hs => (Map.erase_eq_some.mp hs).2)
      (modify_outbound fun _ => ⟨rfl, rfl⟩)

theorem sessionLost (h : Sound σ) {id : ℕ} {s : SessionId} {c : Authorized}
    {failure : ConnectivityFailure} (ht : σ.tasks[id]? = some (.session s c (some failure)))
    (hs : s ∈ σ.sessions) (reason : SessionCloseReason) :
    Sound ({ σ with tasks := σ.tasks.erase id }.sessionLost s c.remoteDeviceId reason failure) := by
  obtain ⟨r, hr⟩ := Map.mem_iff_exists.mp hs
  have hd : r.info.deviceId = c.remoteDeviceId := (h.tasked.session id _ s c ht rfl).2 r hr
  have hjoined := h.tasked.erase ht fun _ _ _ hk => by cases hk
  refine ⟨h.keyed, h.bounded, ?_, ?_⟩
  · rw [← hd]
    exact h.registered.erase hr fun p =>
      ⟨(Peer.wellFormed_ended ..).reported .., Peer.ended_sessionId ..⟩
  · exact hjoined.mono (fun _ => Nat.le_refl _) (fun _ _ hs => (Map.erase_eq_some.mp hs).2)
      fun _ record hr => ⟨record, hr, rfl, rfl⟩

theorem openSession {τ : Daemon} {sessions : ExtTreeMap SessionId SessionRecord}
    {peers : ExtTreeMap DeviceId Peer} (h : Prepared τ)
    (hreg : Registered τ.shared.store τ.shared.closed sessions τ.nextSessionId peers)
    {c : Authorized} (ht : τ.shared.store.state c.remoteDeviceId = some .trusted)
    (hg : τ.shared.store.currentGeneration c.remoteDeviceId = c.trustGeneration)
    (hs : ∀ (s : SessionId) (r : SessionRecord), τ.sessions[s]? = some r ↔
      sessions[s]? = some r ∧ c.remoteDeviceId ≠ r.info.deviceId)
    (hp : ∀ d, c.remoteDeviceId ≠ d → τ.connectivity.peers[d]? = peers[d]?)
    (hd : c.remoteDeviceId ∈ τ.connectivity.peers) (origin : SessionOrigin) :
    Sound (τ.openSession c origin) := by
  obtain ⟨p, hd⟩ := Map.mem_iff_exists.mp hd
  refine ⟨h.keyed, h.bounded, ?_, ?_⟩
  · exact @Registered.replace _ _ _ _ _ _ _ hreg (τ.sessionRecord c origin) ht hg
      (fun s r hr => (hs s r).mp hr) (fun s r hr hne => (hs s r).mpr ⟨hr, hne⟩) hp p hd _
      fun p => ⟨(Peer.wellFormed_connected p _ _).reported .., rfl, rfl⟩
  · refine (h.tasked.insert_session _).spawn (fun d g hc => ?_) trivial (fun s c' hk => ?_)
      fun _ _ _ hk => by cases hk
    · cases hc
      exact Nat.le_of_eq hg.symm
    · cases hk
      refine ⟨Nat.lt_succ_self _, fun r hr => ?_⟩
      simp only [ExtTreeMap.getElem?_insert_self, Option.some.injEq] at hr
      rw [← hr]
      rfl

theorem openSession_replacing (h : Sound σ) {existing : Existing}
    {c : Authorized} (ht : σ.shared.store.state c.remoteDeviceId = some .trusted)
    (hg : σ.shared.store.currentGeneration c.remoteDeviceId = c.trustGeneration)
    (hp : c.remoteDeviceId ∈ σ.connectivity.peers) (he : Replaces σ c.remoteDeviceId existing)
    (origin : SessionOrigin) : Sound ((retireExisting σ existing).openSession c origin) := by
  rcases existing with _ | ⟨s, r, closed⟩
  · refine openSession h.prepared h.registered ht hg (fun s r => ?_) (fun _ _ => rfl) hp origin
    exact ⟨fun hs => ⟨hs, (he.2 s r hs).symm⟩, And.left⟩
  · obtain ⟨hs, hd, -⟩ := he
    have hprep : Prepared (σ.retire s r closed) :=
      ⟨h.keyed, h.bounded, h.tasked.mono (fun _ => Nat.le_refl _)
        (fun _ _ hs => (Map.erase_eq_some.mp hs).2) fun _ record hr => ⟨record, hr, rfl, rfl⟩⟩
    have hreg := h.registered.mono (.refl _) (Finset.subset_insert r.closer σ.shared.closed)
    refine openSession hprep hreg ht hg (fun s' r' => ?_) (fun d hne => ?_) ?_ origin
    · refine Map.erase_eq_some.trans ⟨fun ⟨hne, hs'⟩ => ⟨hs', fun heq => ?_⟩, fun ⟨hs', hne⟩ =>
        ⟨fun heq => ?_, hs'⟩⟩
      · exact hne (h.registered.unique hs hs' (hd.trans heq))
      · subst heq
        rw [hs] at hs'
        cases hs'
        exact hne hd.symm
    · exact Map.modify_ne (by rw [hd]; exact hne)
    · exact ExtTreeMap.mem_modify.mpr hp

/-! ### Decisions -/

theorem invalidatePeer_peers (reason : SessionCloseReason) {d' : DeviceId} {p : Peer} :
    (σ.invalidatePeer d reason).connectivity.peers[d']? = some p ↔
      σ.connectivity.peers[d']? = some p ∧ d ≠ d' := by
  refine Map.erase_eq_some.trans ⟨fun ⟨hne, hp⟩ => ⟨?_, hne⟩, fun ⟨hp, hne⟩ => ⟨hne, ?_⟩⟩
  · exact (Map.modify_ne hne).symm.trans hp
  · exact (Map.modify_ne hne).trans hp

theorem invalidatePeer_sessions (reason : SessionCloseReason) {s : SessionId} {r : SessionRecord} :
    (σ.invalidatePeer d reason).sessions[s]? = some r ↔
      σ.sessions[s]? = some r ∧ d ≠ r.info.deviceId := by
  refine Map.filter_eq_some.trans (and_congr_right fun _ => ?_)
  rw [decide_eq_true_eq]
  exact ne_comm

theorem invalidatePeer (h : Sound σ) {m : TrustMutation} {io : IoOutcome}
    (he : Evolves (taskStep blake3) P (σ.setStore (commit blake3 σ.shared.store m none io).2) σ')
    (hm : ∀ peer, m ≠ .trust peer) (hok : (commit blake3 σ.shared.store m none io).1 = .ok ())
    (reason : SessionCloseReason) : Sound (σ'.invalidatePeer m.deviceId reason) := by
  obtain ⟨hbound, hgen⟩ := h.bounded.commit blake3 m none io
  obtain ⟨-, -, hdec, -⟩ := commit_ok hok
  have hprep : Prepared σ' := by
    refine Prepared.evolves ⟨h.keyed.commit _ _ _, hbound, ?_⟩ he
    refine h.tasked.mono (fun d => ?_) (fun _ _ hs => hs) fun _ record hr => ⟨record, hr, rfl, rfl⟩
    show _ ≤ (commit blake3 σ.shared.store m none io).2.currentGeneration d
    rw [hgen d]
    exact Nat.le_add_right _ _
  have hother : ∀ d, m.deviceId ≠ d →
      (applyMutation σ.shared.store.decisions m)[d]? = σ.shared.store.decisions[d]? := by
    intro d hne
    cases m with
    | trust peer => exact absurd rfl (hm peer)
    | revoke d' => exact Map.insert_ne hne
    | forget d' => exact Map.erase_ne hne
  have hev := evolves_spec he
  have hreg : Registered σ.shared.store σ.shared.closed σ'.sessions σ'.nextSessionId
      σ'.connectivity.peers := by
    rw [hev.sessions, hev.nextSessionId, hev.connectivity]
    exact h.registered
  have hrest : Registered (commit blake3 σ.shared.store m none io).2 σ.shared.closed
      (σ'.invalidatePeer m.deviceId reason).sessions σ'.nextSessionId
      (σ'.invalidatePeer m.deviceId reason).connectivity.peers := by
    refine hreg.restrict (fun d hne => state_congr (by rw [hdec, hother d hne])) (fun d hne => ?_)
      (fun s r => invalidatePeer_sessions reason) fun d p => invalidatePeer_peers reason
    rw [hgen d, if_neg]
    · rfl
    · rintro ⟨rfl, -⟩
      exact hne rfl
  refine ⟨hprep.keyed, hprep.bounded, ?_, ?_⟩
  · exact hrest.mono hev.grows (hev.closed.trans Finset.subset_union_left)
  · exact (hprep.tasked.receive _ _).mono (fun _ => Nat.le_refl _)
      (fun _ _ hs => (Map.filter_eq_some.mp hs).1) (modify_outbound fun _ => ⟨rfl, rfl⟩)

theorem commitFails (h : Sound σ) {m : TrustMutation} {io : IoOutcome} {e : TrustStoreError}
    (he : (commit blake3 σ.shared.store m none io).1 = .error e) :
    Sound (σ.setStore (commit blake3 σ.shared.store m none io).2) := by
  have hg := grows_commit_error he
  refine ⟨hg.keyed h.keyed, hg.bounded h.bounded,
    h.registered.mono hg (Finset.Subset.refl _), ?_⟩
  exact h.tasked.mono (fun d => Nat.le_of_eq (hg.generation d).symm) (fun _ _ hs => hs)
    fun _ record hr => ⟨record, hr, rfl, rfl⟩

theorem setPending (h : Sound σ) (a : PairingAttemptId) (record : PendingRecord) :
    Sound (σ.setPending a record) :=
  ⟨h.keyed, h.bounded, h.registered, h.tasked⟩

theorem deliver (h : Sound σ) (a : PairingAttemptId) (command : PairingCommand) :
    Sound (σ.deliver a command) :=
  ⟨h.keyed, h.bounded, h.registered, h.tasked.receive _ _⟩

end Sound

/-! ### Moves, answers, openings and closings -/

theorem Sound.emit (h : Sound σ) (event : Ipc.Event) : Sound (σ.emit event) :=
  ⟨h.keyed, h.bounded, h.registered, h.tasked⟩

/-- **No move breaks the invariant.** -/
theorem Move.sound (hm : Move blake3 B hand σ σ') (h : Sound σ) : Sound σ' := by
  cases hm with
  | act _ hs => exact h.evolves (.step hs σ)
  | hint => exact ⟨h.keyed, h.bounded, h.registered, h.tasked⟩
  | close c =>
    exact ⟨h.keyed, h.bounded, h.registered.mono (.refl _) (Finset.subset_insert _ _), h.tasked⟩
  | drop p =>
    exact ⟨h.keyed, h.bounded, h.registered.mono (.refl _) (Finset.subset_insert _ _), h.tasked⟩
  | manage hi ht => exact h.insertPeer hi ht
  | resume => exact h.resumePeer _
  | resolved => exact h.resolved _
  | fail hn failure => exact h.connectivityFailed hn failure
  | coalesce _ hs => exact h.dialling hs
  | dial _ _ hs hp => exact h.startDial hs hp
  | pend _ hg _ _ _ origin => exact h.addPending hg origin
  | openSession ht hg hp he _ origin => exact (h.openSession_replacing ht hg hp he origin).emit _
  | commitFails _ he => exact h.commitFails he

theorem Answering.sound (ha : Answering blake3 B σ σ') (h : Sound σ) : Sound σ' := by
  cases ha with
  | yield => exact h.cancelOutbound _ _
  | disconnect hs => exact h.disconnect hs
  | invalidate hm hok he reason => exact (h.invalidatePeer he hm hok reason).emit _

theorem Sound.joined (h : Sound σ) {id : ℕ} {task : Task} (ht : σ.tasks[id]? = some task)
    (hu : ∀ (d : DeviceId) (record : OutboundRecord), σ.outbound[d]? = some record →
      task.kind ≠ .outbound d record.token record.pairing) :
    Sound { σ with tasks := σ.tasks.erase id } :=
  ⟨h.keyed, h.bounded, h.registered, h.tasked.erase ht hu⟩

theorem Sound.dialJoined (h : Sound σ) {id : ℕ} {pairing : Bool} {phase : SetupPhase}
    {record : OutboundRecord} (ht : σ.tasks[id]? = some (.outbound d record.token pairing phase)) :
    Sound { σ with tasks := σ.tasks.erase id, outbound := σ.outbound.erase d } := by
  refine ⟨h.keyed, h.bounded, h.registered, ?_⟩
  have hothers : Tasked σ.shared.store.currentGeneration σ.sessions (σ.outbound.erase d)
      σ.nextTask σ.nextSessionId σ.nextDialId σ.tasks :=
    h.tasked.mono (fun _ => Nat.le_refl _) (fun _ _ hs => hs)
      fun _ record hr => ⟨record, (Map.erase_eq_some.mp hr).2, rfl, rfl⟩
  refine hothers.erase ht fun d' record' hr' hk => ?_
  injection hk with hd
  exact (Map.erase_eq_some.mp hr').1 hd

theorem Sound.canonicalSession_of_due (h : Sound σ) {p : Peer}
    (hp : σ.connectivity.peers[d]? = some p) (hd : p.due.isSome) : σ.canonicalSession d = none := by
  rw [canonicalSession_eq_none]
  intro s r hs hr
  subst hr
  by_contra hopen
  have hstate := (h.registered.wellFormed _ p hp).due_iff.mp hd
  rw [h.registered.connected s r p hs hopen hp] at hstate
  simp at hstate

theorem Opening.sound {s : Step} (ho : Opening σ s hand σ') (h : Sound σ) : Sound σ' := by
  cases ho with
  | idle => exact h
  | accepted =>
    have hcount : Sound { σ with ipcClients := σ.ipcClients + 1 } :=
      ⟨h.keyed, h.bounded, h.registered, h.tasked⟩
    exact hcount.spawn rfl (Or.inr rfl)
  | command => exact h
  | workerJoined ht => exact h.joined ht fun _ _ _ hk => by cases hk
  | clientJoined ht =>
    exact ⟨h.keyed, h.bounded, h.registered, h.tasked.erase ht fun _ _ _ hk => by cases hk⟩
  | @staleJoined id script task ht hu =>
    refine h.joined ht fun d record hr hk => ?_
    cases task with
    | outbound d' token pairs phase =>
      cases hk
      exact hu record hr rfl
    | _ => cases hk
  | cancelledJoined ht => exact h.dialJoined ht
  | dialJoined ht => exact h.dialJoined ht
  | pairingJoined ht =>
    exact ⟨h.keyed, h.bounded, h.registered, h.tasked.erase ht fun _ _ _ hk => by cases hk⟩
  | sessionJoined ht hs => exact h.sessionLost ht hs _
  | @due script d connectivity hd =>
    obtain ⟨⟨peer, due, hp, hdue, -⟩, hpeers⟩ := Scheduler.takeDue_eq_some hd
    have hclosed := h.canonicalSession_of_due hp (by rw [hdue]; rfl)
    refine ⟨h.keyed, h.bounded, ?_, h.tasked⟩
    show Registered _ _ _ _ connectivity.peers
    rw [hpeers]
    exact h.registered_of_closed hclosed fun p => ⟨Peer.wellFormed_dialling p, rfl⟩

theorem Closing.sound (hc : Closing blake3 B hand σ σ') (h : Sound σ) : Sound σ' := by
  cases hc with
  | none => exact h
  | respawned => exact h.spawn rfl (Or.inl rfl)
  | request => exact ⟨h.keyed, h.bounded, h.registered, h.tasked⟩
  | answered => exact ⟨h.keyed, h.bounded, h.registered, h.tasked⟩
  | waits => exact h.addWaiter _ _
  | refused => exact ⟨h.keyed, h.bounded, h.registered, h.tasked⟩
  | delivered _ _ _ he => exact ((h.setPending _ _).evolves he).deliver _ _
  | abandoned _ _ he =>
    have hev := (h.setPending _ _).evolves he
    exact ⟨hev.keyed, hev.bounded, hev.registered, hev.tasked⟩
  | @resolved _ _ registered _ _ reply _ =>
    unfold resolvePairing
    cases registered <;> cases reply <;> exact ⟨h.keyed, h.bounded, h.registered, h.tasked⟩

/-- **No handled event breaks it.** -/
theorem Handled.sound {s : Step} (hh : Handled blake3 B σ s σ') (h : Sound σ) : Sound σ' :=
  hh.keep (P := fun _ => Sound) Move.sound Opening.sound Answering.sound Closing.sound h

end Rift.Daemon
