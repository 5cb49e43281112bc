import Rift.Daemon.Favoured

/-! # Nothing that the supervisor does takes the connection away

The handlers of the supervisor, for a connection that is favoured: whether they handle the task that
brings it, another task or a command, the connection stays, and the one that brings it makes it a
session.

The main results are `joinIncoming_self`, `joinOutbound_self`, `joinOther_safe`,
`handleCommand_guarded` and `Favoured.step`. -/

namespace Rift.Daemon

open Rift.Lib Rift.Lib.Interference Rift.Core Rift.Ipc Rift.Session Std Std.Do
open Rift.Trust hiding Event

set_option mvcgen.warning false

variable {blake3 : Blake3} {c : Authorized} {own holder : Option ℕ}
  {session : Option SessionId} {σ₀ σ : Daemon} {w : World Daemon TaskStep} {d : DeviceId}

/-! ### Pairings -/

section

variable (h : Guarded c σ₀ own holder session w)

include h

theorem registerPending_guarded {pending : Pending}
    (hk : pending.connection ≠ c.connection) (origin : SessionOrigin) :
    ∀ r w', (registerPending blake3 pending origin).run w = (r, w') →
      Guarded c σ₀ own holder session w' := by
  have hone : Guarded c σ₀ own holder session (w.acted (taskStep blake3)) := h.acted
  have htwo : Guarded _ _ _ _ _ (World.acted (taskStep blake3) _) := hone.acted
  refine run_of_triple ?_
  unfold registerPending
  mvcgen
  case vc1 v heq _ | vc2 v heq _ _ | vc3 v heq _ _ _ =>
    subst heq
    exact htwo.same (htwo.favours.close hk) rfl rfl rfl
  case vc4 v heq hok _ _ =>
    subst heq
    rw [not_or, not_not, not_not] at hok
    have hne : pending.remoteDeviceId ≠ c.remoteDeviceId := fun heq => by
      have htrusted := hone.favours.trusted
      rw [← heq, hok.1] at htrusted
      cases htrusted
    refine ⟨(htwo.favours.pairs fun a record hr hd => ?_).spawn ⟨fun heq => ?_, nofun, nofun, nofun⟩
      nofun, htwo.since.spawn rfl rfl rfl, htwo.allowed, htwo.owns⟩
    · rcases Map.insert_eq_some.mp hr with ⟨-, rfl⟩ | ⟨-, hr⟩
      · exact absurd hd hne
      · exact htwo.favours.unpaired a record hr hd
    · exact hk (Option.some.inj heq)

theorem Guarded.removePending (a : PairingAttemptId) :
    Guarded c σ₀ own holder session ⟨w.state.removePending a, w.script⟩ :=
  h.same (h.favours.pairs fun b record hr =>
    h.favours.unpaired b record (Map.erase_eq_some.mp hr).2) rfl rfl rfl

theorem Guarded.resolvePairing (a : PairingAttemptId)
    (registered : Bool) (reply : Option ReplyId)
    (result : PairingOutcome × OperationResult Response) :
    Guarded c σ₀ own holder session
      ⟨resolvePairing w.state a d registered reply result, w.script⟩ := by
  unfold Daemon.resolvePairing
  cases registered <;> cases reply <;> exact h.same h.favours rfl rfl rfl

theorem finishPairing_guarded {a : PairingAttemptId}
    {result : PairingTaskResult} (reply : Option ReplyId)
    (hk : ∀ c', result = .authorized c' → c'.connection ≠ c.connection)
    (ho : ∀ c' record, result = .authorized c' → w.state.pendingPairings[a]? = some record →
      c'.remoteDeviceId = c.remoteDeviceId →
      record.origin ≠ preferred w.state.deviceId c.remoteDeviceId) :
    ∀ r w', (finishPairing blake3 a d result reply).run w = (r, w') →
      Guarded c σ₀ own holder session w' := by
  have hremoved := h.removePending a
  have hregistered (c' : Authorized) (record : PendingRecord) (hres : result = .authorized c')
      (hr : w.state.pendingPairings[a]? = some record) : Guarded c σ₀ own holder session
        ((registerSession blake3 c' record.origin).run ⟨w.state.removePending a, w.script⟩).2 :=
    registerSession_other hremoved ⟨hk c' hres, ho c' record hres hr⟩ _ _ rfl
  refine run_of_triple ?_
  unfold finishPairing
  mvcgen
  case vc1.h_1.h_1 v heq c' record hr hres s _ | vc2.h_1.h_2 v heq c' record hr hres e _ =>
    subst heq
    exact (hregistered c' record hres hr).resolvePairing ..
  case vc3.h_2 v heq c' hr hres =>
    subst heq
    exact (hremoved.close (hk c' hres)).resolvePairing ..
  case vc4.h_3 v heq result' record hsome hnone hr hres =>
    subst heq
    exact hremoved.resolvePairing ..

/-! ### Candidates -/

theorem dropCandidate_guarded {result : OperationResult ConnectionCandidate}
    (hk : ∀ candidate, result = .ok candidate → candidate.connection ≠ c.connection) :
    Guarded c σ₀ own holder session ⟨dropCandidate w.state result, w.script⟩ := by
  rcases result with e | c' | pending
  · exact h
  · exact h.close (hk _ rfl)
  · exact h.same (h.favours.close (hk _ rfl)) rfl rfl rfl

theorem registerCandidate_guarded
    {candidate : ConnectionCandidate} (hk : candidate.connection ≠ c.connection)
    (ho : ∀ c', candidate = .authorized c' → c'.remoteDeviceId = c.remoteDeviceId →
      SessionOrigin.inbound ≠ preferred w.state.deviceId c.remoteDeviceId) :
    ∀ r w', (registerCandidate blake3 candidate).run w = (r, w') →
      Guarded c σ₀ own holder session w' := by
  refine run_of_triple ?_
  unfold registerCandidate
  mvcgen
  case vc1.h_1 c' hc v heq =>
    subst heq hc
    exact registerSession_other h ⟨hk, ho c' rfl⟩ _ _ rfl
  case vc2.h_2 pending hp v heq =>
    subst heq hp
    exact registerPending_guarded h hk _ _ _ rfl

theorem registerDialled_guarded {pairing : Bool}
    {result : OperationResult ConnectionCandidate}
    (hk : ∀ candidate, result = .ok candidate → candidate.connection ≠ c.connection)
    (ho : ∀ c', result = .ok (.authorized c') → c'.remoteDeviceId = c.remoteDeviceId →
      SessionOrigin.outbound ≠ preferred w.state.deviceId c.remoteDeviceId) :
    ∀ r w', (registerDialled blake3 d pairing result).run w = (r, w') →
      Guarded c σ₀ own holder session w' := by
  refine run_of_triple ?_
  unfold registerDialled
  mvcgen
  case vc1.h_1 pending _ hres v heq =>
    subst heq
    exact registerPending_guarded h (hk _ hres) _ _ _ rfl
  case vc2.h_2 c' _ hres v heq =>
    subst heq
    exact registerSession_other h ⟨hk _ hres, ho c' hres⟩ _ _ rfl
  case vc3.h_3 candidate _ _ _ _ hres v heq =>
    subst heq
    exact dropCandidate_guarded h fun candidate' heq => hk candidate' (hres.trans heq)
  case vc4.h_4 v heq => subst heq; exact h

end

/-- The connection is with a task, and nothing will disturb it. -/
def Safe (c : Authorized) (σ₀ : Daemon) (own : Option ℕ) (w : World Daemon TaskStep) : Prop :=
  ∃ (id : ℕ) (session : Option SessionId), Guarded c σ₀ own (some id) session w

namespace Safe

theorem acted (h : Safe c σ₀ own w) : Safe c σ₀ own (w.acted (taskStep blake3)) := by
  obtain ⟨id, session, h⟩ := h
  exact ⟨id, session, h.acted⟩

theorem answer (h : Safe c σ₀ own w) (waiting : List OutboundReply)
    (result : OperationResult DialResult) :
    Safe c σ₀ own ⟨w.state.answer waiting result, w.script⟩ := by
  obtain ⟨id, session, h⟩ := h
  exact ⟨id, session, h.same h.favours rfl rfl rfl⟩

theorem dialFailed (h : Safe c σ₀ own w) (lost : Bool) (result : OperationResult DialResult) :
    Safe c σ₀ own ⟨if lost then w.state.dialFailed d result else w.state, w.script⟩ := by
  obtain ⟨id, session, h⟩ := h
  cases lost with
  | false => exact ⟨id, session, h⟩
  | true => cases result <;> exact ⟨id, session, h.same h.favours rfl rfl rfl⟩

theorem respawned (h : Safe c σ₀ own w) :
    Safe c σ₀ own ⟨w.state.spawn (.incoming .connecting), w.script⟩ := by
  obtain ⟨id, session, h⟩ := h
  have hidle : Bystander (preferred w.state.deviceId c.remoteDeviceId) c session
      (.incoming .connecting) :=
    ⟨nofun, fun _ _ => nofun, nofun, nofun⟩
  exact ⟨id, session, h.favours.spawn hidle nofun, h.since.spawn rfl rfl rfl, h.allowed, h.owns⟩

end Safe

theorem finishDial_safe {record : OutboundRecord} {result : OperationResult ConnectionCandidate}
    (hreg : ∀ r w', (registerDialled blake3 d record.pairing result).run w = (r, w') →
      Safe c σ₀ own w') :
    ∀ r w', (finishDial blake3 d record result).run w = (r, w') → Safe c σ₀ own w' := by
  refine run_of_triple ?_
  unfold finishDial
  mvcgen
  case vc1 v heq =>
    subst heq
    have hlooked : Safe c σ₀ own (World.acted (taskStep blake3)
      ((registerDialled blake3 d record.pairing result).run v).2) := (hreg _ _ rfl).acted
    exact (hlooked.dialFailed _ _).acted.answer _ _

/-! ### Joining the task that has the connection -/

/-- **The connection was accepted**, and is registered. -/
theorem joinIncoming_self (h : Guarded c σ₀ own none none w) (hn : own = some w.state.nextTask)
    (hr : Room w.state c.remoteDeviceId)
    (ho : preferred w.state.deviceId c.remoteDeviceId = .inbound) :
    ∀ r w', (handleTaskOutput blake3 (.incoming (.ok (.authorized c)))).run w = (r, w') →
      Safe c σ₀ own w' := by
  refine run_of_triple ?_
  unfold handleTaskOutput registerCandidate
  mvcgen
  case vc1 v heq =>
    subst heq
    obtain ⟨id, s, hreg⟩ := registerSession_self h hn hr ho.symm _ _ rfl
    have hsafe : Safe c σ₀ own ((registerSession blake3 c .inbound).run v).2 := ⟨id, some s, hreg⟩
    exact hsafe.respawned

/-- **The connection was dialled**, and is registered. -/
theorem joinOutbound_self (h : Guarded c σ₀ own none none w) (hn : own = some w.state.nextTask)
    (hr : Room w.state c.remoteDeviceId)
    (ho : preferred w.state.deviceId c.remoteDeviceId = .outbound) {record : OutboundRecord}
    (hrecord : w.state.outbound[c.remoteDeviceId]? = some record) (hp : record.pairing = false)
    (hc : record.cancelled = false) :
    ∀ r w', (handleTaskOutput blake3 (.outbound c.remoteDeviceId record.token
      (.ok (.authorized c)))).run w = (r, w') → Safe c σ₀ own w' := by
  refine run_of_triple ?_
  unfold handleTaskOutput
  mvcgen
  case vc1.h_1 v heq hnone =>
    subst heq
    cases hrecord.symm.trans hnone
  case vc2.h_2.isTrue v heq record' hr' hne =>
    subst heq
    cases hrecord.symm.trans hr'
    exact absurd rfl hne
  case vc3.h_2.isFalse.isTrue v heq record' hr' _ hcancelled =>
    subst heq
    cases hrecord.symm.trans hr'
    exact absurd hcancelled (Bool.eq_false_iff.mp hc)
  case vc4.h_2.isFalse.isFalse v heq record' hr' _ _ =>
    subst heq
    cases hrecord.symm.trans hr'
    have hhand : Guarded c σ₀ own none none
        ⟨{ v.state with outbound := v.state.outbound.erase c.remoteDeviceId }, v.script⟩ :=
      h.same { h.favours with located := .inHand } rfl rfl rfl
    refine finishDial_safe ?_ _ _ rfl
    rw [hp]
    refine run_of_triple ?_
    unfold registerDialled
    mvcgen
    case vc1 v heq =>
      subst heq
      obtain ⟨id, s, hreg⟩ := registerSession_self hhand hn
        ⟨hr.peers, hr.sessions, hr.tasks, hr.ids⟩ ho.symm _ _ rfl
      exact ⟨id, some s, hreg⟩

/-! ### Joining another task -/

section Others

variable {id : ℕ}

theorem joinIncoming_other (h : Guarded c σ₀ own (some id) session w)
    {result : OperationResult ConnectionCandidate}
    (hb : Bystander (preferred w.state.deviceId c.remoteDeviceId) c session
      (.incoming (.done result))) :
    ∀ r w', (handleTaskOutput blake3 (.incoming result)).run w = (r, w') → Safe c σ₀ own w' := by
  refine run_of_triple ?_
  unfold handleTaskOutput
  mvcgen
  case vc1.h_1 candidate hres v heq =>
    subst heq hres
    have hreg : Guarded c σ₀ own (some id) session ((registerCandidate blake3 candidate).run v).2 := by
      refine registerCandidate_guarded h (fun hk => hb.connection (congrArg some hk)) ?_ _ _ rfl
      rintro c' rfl hd hpref
      exact hb.inbound rfl hpref.symm (congrArg some hd)
    have hsafe : Safe c σ₀ own ((registerCandidate blake3 candidate).run v).2 := ⟨id, session, hreg⟩
    exact hsafe.respawned
  case vc2.h_2 e hres v heq =>
    subst heq
    have hsafe : Safe c σ₀ own v := ⟨id, session, h⟩
    exact hsafe.respawned

theorem joinOutbound_other (h : Guarded c σ₀ own (some id) session w) {token : ℕ} {pairs : Bool}
    {result : OperationResult ConnectionCandidate}
    (hb : Bystander (preferred w.state.deviceId c.remoteDeviceId) c session
      (.outbound d token pairs (.done result)))
    (hd : (Task.outbound d token pairs (.done result)).Coherent) :
    ∀ r w', (handleTaskOutput blake3 (.outbound d token result)).run w = (r, w') →
      Safe c σ₀ own w' := by
  have hk (candidate : ConnectionCandidate) (hres : result = .ok candidate) :
      candidate.connection ≠ c.connection := by
    subst hres
    exact fun hk => hb.connection (congrArg some hk)
  have hne (hpref : preferred w.state.deviceId c.remoteDeviceId = .outbound) :
      d ≠ c.remoteDeviceId := by
    rintro rfl
    exact hb.outbound token pairs rfl hpref
  have herased : Guarded c σ₀ own (some id) session
      ⟨{ w.state with outbound := w.state.outbound.erase d }, w.script⟩ :=
    h.same (h.favours.dials fun hpref record hr =>
      ⟨record, Map.erase_eq_some.mpr ⟨hne hpref, hr⟩, rfl, rfl, rfl⟩) rfl rfl rfl
  refine run_of_triple ?_
  unfold handleTaskOutput
  mvcgen
  case vc1.h_1 v heq hnone | vc2.h_2.isTrue v heq record hr _ =>
    subst heq
    exact ⟨id, session, dropCandidate_guarded h hk⟩
  case vc3.h_2.isFalse.isTrue v heq record hr _ _ =>
    subst heq
    exact ⟨id, session, dropCandidate_guarded herased hk⟩
  case vc4.h_2.isFalse.isFalse v heq record hr _ _ =>
    subst heq
    refine finishDial_safe (fun r w' hrun => ⟨id, session, ?_⟩) _ _ rfl
    refine registerDialled_guarded herased hk (fun c' hres hremote hpref => ?_) r w' hrun
    subst hres
    exact hne hpref.symm ((hd.2 _ rfl).symm.trans hremote)

end Others

/-! ### Dials -/

/-- A dial to the device is not one for the connection that is preferred. -/
def Aside (c : Authorized) (σ : Daemon) (d : DeviceId) : Prop :=
  preferred σ.deviceId c.remoteDeviceId = .outbound → d ≠ c.remoteDeviceId

theorem Aside.evolved {σ' : Daemon} (h : Aside c σ d) (he : σ'.deviceId = σ.deviceId) :
    Aside c σ' d := by
  unfold Aside
  rw [he]
  exact h

section

variable (h : Guarded c σ₀ own holder session w)

include h

theorem Guarded.startDial (hd : Aside c w.state d)
    (pairing : Bool) :
    Guarded c σ₀ own holder session ⟨w.state.startDial d pairing, w.script⟩ := by
  refine ⟨(h.favours.dials fun hpref record hr => ?_).spawn ⟨nofun, nofun, fun token pairs hk => ?_,
    nofun⟩ nofun, h.since.spawn rfl rfl rfl, h.allowed, h.owns⟩
  · exact ⟨record, (Map.insert_ne (hd hpref)).trans hr, rfl, rfl, rfl⟩
  · cases hk
    exact fun hpref => hd hpref rfl

theorem Guarded.addWaiter (waiting : List OutboundReply) :
    Guarded c σ₀ own holder session ⟨w.state.addWaiter d waiting, w.script⟩ := by
  refine h.same (h.favours.dials fun _ record hr => ?_) rfl rfl rfl
  by_cases hd : d = c.remoteDeviceId
  · subst hd
    exact ⟨_, Map.modify_eq_some.mpr (Or.inl ⟨rfl, record, hr, rfl⟩), rfl, rfl, rfl⟩
  · exact ⟨record, (Map.modify_ne hd).trans hr, rfl, rfl, rfl⟩

theorem Guarded.deviceId {w' : World Daemon TaskStep}
    (h' : Guarded c σ₀ own holder session w') : w'.state.deviceId = w.state.deviceId :=
  h'.since.deviceId.trans h.since.deviceId.symm

theorem Guarded.setPeers (peers : ExtTreeMap DeviceId Peer) :
    Guarded c σ₀ own holder session ⟨w.state.setPeers peers, w.script⟩ :=
  h.same h.favours rfl rfl rfl

theorem placeDial_guarded (hd : Aside c w.state d)
    (pairing : Bool) :
    ∀ r w', (placeDial blake3 d pairing).run w = (r, w') → Guarded c σ₀ own holder session w' := by
  have hone : Guarded c σ₀ own holder session (w.acted (taskStep blake3)) := h.acted
  have htwo : Guarded _ _ _ _ _ (World.acted (taskStep blake3) _) := hone.acted
  refine run_of_triple ?_
  unfold placeDial
  mvcgen
  case vc1.h_1.isTrue v heq _ _ _ => subst heq; exact h
  case vc2.h_1.isFalse v heq _ _ _ => subst heq; exact h.setPeers _
  case vc3.h_2.isTrue v heq _ _ => subst heq; exact h
  case vc4.h_2.isFalse.isTrue v heq _ _ _ => subst heq; exact hone
  case vc5.h_2.isFalse.isFalse.h_1 v heq _ _ _ _ _ |
      vc6.h_2.isFalse.isFalse.h_2 v heq _ _ _ _ |
      vc7.h_2.isFalse.isFalse.h_3.isTrue v heq _ _ _ _ _ =>
    subst heq
    exact htwo
  case vc8.h_2.isFalse.isFalse.h_3.isFalse v heq _ _ _ _ _ =>
    subst heq
    exact htwo.startDial (hd.evolved (h.deviceId htwo)) pairing

theorem prepareDial_guarded (hd : Aside c w.state d)
    (manual : Bool) :
    ∀ r w', (prepareDial blake3 d manual).run w = (r, w') → Guarded c σ₀ own holder session w' := by
  have hmanaged {managed : Daemon} (hi : w.state.insertPeer d = some managed) :
      Guarded c σ₀ own holder session (World.acted (taskStep blake3) ⟨managed, w.script⟩) := by
    obtain ⟨-, peers, rfl⟩ := mem_of_insertPeer hi
    exact (h.setPeers peers).acted
  have hresumed {v : World Daemon TaskStep} (hv : Guarded c σ₀ own holder session v) :
      Guarded c σ₀ own holder session (World.acted (taskStep blake3)
        ⟨if manual then v.state.resumePeer d else v.state, v.script⟩) := by
    cases manual with
    | false => exact hv.acted
    | true => exact (hv.setPeers _).acted
  refine run_of_triple ?_
  unfold prepareDial
  mvcgen
  case vc1.h_1 v heq _ => subst heq; exact h
  case vc2.h_2.isTrue v heq managed hi _ => subst heq; exact hmanaged hi
  case vc3.h_2.isFalse.h_1 v heq managed hi _ _ _ => subst heq; exact hresumed (hmanaged hi)
  case vc4.h_2.isFalse.h_2 v heq managed hi _ _ =>
    subst heq
    have hready := hresumed (hmanaged hi)
    exact placeDial_guarded hready (hd.evolved (h.deviceId hready)) false _ _ rfl

theorem startOutbound_guarded {pairing : Bool}
    (hd : pairing = false → Aside c w.state d) (manual : Bool) :
    ∀ r w', (startOutbound blake3 d pairing manual).run w = (r, w') →
      Guarded c σ₀ own holder session w' := by
  have hone : Guarded c σ₀ own holder session (w.acted (taskStep blake3)) := h.acted
  have htwo : Guarded _ _ _ _ _ (World.acted (taskStep blake3) _) := hone.acted
  refine run_of_triple ?_
  unfold startOutbound
  mvcgen
  case vc1.isTrue v heq _ | vc2.isFalse.isTrue v heq _ _ =>
    subst heq
    exact h
  case vc3.isFalse.isFalse.h_1 v heq _ _ _ _ => subst heq; exact hone
  case vc4.isFalse.isFalse.h_2.isTrue v heq _ _ _ _ => subst heq; exact htwo
  case vc5.isFalse.isFalse.h_2.isFalse.isTrue v heq _ _ heligible _ hpairing =>
    -- A trusted peer is not paired with.
    subst heq hpairing
    refine placeDial_guarded htwo (fun _ heq => ?_) true _ _ rfl
    rw [heq, hone.favours.trusted] at heligible
    cases heligible
  case vc6.isFalse.isFalse.h_2.isFalse.isFalse v heq _ _ _ _ hpairing =>
    subst heq
    have haside := hd (Bool.eq_false_iff.mpr hpairing)
    exact prepareDial_guarded htwo (haside.evolved (h.deviceId htwo)) manual _ _ rfl

theorem Guarded.answer (waiting : List OutboundReply)
    (result : OperationResult DialResult) :
    Guarded c σ₀ own holder session ⟨w.state.answer waiting result, w.script⟩ :=
  h.same h.favours rfl rfl rfl

theorem Guarded.send (reply : ReplyId) (answer : Reply) :
    Guarded c σ₀ own holder session ⟨w.state.send reply answer, w.script⟩ :=
  h.same h.favours rfl rfl rfl

theorem spawnOutbound_guarded {pairing : Bool}
    (hd : pairing = false → Aside c w.state d) (reply : Option OutboundReply) :
    ∀ r w', (spawnOutbound blake3 d pairing reply).run w = (r, w') →
      Guarded c σ₀ own holder session w' := by
  have hstarted : Guarded c σ₀ own holder session
      ((startOutbound blake3 d pairing reply.isSome).run w).2 :=
    startOutbound_guarded h hd _ _ _ rfl
  refine run_of_triple ?_
  unfold spawnOutbound
  mvcgen
  case vc1.h_1 v heq s _ => subst heq; exact hstarted.answer ..
  case vc2.h_2 v heq _ => subst heq; exact hstarted.addWaiter _
  case vc3.h_3 v heq e _ =>
    subst heq
    have hlooked : Guarded c σ₀ own holder session (World.acted (taskStep blake3)
      ((startOutbound blake3 d pairing reply.isSome).run v).2) := hstarted.acted
    split_ifs
    · exact hlooked.same hlooked.favours rfl rfl rfl
    · exact hlooked.answer ..

theorem dialAddr_guarded {peer : EndpointAddr}
    {pairing : Bool}
    (hd : pairing = false → Aside c w.state peer.deviceId) (reply : OutboundReply) :
    ∀ r w', (dialAddr blake3 peer pairing reply).run w = (r, w') →
      Guarded c σ₀ own holder session w' := by
  have hhinted : Guarded c σ₀ own holder session
      ⟨{ w.state with hints := (w.state.rememberPeerAddr peer).2 }, w.script⟩ :=
    h.same h.favours rfl rfl rfl
  refine run_of_triple ?_
  unfold dialAddr
  mvcgen
  case vc1.h_1 v heq d hok =>
    subst heq
    obtain rfl := rememberPeerAddr_ok hok
    exact spawnOutbound_guarded hhinted hd _ _ _ rfl
  case vc2.h_2 v heq e _ => subst heq; exact hhinted.answer ..

theorem confirmPairing_guarded (a : PairingAttemptId)
    (accepted : Bool) (reply : ReplyId) :
    ∀ r w', (confirmPairing blake3 a accepted reply).run w = (r, w') →
      Guarded c σ₀ own holder session w' := by
  have hset (record : PendingRecord) (hr : w.state.pendingPairings[a]? = some record) :
      Guarded c σ₀ own holder session (World.acted (taskStep blake3)
        ⟨w.state.setPending a { record with resolving := some accepted }, w.script⟩) := by
    have hset : Guarded c σ₀ own holder session
        ⟨w.state.setPending a { record with resolving := some accepted }, w.script⟩ := by
      refine h.same (h.favours.pairs fun b record' hr' => ?_) rfl rfl rfl
      rcases Map.insert_eq_some.mp hr' with ⟨-, rfl⟩ | ⟨-, hr'⟩
      · exact h.favours.unpaired a record hr
      · exact h.favours.unpaired b record' hr'
    exact hset.acted
  refine run_of_triple ?_
  unfold confirmPairing
  mvcgen
  case vc1.isTrue v heq _ | vc2.isFalse.h_1 v heq _ _ | vc3.isFalse.h_2.isTrue v heq _ record _ _ =>
    subst heq
    exact h.send ..
  case vc4.isFalse.h_2.isFalse.isTrue v heq _ record hr _ _ =>
    subst heq
    have hacted := hset record hr
    exact ⟨hacted.favours.receive _ _, hacted.since.receive rfl rfl rfl, hacted.allowed, hacted.owns⟩
  case vc5.isFalse.h_2.isFalse.isFalse v heq _ record hr _ _ =>
    subst heq
    exact (hset record hr).removePending a

end

/-! ### Commands -/

/-- The commands that end a session or withdraw trust. -/
def Command.Disturbs : Command → Prop
  | .request (.revokePeer _) _ _ | .request (.forgetPeer _) _ _
  | .request (.disconnectSession _) _ _ => True
  | _ => False

/-- The device that the command dials for a session. -/
def Command.dials : Command → Option DeviceId
  | .request (.connectPeer d) _ _ => some d
  | .connectAuthenticated peer _ => some peer.deviceId
  | _ => none

theorem executeRequest_guarded (h : Guarded c σ₀ own holder session w) {request : Request}
    {io : IoOutcome} {reply : ReplyId} (hn : ¬ (Command.request request reply io).Disturbs) :
    ∀ r w', (executeRequest blake3 request io).run w = (r, w') →
      Guarded c σ₀ own holder session w' := by
  refine run_of_triple ?_
  unfold executeRequest
  mvcgen
  case vc2.h_2 v heq => subst heq; exact h.acted
  case vc6.h_6 d hreq v heq |
      vc7.h_7 d hreq v heq |
      vc8.h_8.h_1 s hreq v heq _ |
      vc9.h_8.h_2 s hreq v heq record _ =>
    subst hreq
    exact absurd trivial hn
  all_goals
    rename_i heq
    subst heq
    exact h

theorem Guarded.resumeUnresolved (h : Guarded c σ₀ own holder session w)
    (result : Except TransportFailure DeviceId) :
    Guarded c σ₀ own holder session ⟨resumeUnresolved w.state result, w.script⟩ := by
  cases result with
  | error => exact h
  | ok d =>
    unfold Daemon.resumeUnresolved
    dsimp only
    split_ifs
    · exact h.same h.favours rfl rfl rfl
    · exact h

/-- **A command** that neither ends a session, nor withdraws trust, nor dials the device again, leaves
the connection alone. -/
theorem handleCommand_guarded (h : Guarded c σ₀ own holder session w) {command : Command}
    (hn : ¬ command.Disturbs) (hd : ∀ d, command.dials = some d → Aside c w.state d) :
    ∀ r w', (handleCommand blake3 command).run w = (r, w') →
      Guarded c σ₀ own holder session w' := by
  refine run_of_triple ?_
  unfold handleCommand
  mvcgen
  case vc1.h_1 a accepted reply io hc v heq =>
    subst heq
    exact confirmPairing_guarded h _ _ _ _ _ rfl
  case vc2.h_2 d reply io hc v heq =>
    subst heq
    refine spawnOutbound_guarded h (fun hpairing => ?_) _ _ _ rfl
    cases hpairing
  case vc3.h_3 d reply io hc v heq =>
    subst heq hc
    exact spawnOutbound_guarded h (fun _ => hd d rfl) _ _ _ rfl
  case vc4.h_4 request reply io _ _ _ hc v heq =>
    subst heq hc
    have hexec : Guarded c σ₀ own holder session ((executeRequest blake3 request io).run v).2 :=
      executeRequest_guarded h hn _ _ rfl
    exact hexec.send ..
  case vc5.h_5 peer reply hc v heq =>
    subst heq
    refine dialAddr_guarded h (fun hpairing => ?_) _ _ _ rfl
    cases hpairing
  case vc6.h_6 peer reply hc v heq =>
    subst heq hc
    exact dialAddr_guarded h (fun _ => hd peer.deviceId rfl) _ _ _ rfl
  case vc7.h_7 s reply hc v heq => subst heq; exact h.send ..
  case vc8.h_8 peer reply hc v heq =>
    subst heq
    have hhinted : Guarded c σ₀ own holder session
        ⟨{ v.state with hints := (v.state.rememberPeerAddr peer).2 }, v.script⟩ :=
      h.same h.favours rfl rfl rfl
    exact (hhinted.resumeUnresolved _).send ..

/-! ### Steps -/

/-- **Another task is joined**, and leaves the connection alone. -/
theorem joinOther_safe {id : ℕ} (h : Guarded c σ₀ own (some id) session w) {t : Task}
    {output : TaskOutput}
    (hb : Bystander (preferred w.state.deviceId c.remoteDeviceId) c session t) (hc : t.Coherent)
    (hd : ∀ a pending commands phase record, t = .pairing a pending commands phase →
      w.state.pendingPairings[a]? = some record → pending.remoteDeviceId = record.info.deviceId)
    (ho : t.output = some output) :
    ∀ r w', (handleTaskOutput blake3 output).run w = (r, w') → Safe c σ₀ own w' := by
  unfold Task.output at ho
  split at ho
  case h_1 result => cases ho; exact joinIncoming_other h hb
  case h_2 d token pairs result => cases ho; exact joinOutbound_other h hb hc
  case h_3 a pending commands result reply =>
    cases ho
    refine fun r w' hrun => ⟨id, session, finishPairing_guarded h reply (fun c' hres => ?_)
      (fun c' record hres hr hremote => ?_) r w' hrun⟩
    · subst hres
      obtain rfl := hc
      exact fun heq => hb.connection (congrArg some heq)
    · subst hres
      obtain rfl := hc
      exact h.favours.unpaired a record hr ((hd a pending commands _ record rfl hr).symm.trans hremote)
  case h_4 s c' failure =>
    cases ho
    refine run_of_triple ?_
    unfold handleTaskOutput
    mvcgen
    · rename_i v heq _
      subst heq
      exact ⟨id, session, h.same (h.favours.retire (hb.session s c' rfl)) rfl rfl rfl⟩
    · rename_i v heq _
      subst heq
      exact ⟨id, session, h⟩
  case h_5 =>
    cases ho
    refine run_of_triple ?_
    unfold handleTaskOutput
    mvcgen
    rename_i v heq
    subst heq
    exact ⟨id, session, h.same h.favours rfl rfl rfl⟩
  case h_6 => cases ho

/-- The connection that a task brings, if it is authorized. -/
def Task.candidate : Task → Option Authorized
  | .incoming (.done (.ok (.authorized c))) => some c
  | .outbound _ _ _ (.done (.ok (.authorized c))) => some c
  | _ => none

/-- The task of the session that the connection has, or gets in this step. -/
inductive Serves (c : Authorized) (σ : Daemon) (s : Step) : ℕ → Prop
  | registered {id : ℕ} {session : SessionId} {failure : Option ConnectivityFailure}
      (ht : σ.tasks[id]? = some (.session session c failure)) : Serves c σ s id
  | joined {id : ℕ} {script : List (List TaskStep)} {t : Task} (hs : s = .join id script)
      (ht : σ.tasks[id]? = some t) (hc : t.candidate = some c) : Serves c σ s σ.nextTask

/-- **A step that does not disturb the connection**, which the other end may have closed:

* it is not seen as closed unless the other end has closed it, and its session does not end before;
* no other connection is accepted from the device, where that one would be preferred;
* the retry timer does not fire, and no command ends a session, withdraws trust, or dials the device
  where the dial would be preferred;
* there is room for the connection when it is handled. -/
structure Undisturbed (closed : Prop) (c : Authorized) (σ : Daemon) (s : Step) : Prop where
  closes : .closes c.connection ∈ s.taskSteps → closed
  ended : ∀ id result, .task id (.ended result) ∈ s.taskSteps → Serves c σ s id →
    closed ∨ c.connection ∈ σ.shared.closed
  accepts : ∀ id hello, .task id (.bootstrap (.ok hello)) ∈ s.taskSteps →
    hello.deviceId = c.remoteDeviceId → preferred σ.deviceId c.remoteDeviceId = .inbound →
    ∃ (t : Task) (token : ℕ) (pairs : Bool), σ.tasks[id]? = some t ∧
      t.kind = .outbound c.remoteDeviceId token pairs
  timer : ∀ script, s ≠ .timer script
  command : ∀ command script, s = .command command script → ¬ command.Disturbs ∧
    ∀ d, command.dials = some d → Aside c σ d
  room : ∀ (id : ℕ) (script : List (List TaskStep)) (t : Task), s = .join id script →
    σ.tasks[id]? = some t → t.candidate = some c → Room σ c.remoteDeviceId

section Steps

variable {closed : Prop} {s : Step} {id : ℕ}

theorem Undisturbed.peaceful (hu : Undisturbed closed c σ s) (hc : ¬ closed)
    (ho : c.connection ∉ σ.shared.closed) (hown : ∀ id, own = some id → Serves c σ s id) :
    ∀ act ∈ s.taskSteps, Peaceful c σ own act := by
  intro act hact
  unfold Peaceful
  split
  case h_1 k =>
    rintro rfl
    exact hc (hu.closes hact)
  case h_2 id result =>
    intro heq
    exact (hu.ended id result hact (hown id heq)).elim hc ho
  case h_3 id hello => exact hu.accepts id hello hact
  case h_4 => trivial

theorem Favoured.peaceful (h : Favours c (some id) session σ) (hu : Undisturbed closed c σ s)
    (hc : ¬ closed) :
    ∃ own, Owns own (some id) session ∧ ∀ act ∈ s.taskSteps, Peaceful c σ own act := by
  cases h.located with
  | accepted | dialled =>
    exact ⟨none, nofun, hu.peaceful hc h.isOpen nofun⟩
  | registered ht =>
    refine ⟨some id, fun _ _ hid _ => hid, hu.peaceful hc h.isOpen fun id' hid => ?_⟩
    obtain rfl := Option.some.inj hid
    exact .registered ht

theorem Room.erase (h : Room σ d) (id : ℕ) : Room { σ with tasks := σ.tasks.erase id } d :=
  { h with tasks := Nat.lt_of_le_of_lt ExtTreeMap.size_erase_le h.tasks }

/-- **The task that has the connection is joined.** -/
theorem Favoured.join_self (h : Favours c (some id) session σ) {script : List (List TaskStep)}
    (hu : Undisturbed closed c σ (.join id script)) (hc : ¬ closed) {t : Task} {output : TaskOutput}
    (ht : σ.tasks[id]? = some t) (ho : t.output = some output) :
    ∀ r w', (handleTaskOutput blake3 output).run
      ⟨{ σ with tasks := σ.tasks.erase id }, script⟩ = (r, w') →
      ∃ own, Safe c σ own w' := by
  have hsince : Since σ { σ with tasks := σ.tasks.erase id } :=
    (Since.refl fun id t ht => (h.fresh id t ht).1).erase rfl rfl rfl
  have hallowed (hcandidate : t.candidate = some c) :
      World.Allowed (Peaceful c σ (some σ.nextTask))
        ⟨{ σ with tasks := σ.tasks.erase id }, script⟩ := by
    have hpeaceful : ∀ act ∈ (Step.join id script).taskSteps, Peaceful c σ (some σ.nextTask) act := by
      refine hu.peaceful hc h.isOpen fun id' hid => ?_
      obtain rfl := Option.some.inj hid
      exact .joined rfl ht hcandidate
    exact fun point hpoint act hact => hpeaceful act (List.mem_flatten.mpr ⟨point, hpoint, hact⟩)
  intro r w' hrun
  refine ⟨some σ.nextTask, ?_⟩
  cases h.located with
  | accepted hpref hid =>
    cases ht.symm.trans hid
    cases ho
    have hroom := (hu.room id script _ rfl ht rfl).erase id
    exact joinIncoming_self ⟨h.take, hsince, hallowed rfl, nofun⟩ rfl hroom hpref r w' hrun
  | dialled hpref hid hr hp hcancelled =>
    cases ht.symm.trans hid
    cases ho
    have hroom := (hu.room id script _ rfl ht rfl).erase id
    exact joinOutbound_self ⟨h.take, hsince, hallowed rfl, nofun⟩ rfl hroom hpref hr hp hcancelled r w'
      hrun
  | registered hid =>
    cases ht.symm.trans hid
    cases ho

/-- **Another task is joined.** -/
theorem Favoured.join_other (h : Favours c (some id) session σ) (hs : Sound σ) (hf : Fitting nobody σ)
    {id' : ℕ} {script : List (List TaskStep)} (hu : Undisturbed closed c σ (.join id' script))
    (hc : ¬ closed) {t : Task} {output : TaskOutput} (ht : σ.tasks[id']? = some t)
    (ho : t.output = some output) (hne : id ≠ id') :
    ∀ r w', (handleTaskOutput blake3 output).run
      ⟨{ σ with tasks := σ.tasks.erase id' }, script⟩ = (r, w') →
      ∃ own, Safe c σ own w' := by
  have hsince : Since σ { σ with tasks := σ.tasks.erase id' } :=
    (Since.refl fun id t ht => (h.fresh id t ht).1).erase rfl rfl rfl
  have hne' : some id ≠ some id' := fun heq => hne (Option.some.inj heq)
  obtain ⟨own, howns, hpeaceful⟩ := h.peaceful hu hc
  have hguarded : Guarded c σ own (some id) session ⟨{ σ with tasks := σ.tasks.erase id' }, script⟩ :=
    ⟨h.erase hne', hsince,
      fun point hpoint act hact => hpeaceful act (List.mem_flatten.mpr ⟨point, hpoint, hact⟩), howns⟩
  intro r w' hrun
  refine ⟨own, joinOther_safe hguarded (h.bystanders id' t ht hne') (hs.tasked.coherent id' t ht)
    (fun a pending commands phase record heq hr => ?_) ho r w' hrun⟩
  subst heq
  exact (hf id' a pending commands phase ht).device record hr

theorem bystander_client {side : SessionOrigin} {ended : Bool} :
    Bystander side c session (.ipcClient ended) :=
  ⟨nofun, nofun, nofun, nofun⟩

/-- **A step that does not disturb the connection keeps it.** -/
theorem Favoured.step (h : Favours c (some id) session σ) (hs : Sound σ) (hf : Fitting nobody σ)
    (hu : Undisturbed closed c σ s) (hc : ¬ closed) :
    ∃ id session, Favours c (some id) session (step blake3 σ s) := by
  have hsince : Since σ σ := Since.refl fun id t ht => (h.fresh id t ht).1
  obtain ⟨own, howns, hpeaceful⟩ := h.peaceful hu hc
  cases s with
  | task act =>
    exact ⟨id, session, h.taskStep hsince howns (hpeaceful act (List.mem_singleton.mpr rfl))⟩
  | timer script => exact absurd rfl (hu.timer script)
  | acceptClient =>
    rw [Daemon.step]
    split_ifs
    · exact ⟨id, session, h.spawn bystander_client fun s c' hk => by cases hk⟩
    · exact ⟨id, session, h⟩
  | command command script =>
    have hguarded : Guarded c σ own (some id) session ⟨σ, script⟩ :=
      ⟨h, hsince, fun point hpoint act hact =>
        hpeaceful act (List.mem_flatten.mpr ⟨point, hpoint, hact⟩), howns⟩
    obtain ⟨hn, hd⟩ := hu.command command script rfl
    exact ⟨id, session, (handleCommand_guarded hguarded hn hd _ _ rfl).favours⟩
  | join id' script =>
    rw [Daemon.step]
    split
    · next output hjoined =>
      obtain ⟨t, ht, ho⟩ := Option.bind_eq_some_iff.mp hjoined
      by_cases hid : id = id'
      · subst hid
        obtain ⟨own, id', session', hsafe⟩ := h.join_self hu hc ht ho _ _ rfl
        exact ⟨id', session', hsafe.favours⟩
      · obtain ⟨own, id', session', hsafe⟩ := h.join_other hs hf hu hc ht ho hid _ _ rfl
        exact ⟨id', session', hsafe.favours⟩
    · exact ⟨id, session, h⟩

end Steps

end Rift.Daemon
