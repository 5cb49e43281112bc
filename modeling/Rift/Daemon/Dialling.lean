import Rift.Daemon.Registration

/-! # Dialling

The handlers that start a dial and the one that registers what it gave, run against any script of the
tasks. A caller is answered with what fits its purpose or waits for a live dial; a managed peer is not
left `connecting` without one, unless work on record for the same device is in the way.

The main results are `startOutbound_spec`, `spawnOutbound_spec` and `finishDial_spec`. -/

namespace Rift.Daemon

open Rift.Lib Rift.Lib.Interference Rift.Core Rift.Ipc Rift.Session Std Std.Do
open Rift.Trust hiding Event

set_option mvcgen.warning false

variable {blake3 : Blake3} {B : Bounds} {hand : Hand}
  {w₀ w : World Daemon TaskStep} {d : DeviceId}

/-! ### Peers that are being dialled -/

section Settled

variable {σ σ' : Daemon}

theorem Settled.of_le (h : Settled σ d) (hl : Live σ d → Live σ' d)
    (hp : ∀ p, σ'.connectivity.peers[d]? = some p → p.state = .connecting →
      ∃ q, σ.connectivity.peers[d]? = some q ∧ q.state = .connecting) : Settled σ' d := by
  intro p hpeer hs
  obtain ⟨q, hq, hqs⟩ := hp p hpeer hs
  exact hl (h q hq hqs)

theorem Settled.modify (h : Settled σ d) {d' : DeviceId} {f : Peer → Peer}
    (hf : ∀ p, (f p).state = .connecting → p.state = .connecting) (hl : Live σ d → Live σ' d)
    (hp : σ'.connectivity.peers = σ.connectivity.peers.modify d' f) : Settled σ' d := by
  refine h.of_le hl fun p hpeer hs => ?_
  rw [hp] at hpeer
  rcases Map.modify_eq_some.mp hpeer with ⟨rfl, q, hq, rfl⟩ | ⟨-, hpeer⟩
  · exact ⟨q, hq, hf q hs⟩
  · exact ⟨p, hpeer, hs⟩

theorem Settled.evolved (h : Settled σ d) (he : Evolved σ σ') : Settled σ' d := by
  obtain ⟨tasks, shared, rfl⟩ := he.owned
  exact h

theorem Settled.retireExisting (h : Settled σ d)
    (existing : Existing) :
    Settled (retireExisting σ existing) d := by
  rcases existing with _ | ⟨s, r, closed⟩
  · exact h
  · refine h.modify (fun p hs => ?_) (fun hl => hl) rfl
    cases closed with
    | false => exact hs
    | true => exact absurd hs (Peer.lost_state_ne ..).1

/-- **No move leaves a peer `connecting` without a dial.** -/
theorem Move.settled (hm : Move blake3 B hand σ σ') (h : Settled σ d) : Settled σ' d := by
  cases hm with
  | act => exact h.evolved (taskStep_spec _ _).evolved
  | manage hi =>
    rcases insertPeer_eq_some hi with ⟨rfl, -⟩ | ⟨rfl, -, -⟩
    · exact h
    · refine h.of_le (fun hl => hl) fun p hp hs => ?_
      rcases Map.insert_eq_some.mp hp with ⟨-, rfl⟩ | ⟨-, hp⟩
      · cases hs
      · exact ⟨p, hp, hs⟩
  | resume =>
    refine h.modify (fun p hs => ?_) (fun hl => hl) rfl
    exact by_contra fun hn => Peer.resume_state_ne p _ hn hs
  | resolved =>
    refine h.modify (fun p hs => ?_) (fun hl => hl) rfl
    exact by_contra fun hn => Peer.resume_state_ne p _ hn hs
  | fail _ failure =>
    refine h.modify (fun p hs => ?_) (fun hl => hl) rfl
    exact absurd hs (Peer.failed_state_ne ..).1
  | @coalesce _ d' hl _ =>
    intro p hp hs
    rcases Map.modify_eq_some.mp hp with ⟨rfl, -⟩ | ⟨-, hp⟩
    · exact hl
    · exact h p hp hs
  | @dial _ d' pairing hn _ _ hu =>
    intro p hp hs
    rcases Map.modify_eq_some.mp hp with ⟨rfl, q, hq, -⟩ | ⟨hne, hp⟩
    · cases pairing with
      | false => exact ⟨_, ExtTreeMap.getElem?_insert_self, rfl, rfl⟩
      | true => rw [hu rfl] at hq; cases hq
    · obtain ⟨record, hr, hlive⟩ := h p hp hs
      exact ⟨record, (Map.insert_ne hne).trans hr, hlive⟩
  | openSession =>
    refine (h.retireExisting _).modify (fun p hs => ?_) (fun hl => hl) rfl
    cases hs
  | hint | close | drop | pend | commitFails => exact h

end Settled

/-! ### Peers that are reported -/

section Told

variable {σ σ' : Daemon}

theorem told_changePeer (σ : Daemon) (d : DeviceId) (f : Peer → Peer) :
    Told (σ.changePeer d f) d := by
  intro p hp
  rcases Map.modify_eq_some.mp hp with ⟨-, q, -, rfl⟩ | ⟨hne, -⟩
  · exact Peer.truthful_reported _ _ _
  · exact absurd rfl hne

theorem Told.modify (h : Told σ d) {d' : DeviceId} {f : Peer → Peer}
    (hf : d' = d → ∀ p, p.Truthful d → (f p).Truthful d)
    (hp : σ'.connectivity.peers = σ.connectivity.peers.modify d' f) : Told σ' d := by
  intro p hpeer
  rw [hp] at hpeer
  rcases Map.modify_eq_some.mp hpeer with ⟨heq, q, hq, rfl⟩ | ⟨-, hpeer⟩
  · exact hf heq q (h q (heq ▸ hq))
  · exact h p hpeer

theorem Told.reported (h : Told σ d) {d' : DeviceId} {f : Peer → Peer} {now : ℕ}
    (hp : σ'.connectivity.peers = σ.connectivity.peers.modify d' fun p => (f p).reported d' now) :
    Told σ' d :=
  h.modify (fun heq _ _ => heq ▸ Peer.truthful_reported _ _ _) hp

theorem Told.evolved (h : Told σ d) (he : Evolved σ σ') : Told σ' d := by
  obtain ⟨tasks, shared, rfl⟩ := he.owned
  exact h

theorem Told.insertPeer (h : Told σ d) {d' : DeviceId} (hi : σ.insertPeer d' = some σ') :
    Told σ' d := by
  rcases insertPeer_eq_some hi with ⟨rfl, -⟩ | ⟨rfl, -, -⟩
  · exact h
  · intro p hp
    rcases Map.insert_eq_some.mp hp with ⟨-, rfl⟩ | ⟨-, hp⟩
    · exact Peer.truthful_new _ _
    · exact h p hp

theorem Told.registered (h : Told σ d) (existing : Existing)
    (c : Authorized) (origin : SessionOrigin) (he : Replaces σ c.remoteDeviceId existing) :
    Told (registered σ existing c origin) d := by
  by_cases heq : c.remoteDeviceId = d
  · subst heq
    exact told_changePeer _ _ _
  · refine Told.reported (σ := retireExisting σ existing) ?_ rfl
    rcases existing with _ | ⟨s, r, closed⟩
    · exact h
    · exact h.modify (fun hd => absurd (he.2.1.symm.trans hd) heq) rfl

/-- **All moves but those of a dial to the device keep it reported as it is.** -/
theorem Move.told (hm : Move blake3 B hand σ σ') (hd : ∀ waiting, hand ≠ .dial d false waiting)
    (h : Told σ d) : Told σ' d := by
  cases hm with
  | act => exact h.evolved (taskStep_spec _ _).evolved
  | manage hi => exact h.insertPeer hi
  | resume _ d' waiting =>
    exact h.modify (fun heq => absurd (heq ▸ rfl) (hd waiting)) rfl
  | resolved => exact h.reported rfl
  | fail => exact h.reported rfl
  | @coalesce _ d' _ _ waiting => exact h.modify (fun heq => absurd (heq ▸ rfl) (hd waiting)) rfl
  | dial => exact h.reported rfl
  | openSession _ _ _ he => exact h.registered _ _ _ he
  | hint | close | drop | pend | commitFails => exact h

end Told

/-! ### Moves for whatever is in hand -/

theorem Move.lift {σ σ' : Daemon} (h : Move blake3 B .none σ σ') (hand : Hand) :
    Move blake3 B hand σ σ' := by
  cases h with
  | act _ hs => exact .act _ hs
  | hint => exact .hint _ _
  | close => exact .close _ _
  | drop => exact .drop _ _
  | manage hi ht hl => exact .manage hi ht hl
  | pend ht hg hl hp hroom origin => exact .pend ht hg hl hp hroom origin
  | openSession ht hg hp he hroom origin => exact .openSession ht hg hp he hroom origin

theorem Move.outbound_eq {σ σ' : Daemon} (h : Move blake3 B .none σ σ') :
    σ'.outbound = σ.outbound := by
  cases h with
  | act => exact (taskStep_spec _ _).evolved.outbound
  | manage hi =>
    obtain ⟨-, peers, rfl⟩ := mem_of_insertPeer hi
    rfl
  | @openSession _ _ existing => exact (@retireExisting_frame σ existing).2.1
  | hint | close | drop | pend => rfl

theorem Moves.outbound_eq {σ σ' : Daemon} (h : Moves blake3 B .none σ σ') :
    σ'.outbound = σ.outbound :=
  h.keep (P := fun τ => τ.outbound = σ.outbound) (fun hm heq => hm.outbound_eq.trans heq) rfl

theorem Along.lift (h : Along blake3 B hand w₀ w) {w' : World Daemon TaskStep}
    (h' : Along blake3 B .none w w') : Along blake3 B hand w₀ w' := by
  have hlift (τ : Daemon) (hτ : Moves blake3 B .none w.state τ) : Moves blake3 B hand w₀.state τ :=
    hτ.keep (fun hm hσ => hσ.tail (hm.lift hand)) h.moves
  exact ⟨hlift _ h'.moves, h'.sound, h'.allowed, h'.looks.after h.looks hlift⟩

/-! ### Starting a dial -/

/-- Work on record for the device that holds up a dial for a session. -/
def Blocks (σ : Daemon) (d : DeviceId) : Prop :=
  ∃ record, σ.outbound[d]? = some record ∧ (record.cancelled = true ∨ record.pairing = true)

/-- There is no dial to the device on record, and no open session with it. -/
structure Idle (σ : Daemon) (d : DeviceId) : Prop where
  outbound : σ.outbound[d]? = none
  closed : σ.canonicalSession d = none

/-- The device is reported as it is, and joining a live dial to it changes nothing about that. -/
structure Joinable (σ : Daemon) (d : DeviceId) : Prop where
  told : Told σ d
  live : Live σ d → Told (σ.modifyPeer d Peer.dialling) d

theorem Silent.told {σ : Daemon} (h : Silent σ d) : Told σ d := by
  intro p hp last hlast
  rw [h p hp] at hlast
  cases hlast

theorem Silent.dialling {σ σ' : Daemon} (h : Silent σ d)
    (hp : σ'.connectivity.peers = σ.connectivity.peers.modify d Peer.dialling) : Silent σ' d := by
  intro p hpeer
  rw [hp] at hpeer
  rcases Map.modify_eq_some.mp hpeer with ⟨-, q, hq, rfl⟩ | ⟨-, hpeer⟩
  · exact h q hq
  · exact h p hpeer

theorem Silent.joinable {σ : Daemon} (h : Silent σ d) : Joinable σ d :=
  ⟨h.told, fun _ => (h.dialling rfl).told⟩

theorem Idle.evolved {σ σ' : Daemon} (h : Idle σ d) (he : Evolved σ σ') : Idle σ' d :=
  ⟨he.outbound ▸ h.outbound, he.canonicalSession h.closed⟩

theorem Joinable.evolved {σ σ' : Daemon} (h : Joinable σ d) (he : Evolved σ σ') : Joinable σ' d := by
  obtain ⟨tasks, shared, rfl⟩ := he.owned
  exact ⟨h.told, h.live⟩

/-- The device is reported as it is once a dial to it is placed or has failed. -/
def Reportable (σ : Daemon) (d : DeviceId) : Prop := Joinable σ d ∨ Idle σ d

theorem Reportable.evolved {σ σ' : Daemon} (h : Reportable σ d) (he : Evolved σ σ') :
    Reportable σ' d :=
  h.imp (·.evolved he) (·.evolved he)

theorem Reportable.told {σ : Daemon} (h : Reportable σ d) : Told σ d ∨ Idle σ d :=
  h.imp_left Joinable.told

/-- What trying to start a dial leads to, from the dials on record. -/
structure Started (blake3 : Blake3) (B : Bounds) (hand : Hand) (w₀ : World Daemon TaskStep)
    (outbound : ExtTreeMap DeviceId OutboundRecord) (d : DeviceId) (pairing : Bool)
    (r : OperationResult (Option SessionId)) (w : World Daemon TaskStep) : Prop where
  along : Along blake3 B hand w₀ w
  waits : r = .ok none → ∃ record, w.state.outbound[d]? = some record ∧
    record.cancelled = false ∧ record.pairing = pairing ∧ record.replies.length < maxDialWaiters
  session : ∀ s, r = .ok (some s) →
    pairing = false ∧ Connected w.state d ∧ SessionOf w.state d s
  fails : ∀ e, r = .error e → e ∉ invariantFailures ∧ w.state.outbound = outbound
  told : pairing = false → ¬ B.unreported d →
    Told w.state d ∨ Idle w.state d ∧ ∃ e, r = .error e

variable {pairing : Bool} {outbound : ExtTreeMap DeviceId OutboundRecord}
  {waiting : List OutboundReply}

theorem not_mem_invariantFailures {e : ErrorResponse} (h : e.code ≠ .internal) :
    e ∉ invariantFailures := by
  intro hmem
  simp only [invariantFailures, List.mem_cons, List.not_mem_nil, or_false] at hmem
  rcases hmem with rfl | rfl | rfl | rfl <;> exact h rfl

theorem Along.notStarted (h : Along blake3 B hand w₀ w) {e : ErrorResponse}
    (he : e ∉ invariantFailures) (ho : w.state.outbound = outbound)
    (ht : pairing = false → ¬ B.unreported d → Told w.state d ∨ Idle w.state d) :
    Started blake3 B hand w₀ outbound d pairing (.error e) w := by
  refine ⟨h, fun heq => (by cases heq), fun _ heq => (by cases heq), fun e' heq => ?_,
    fun hp hu => (ht hp hu).imp_right fun hidle => ⟨hidle, e, rfl⟩⟩
  cases heq
  exact ⟨he, ho⟩

/-- A dial on record that no further caller may join. -/
def OutboundRecord.Full (record : OutboundRecord) : Prop :=
  record.cancelled = true ∨ record.pairing = true ∨ maxDialWaiters ≤ record.replies.length

/-- What placing a dial for a session needs, for the device to be reported as it is then. -/
structure Placeable (σ : Daemon) (d : DeviceId) : Prop where
  live : Live σ d → Told (σ.modifyPeer d Peer.dialling) d
  full : ∀ record, σ.outbound[d]? = some record → record.Full → Told σ d

theorem placeDial_spec (h : Along blake3 B (.dial d pairing waiting) w₀ w)
    (hl : d ≠ w.state.deviceId) (hs : pairing = false → w.state.canonicalSession d = none)
    (hp : pairing = true → w.state.connectivity.peers[d]? = none)
    (ht : pairing = false → ¬ B.unreported d → Placeable w.state d) :
    ∀ r w', (placeDial blake3 d pairing).run w = (r, w') →
      Started blake3 B (.dial d pairing waiting) w₀ w.state.outbound d pairing r w' := by
  have hev := h.evolved.trans h.acted.evolved
  have hidle (hr : w.state.outbound[d]? = none) (hp : pairing = false) : Idle w.state d :=
    ⟨hr, hs hp⟩
  refine run_of_triple ?_
  mvcgen [placeDial]
  case vc1 v heq record hr hfull =>
    subst heq
    refine h.notStarted (by decide) rfl fun hpairing hu => Or.inl ((ht hpairing hu).full record hr ?_)
    simpa [hpairing, OutboundRecord.Full] using hfull
  case vc2 v heq record hr hjoin =>
    subst heq
    simp only [not_or, Bool.not_eq_true, Nat.not_le] at hjoin
    obtain ⟨hc, rfl, hpairing, hroom⟩ := hjoin
    have hlive : Live v.state d := ⟨record, hr, hc, hpairing⟩
    exact ⟨h.move (.coalesce hlive (hs rfl) waiting), fun _ => ⟨record, hr, hc, hpairing, hroom⟩,
      fun _ heq => (by cases heq), fun _ heq => (by cases heq),
      fun _ hu => Or.inl ((ht rfl hu).live hlive)⟩
  case vc3 v heq hr _ =>
    subst heq
    exact h.notStarted (by decide) rfl fun hp _ => Or.inr (hidle hr hp)
  case vc4 v heq hr _ _ =>
    subst heq
    exact h.acted.notStarted (by decide) h.evolved.outbound
      fun hp _ => Or.inr ((hidle hr hp).evolved h.evolved)
  case vc5 v heq hr _ _ e _ =>
    subst heq
    exact h.acted.acted.notStarted (not_mem_invariantFailures (connectionError_code e)) hev.outbound
      fun hp _ => Or.inr ((hidle hr hp).evolved hev)
  case vc6 v heq hr _ _ _ | vc7 v heq hr _ _ _ _ =>
    subst heq
    exact h.acted.acted.notStarted (by decide) hev.outbound
      fun hp _ => Or.inr ((hidle hr hp).evolved hev)
  case vc8 v heq hr hroom _ _ _ =>
    subst heq
    simp only [decide_eq_true_eq, not_or, Nat.not_le] at hroom
    have hdial : Move blake3 B (.dial d pairing waiting)
        ((v.acted (taskStep blake3)).acted (taskStep blake3)).state
        (((v.acted (taskStep blake3)).acted (taskStep blake3)).state.startDial d pairing) :=
      .dial (by rw [hev.outbound]; exact hr) (by rw [hev.deviceId]; exact hl)
        (fun hp => hev.canonicalSession (hs hp)) (fun hq => by rw [hev.connectivity]; exact hp hq)
        (by rw [hev.outbound, hev.config]; exact hroom.1) (by rw [hev.tasks_size]; exact hroom.2) _
    have hnew : ([] : List OutboundReply).length < maxDialWaiters := by decide
    exact ⟨h.acted.acted.move hdial,
      fun _ => ⟨_, ExtTreeMap.getElem?_insert_self, rfl, rfl, hnew⟩, fun _ heq => (by cases heq),
      fun _ heq => (by cases heq), fun _ _ => Or.inl (told_changePeer _ d _)⟩

@[spec] theorem placeDial_run (d : DeviceId) (pairing : Bool)
    {Q : Post Daemon TaskStep (OperationResult (Option SessionId))} :
    ⦃fun w => Q.1 ((placeDial blake3 d pairing).run w).1 ((placeDial blake3 d pairing).run w).2⦄
    placeDial blake3 d pairing ⦃Q⦄ :=
  run_spec _

/-- A caller resumes the peer; the retry timer does not. -/
def resumed (σ : Daemon) (d : DeviceId) (manual : Bool) : Daemon :=
  if manual then σ.resumePeer d else σ

theorem Along.resumed (h : Along blake3 B (.dial d false waiting) w₀ w) (manual : Bool) :
    Along blake3 B (.dial d false waiting) w₀ ⟨resumed w.state d manual, w.script⟩ := by
  cases manual
  · exact h
  · exact h.move (.resume _ _ _)

theorem resumed_frame (σ : Daemon) (d : DeviceId) (manual : Bool) :
    (resumed σ d manual).outbound = σ.outbound ∧ (resumed σ d manual).deviceId = σ.deviceId ∧
      (resumed σ d manual).canonicalSession d = σ.canonicalSession d := by
  cases manual <;> exact ⟨rfl, rfl, rfl⟩

theorem Told.resumed {σ : Daemon} (h : Told σ d) (hs : Sound σ) {s : SessionId}
    (hc : σ.canonicalSession d = some s) (manual : Bool) : Told (resumed σ d manual) d := by
  cases manual with
  | false => exact h
  | true =>
    obtain ⟨r, hr, rfl, -⟩ := canonicalSession_eq_some hc
    obtain ⟨p, hp, hps⟩ := hs.registered.linked s r hr
    intro p' hp'
    rcases Map.modify_eq_some.mp hp' with ⟨-, q, hq, rfl⟩ | ⟨hne, -⟩
    · rw [hp] at hq
      cases hq
      have hsome : p.sessionId ≠ none := by rw [hps]; simp
      exact (h p hp).congr (by rw [Peer.resume, if_neg hsome]) (Peer.resume_state _ hsome)
        (Peer.resume_sessionId ..) (by rw [Peer.resume, if_neg hsome])
        (by rw [Peer.resume, if_neg hsome])
    · exact absurd rfl hne

theorem told_dialling_resumed {σ : Daemon} (h : Told (σ.modifyPeer d Peer.dialling) d)
    (manual : Bool) : Told ((resumed σ d manual).modifyPeer d Peer.dialling) d := by
  cases manual with
  | false => exact h
  | true =>
    intro p hp
    rcases Map.modify_eq_some.mp hp with ⟨-, q, hq, rfl⟩ | ⟨hne, -⟩
    · rcases Map.modify_eq_some.mp hq with ⟨-, u, hu, rfl⟩ | ⟨hne, -⟩
      · have hu' : (σ.modifyPeer d Peer.dialling).connectivity.peers[d]? = some u.dialling :=
          Map.modify_eq_some.mpr (Or.inl ⟨rfl, u, hu, rfl⟩)
        refine (h _ hu').congr ?_ rfl ?_ ?_ ?_ <;> unfold Peer.resume Peer.dialling <;>
          by_cases hn : u.sessionId = none <;> simp [hn]
      · exact absurd rfl hne
    · exact absurd rfl hne

theorem Joinable.insertPeer {σ σ' : Daemon} (h : Joinable σ d) (hi : σ.insertPeer d = some σ') :
    Joinable σ' d := by
  refine ⟨h.told.insertPeer hi, fun hl => ?_⟩
  rcases insertPeer_eq_some hi with ⟨rfl, -⟩ | ⟨rfl, -, -⟩
  · exact h.live hl
  · intro p hp
    rcases Map.modify_eq_some.mp hp with ⟨-, q, hq, rfl⟩ | ⟨hne, -⟩
    · rcases Map.insert_eq_some.mp hq with ⟨-, rfl⟩ | ⟨hne, -⟩
      · exact nofun
      · exact absurd rfl hne
    · exact absurd rfl hne

theorem Idle.insertPeer {σ σ' : Daemon} (h : Idle σ d) {d' : DeviceId}
    (hi : σ.insertPeer d' = some σ') : Idle σ' d := by
  obtain ⟨-, peers, rfl⟩ := mem_of_insertPeer hi
  exact ⟨h.outbound, h.closed⟩

theorem Reportable.placeable {σ : Daemon} (h : Reportable σ d) (hs : Sound σ) (manual : Bool)
    (hfull : σ.canonicalSession d = none → ∀ record, σ.outbound[d]? = some record → ¬ record.Full) :
    Placeable (resumed σ d manual) d := by
  have hframe := (resumed_frame σ d manual).1
  rcases h with ⟨htold, hlive⟩ | hidle
  · refine ⟨fun hl => told_dialling_resumed (hlive ?_) manual, fun record hr hrf => ?_⟩
    · unfold Live at hl ⊢
      rw [hframe] at hl
      exact hl
    · rw [hframe] at hr
      cases hc : σ.canonicalSession d with
      | none => exact absurd hrf (hfull hc record hr)
      | some s => exact htold.resumed hs hc manual
  · refine ⟨fun ⟨record, hr, _⟩ => ?_, fun record hr _ => ?_⟩
    · rw [hframe, hidle.outbound] at hr
      cases hr
    · rw [hframe, hidle.outbound] at hr
      cases hr

theorem Placeable.evolved {σ σ' : Daemon} (h : Placeable σ d) (he : Evolved σ σ') :
    Placeable σ' d := by
  obtain ⟨tasks, shared, rfl⟩ := he.owned
  exact ⟨h.live, h.full⟩

theorem prepareDial_spec (h : Along blake3 B (.dial d false waiting) w₀ w)
    (hl : d ≠ w.state.deviceId) (ht : w.state.shared.store.state d = some .trusted)
    (hr : ¬ B.unreported d → Reportable w.state d) (manual : Bool) :
    ∀ r w', (prepareDial blake3 d manual).run w = (r, w') →
      Started blake3 B (.dial d false waiting) w₀ w.state.outbound d false r w' := by
  -- What managing the peer leaves.
  have hmanaged (σ : Daemon) (hσ : w.state.insertPeer d = some σ) :
      Along blake3 B (.dial d false waiting) w₀ ⟨σ, w.script⟩ ∧ σ.outbound = w.state.outbound ∧
        σ.deviceId = w.state.deviceId ∧ (¬ B.unreported d → Reportable σ d) := by
    have hreport (hu : ¬ B.unreported d) : Reportable σ d :=
      (hr hu).imp (·.insertPeer hσ) (·.insertPeer hσ)
    refine ⟨h.move (.manage hσ ht fun heq => absurd heq hl), ?_⟩
    obtain ⟨-, peers, rfl⟩ := mem_of_insertPeer hσ
    exact ⟨rfl, rfl, hreport⟩
  refine run_of_triple ?_
  mvcgen [prepareDial]
  case vc1 v heq _ =>
    subst heq
    exact h.notStarted (by decide) rfl fun _ hu => (hr hu).told
  case vc2 v heq σ hσ _ =>
    subst heq
    obtain ⟨hm, ho, -, hreport⟩ := hmanaged σ hσ
    exact hm.acted.notStarted (by decide) (hm.evolved.outbound.trans ho)
      fun _ hu => ((hreport hu).evolved hm.evolved).told
  case vc3 v heq σ hσ _ s hs =>
    subst heq
    obtain ⟨hm, -, -, hreport⟩ := hmanaged σ hσ
    have hres := hm.acted.resumed manual
    obtain ⟨-, -, hframe⟩ := resumed_frame (World.acted (taskStep blake3) ⟨σ, v.script⟩).state d manual
    refine ⟨hres.acted, fun heq => (by cases heq), fun s' heq => ?_, fun _ heq => (by cases heq),
      fun _ hu => Or.inl ?_⟩
    · cases heq
      exact ⟨rfl, hres.acted.sound.connected_of_canonical hs⟩
    -- The session was open before, so resuming the peer does not show.
    · cases hc : (World.acted (taskStep blake3) ⟨σ, v.script⟩).state.canonicalSession d with
      | none =>
        have hnone := hres.evolved.canonicalSession (hframe.trans hc)
        exact absurd (hs.symm.trans hnone) (by simp)
      | some s₀ =>
        rcases (hreport hu).evolved hm.evolved with hj | hidle
        · exact (hj.told.resumed hm.acted.sound hc manual).evolved hres.evolved
        · exact absurd (hc.symm.trans hidle.closed) (by simp)
  case vc4 v heq σ hσ hfull hn =>
    subst heq
    obtain ⟨hm, ho, hd, hreport⟩ := hmanaged σ hσ
    obtain ⟨hro, hrd, -⟩ :=
      resumed_frame (World.acted (taskStep blake3) ⟨σ, v.script⟩).state d manual
    have hres := hm.acted.resumed manual
    have hout := hres.evolved.outbound.trans (hro.trans (hm.evolved.outbound.trans ho))
    have hid := hres.evolved.deviceId.trans (hrd.trans (hm.evolved.deviceId.trans hd))
    have hplace (hu : ¬ B.unreported d) :
        Placeable (resumed (World.acted (taskStep blake3) ⟨σ, v.script⟩).state d manual) d := by
      refine ((hreport hu).evolved hm.evolved).placeable hm.acted.sound manual fun hc record hr => ?_
      simpa [hc, hr, OutboundRecord.Full, and_assoc] using hfull
    rw [← hout]
    exact placeDial_spec hres.acted (by rw [hid]; exact hl) (fun _ => hn) (fun hp => by cases hp)
      (fun _ hu => (hplace hu).evolved hres.evolved) _ _ rfl

@[spec] theorem prepareDial_run (d : DeviceId) (manual : Bool)
    {Q : Post Daemon TaskStep (OperationResult (Option SessionId))} :
    ⦃fun w => Q.1 ((prepareDial blake3 d manual).run w).1 ((prepareDial blake3 d manual).run w).2⦄
    prepareDial blake3 d manual ⦃Q⦄ :=
  run_spec _

theorem dialEligible_ok {state : Option TrustState} (h : dialEligible state pairing = .ok ()) :
    (pairing = true → state = none) ∧ (pairing = false → state = some .trusted) := by
  unfold dialEligible at h
  split at h
  · exact ⟨fun _ => rfl, fun hp => by cases hp⟩
  · exact ⟨fun hp => (by cases hp), fun _ => rfl⟩
  · cases h
  · cases h

theorem dialEligible_error {state : Option TrustState} {e : ErrorResponse}
    (h : dialEligible state pairing = .error e) : e.code ≠ .internal := by
  unfold dialEligible at h
  split at h <;> cases h <;> exact fun hcode => by cases hcode

/-- **Starting a dial.** -/
theorem startOutbound_spec (h : Along blake3 B (.dial d pairing waiting) w₀ w)
    (ht : pairing = false → ¬ B.unreported d → Reportable w.state d) (manual : Bool) :
    ∀ r w', (startOutbound blake3 d pairing manual).run w = (r, w') →
      Started blake3 B (.dial d pairing waiting) w₀ w.state.outbound d pairing r w' := by
  have hev := h.evolved.trans h.acted.evolved
  refine run_of_triple ?_
  mvcgen [startOutbound]
  case vc1 heq _ | vc2 heq _ _ =>
    subst heq
    exact h.notStarted (by decide) rfl fun hp hu => (ht hp hu).told
  case vc3 v heq _ _ e he =>
    subst heq
    exact h.acted.notStarted (not_mem_invariantFailures (dialEligible_error he)) h.evolved.outbound
      fun hp hu => ((ht hp hu).evolved h.evolved).told
  case vc4 heq _ _ _ _ =>
    subst heq
    exact h.acted.acted.notStarted (by decide) hev.outbound
      fun hp hu => ((ht hp hu).evolved hev).told
  case vc5 v heq _ hl helig _ hp =>
    subst heq hp
    have hnone := (dialEligible_ok helig).1 rfl
    -- A managed peer is trusted.
    have hpeers : (v.acted (taskStep blake3)).state.connectivity.peers[d]? = none := by
      cases hpeer : (v.acted (taskStep blake3)).state.connectivity.peers[d]? with
      | none => rfl
      | some p =>
        rw [h.acted.sound.registered.trusted d p hpeer] at hnone
        cases hnone
    rw [← hev.outbound]
    exact placeDial_spec h.acted.acted (by rw [hev.deviceId]; exact hl) (fun hp => by cases hp)
      (fun _ => by rw [h.acted.evolved.connectivity]; exact hpeers) (fun hp => by cases hp) _ _ rfl
  case vc6 v heq _ hl helig _ hp =>
    subst heq
    rw [Bool.not_eq_true] at hp
    subst hp
    rw [← hev.outbound]
    exact prepareDial_spec h.acted.acted (by rw [hev.deviceId]; exact hl)
      (h.acted.evolved.grows.trusted _ ((dialEligible_ok helig).2 rfl))
      (fun hu => (ht rfl hu).evolved hev) manual _ _ rfl

@[spec] theorem startOutbound_run (d : DeviceId) (pairing manual : Bool)
    {Q : Post Daemon TaskStep (OperationResult (Option SessionId))} :
    ⦃fun w => Q.1 ((startOutbound blake3 d pairing manual).run w).1
      ((startOutbound blake3 d pairing manual).run w).2⦄
    startOutbound blake3 d pairing manual ⦃Q⦄ :=
  run_spec _

theorem Connected.settled {σ : Daemon} (h : Connected σ d) : Settled σ d := by
  intro p hp hs
  obtain ⟨q, hq, hconn⟩ := h
  rw [hp] at hq
  cases hq
  rw [hconn] at hs
  cases hs

theorem settled_connectivityFailed (σ : Daemon) (d : DeviceId) (failure : ConnectivityFailure) :
    Settled (σ.connectivityFailed d failure) d := by
  intro p hp hs
  rcases Map.modify_eq_some.mp hp with ⟨-, q, -, rfl⟩ | ⟨hne, -⟩
  · exact absurd hs (Peer.failed_state_ne ..).1
  · exact absurd rfl hne

/-- A dial that cannot be started: the peer fails, unless it has a session or there is a dial on
record. -/
theorem Along.notDialled (h : Along blake3 B (.dial d pairing waiting) w₀ w)
    (hb : pairing = false → Blocks w.state d → Settled w.state d ∨ B.blocked d)
    (ht : pairing = false → ¬ B.unreported d → Told w.state d ∨ Idle w.state d) {e : ErrorResponse}
    (he : e ∉ invariantFailures) (failure : ConnectivityFailure) :
    Finished blake3 B (.dial d pairing waiting) w₀
      ⟨(if (!pairing && (w.state.canonicalSession d).isNone && !w.state.outbound.contains d) = true
        then w.state.connectivityFailed d failure else w.state).answer waiting (.error e),
        w.script⟩ := by
  split_ifs with hfailed
  · simp only [Bool.and_eq_true, Bool.not_eq_true', Option.isNone_iff_eq_none] at hfailed
    obtain ⟨⟨rfl, hclosed⟩, -⟩ := hfailed
    have hsettled := settled_connectivityFailed w.state d failure
    have htold := told_changePeer w.state d fun peer =>
      peer.failed failure w.state.shared.clock w.state.sample
    exact ⟨_, .moved (h.move (.fail hclosed failure waiting)).moves,
      .answered (by exact he) (fun _ => Or.inl hsettled) (fun _ => Or.inl htold) _, h.looks⟩
  · refine ⟨_, .moved h.moves, .answered (by exact he) (fun hp => ?_) (fun hp => ?_) _, h.looks⟩
    · subst hp
      cases hs : w.state.canonicalSession d with
      | some s => exact Or.inl (h.sound.connected_of_canonical hs).1.settled
      | none =>
        have hmem : d ∈ w.state.outbound := by simpa [hs] using hfailed
        obtain ⟨record, hrecord⟩ := Map.mem_iff_exists.mp hmem
        by_cases hblocks : record.cancelled = true ∨ record.pairing = true
        · exact hb rfl ⟨record, hrecord, hblocks⟩
        · simp only [not_or, Bool.not_eq_true] at hblocks
          exact Or.inl fun p _ _ => ⟨record, hrecord, hblocks⟩
    · subst hp
      by_cases hu : B.unreported d
      · exact Or.inr hu
      · refine Or.inl ((ht rfl hu).resolve_right fun hidle => hfailed ?_)
        simp [hidle.closed, ExtTreeMap.contains_eq_isSome_getElem?, hidle.outbound]

/-- **Dialling for a caller, or for the retry timer.** -/
theorem spawnOutbound_spec (reply : Option OutboundReply)
    (h : Along blake3 B (.dial d pairing reply.toList) w₀ w)
    (hb : pairing = false → Blocks w.state d → Settled w.state d ∨ B.blocked d)
    (ht : pairing = false → ¬ B.unreported d → Reportable w.state d) :
    ∀ r w', (spawnOutbound blake3 d pairing reply).run w = (r, w') →
      Finished blake3 B (.dial d pairing reply.toList) w₀ w' := by
  have hhere : Along blake3 B (.dial d pairing reply.toList) w w := .refl h.sound h.allowed
  have hstarted : Started blake3 B (.dial d pairing reply.toList) w w.state.outbound d pairing
      ((startOutbound blake3 d pairing reply.isSome).run w).1
      ((startOutbound blake3 d pairing reply.isSome).run w).2 :=
    startOutbound_spec hhere ht reply.isSome _ _ rfl
  suffices hfinished : ∀ r w', (spawnOutbound blake3 d pairing reply).run w = (r, w') →
      Finished blake3 B (.dial d pairing reply.toList) w w' from
    fun r w' hr => (hfinished r w' hr).after h
  have htold (r : OperationResult (Option SessionId))
      (hr : ((startOutbound blake3 d pairing reply.isSome).run w).1 = r) (hne : ∀ e, r ≠ .error e)
      (hp : pairing = false) : Told ((startOutbound blake3 d pairing reply.isSome).run w).2.state d ∨
        B.unreported d := by
    by_cases hu : B.unreported d
    · exact Or.inr hu
    · refine Or.inl ((hstarted.told hp hu).resolve_right ?_)
      rintro ⟨-, e, he⟩
      exact hne e (hr.symm.trans he)
  refine run_of_triple ?_
  mvcgen [spawnOutbound]
  case vc1.h_1 v heq s hr =>
    subst heq
    obtain ⟨hp, hconn, hs⟩ := hstarted.session s hr
    exact ⟨_, .moved hstarted.along.moves, .answered (by exact ⟨hp, rfl, hs⟩)
      (fun _ => Or.inl hconn.settled) (htold _ hr fun _ he => by cases he) _,
      hstarted.along.looks⟩
  case vc2.h_2 v heq hr =>
    subst heq
    have hnone := htold _ hr fun _ he => by cases he
    obtain ⟨record, hrecord, hc, rfl, hroom⟩ := hstarted.waits hr
    have hone : reply.toList.length ≤ 1 := by cases reply <;> simp
    exact ⟨_, .moved hstarted.along.moves, .waits hrecord hc (by omega) hnone,
      hstarted.along.looks⟩
  case vc3.h_3 v heq e hr =>
    subst heq
    obtain ⟨he, hout⟩ := hstarted.fails e hr
    have hlast := hstarted.along.acted
    refine hlast.notDialled (fun hp hblocks => ?_) (fun hp hu => ?_) he _
    · obtain ⟨record, hrecord, hblocks⟩ := hblocks
      rw [hstarted.along.evolved.outbound, hout] at hrecord
      exact (hb hp ⟨record, hrecord, hblocks⟩).imp_left (hlast.moves.keep Move.settled)
    · exact (hstarted.told hp hu).imp (·.evolved hstarted.along.evolved)
        (·.1.evolved hstarted.along.evolved)

@[spec] theorem spawnOutbound_run (d : DeviceId) (pairing : Bool) (reply : Option OutboundReply)
    {Q : Post Daemon TaskStep Unit} :
    ⦃fun w => Q.1 ((spawnOutbound blake3 d pairing reply).run w).1
      ((spawnOutbound blake3 d pairing reply).run w).2⦄
    spawnOutbound blake3 d pairing reply ⦃Q⦄ :=
  run_spec _

/-! ### Finishing a dial -/

/-- What a dial gives: a candidate of its device that fits its purpose, or an error. -/
structure Dialled (d : DeviceId) (pairing : Bool) (result : OperationResult ConnectionCandidate) :
    Prop where
  authorized : ∀ c, result = .ok (.authorized c) → pairing = false ∧ c.remoteDeviceId = d
  pending : ∀ p, result = .ok (.pending p) → pairing = true ∧ p.remoteDeviceId = d
  fails : ∀ e, result = .error e → e ∉ invariantFailures

/-- What registering it leads to. -/
structure DialRegistered (blake3 : Blake3) (B : Bounds) (hand : Hand)
    (w₀ : World Daemon TaskStep) (d : DeviceId) (pairing : Bool) (r : OperationResult DialResult)
    (w : World Daemon TaskStep) : Prop where
  along : Along blake3 B hand w₀ w
  answers : Answers w.state d pairing r
  connected : pairing = false → ∀ result, r = .ok result → Connected w.state d

theorem Answers.evolved {σ σ' : Daemon} {r : OperationResult DialResult}
    (h : Answers σ d pairing r) (he : Evolved σ σ') : Answers σ' d pairing r := by
  obtain ⟨tasks, shared, rfl⟩ := he.owned
  exact h

theorem dialRegistered_pending {r : OperationResult PairingAttemptId}
    (h : Along blake3 B hand w₀ w ∧ (∀ a, r = .ok a → PendingOf w.state d a) ∧
      ∀ e, r = .error e → e ∉ invariantFailures) :
    DialRegistered blake3 B hand w₀ d true (r.map DialResult.pairing) w := by
  obtain ⟨halong, hok, herr⟩ := h
  refine ⟨halong, ?_, fun heq => by cases heq⟩
  cases r with
  | ok a => exact ⟨rfl, hok a rfl⟩
  | error e => exact herr e rfl

theorem Registration.dialRegistered {c : Authorized} {r : OperationResult SessionId}
    (h : Registration blake3 B hand w₀ c .outbound r w) :
    DialRegistered blake3 B hand w₀ c.remoteDeviceId false
      (r.map (DialResult.session c.remoteDeviceId)) w := by
  refine ⟨h.along rfl, ?_, fun _ result heq => ?_⟩
  · cases r with
    | ok s => exact ⟨rfl, rfl, (h.registered s rfl).2⟩
    | error e => exact h.fails e rfl
  · cases r with
    | ok s => exact (h.registered s rfl).1
    | error e => cases heq

theorem registerDialled_spec (h : Along blake3 B hand w₀ w)
    {result : OperationResult ConnectionCandidate} (hd : Dialled d pairing result)
    (hl : ∀ candidate, result = .ok candidate → d = w.state.deviceId → B.itself) :
    ∀ r w', (registerDialled blake3 d pairing result).run w = (r, w') →
      DialRegistered blake3 B hand w₀ d pairing r w' := by
  refine run_of_triple ?_
  mvcgen [registerDialled]
  case vc1.h_1 pending hp hr v heq =>
    subst heq hp hr
    obtain ⟨-, rfl⟩ := hd.pending pending rfl
    exact dialRegistered_pending (registerPending_spec h (hl _ rfl) _ _ rfl)
  case vc2.h_2 c hp hr v heq =>
    subst heq hp hr
    obtain ⟨-, rfl⟩ := hd.authorized c rfl
    exact (registerSession_spec h (fun ho _ => by cases ho) (hl _ rfl) _ _ rfl).1.dialRegistered
  case vc3.h_3 candidate pairs hpending hauthorized hp hr v heq =>
    subst heq hp hr
    exfalso
    cases candidate with
    | authorized c => exact hauthorized c (hd.authorized c rfl).1 rfl
    | pending p => exact hpending p (hd.pending p rfl).1 rfl
  case vc4.h_4 e pairs hp hr v heq =>
    subst heq hp hr
    exact ⟨h, hd.fails e rfl, fun _ _ heq => by cases heq⟩

@[spec] theorem registerDialled_run (d : DeviceId) (pairing : Bool)
    (result : OperationResult ConnectionCandidate)
    {Q : Post Daemon TaskStep (OperationResult DialResult)} :
    ⦃fun w => Q.1 ((registerDialled blake3 d pairing result).run w).1
      ((registerDialled blake3 d pairing result).run w).2⦄
    registerDialled blake3 d pairing result ⦃Q⦄ :=
  run_spec _

theorem DialRegistered.acted {r : OperationResult DialResult}
    (h : DialRegistered blake3 B hand w₀ d pairing r w) :
    DialRegistered blake3 B hand w₀ d pairing r (w.acted (taskStep blake3)) where
  along := h.along.acted
  answers := h.answers.evolved h.along.evolved
  connected hp result hr := by
    unfold Connected
    rw [h.along.evolved.connectivity]
    exact h.connected hp result hr

/-- What is known of a dial once its failure is noted. -/
structure Noted (B : Bounds) (σ : Daemon) (d : DeviceId) (pairing : Bool)
    (r : OperationResult DialResult) : Prop where
  answers : Answers σ d pairing r
  settled : pairing = false → Settled σ d
  told : pairing = false → Told σ d ∨ B.unreported d

theorem Noted.evolved {σ σ' : Daemon} {r : OperationResult DialResult} (h : Noted B σ d pairing r)
    (he : Evolved σ σ') : Noted B σ' d pairing r where
  answers := h.answers.evolved he
  settled hp := (h.settled hp).evolved he
  told hp := (h.told hp).imp_left (·.evolved he)

theorem DialRegistered.noted {r : OperationResult DialResult}
    (h : DialRegistered blake3 B (.dial d pairing waiting) w₀ d pairing r w)
    (ht : pairing = false → Told w.state d ∨ B.unreported d) {σ : Daemon}
    (hσ : σ = if !pairing && (w.state.canonicalSession d).isNone then w.state.dialFailed d r
      else w.state) :
    Along blake3 B (.dial d pairing waiting) w₀ ⟨σ, w.script⟩ ∧ Noted B σ d pairing r := by
  subst hσ
  split_ifs with hlost
  · simp only [Bool.and_eq_true, Bool.not_eq_true', Option.isNone_iff_eq_none] at hlost
    obtain ⟨rfl, hclosed⟩ := hlost
    cases r with
    | ok result =>
      exact ⟨h.along, h.answers, fun hp => (h.connected hp result rfl).settled, ht⟩
    | error e =>
      have hsettled := settled_connectivityFailed w.state d (failureCategory e.code)
      have htold := told_changePeer w.state d fun peer =>
        peer.failed (failureCategory e.code) w.state.shared.clock w.state.sample
      exact ⟨h.along.move (.fail hclosed _ waiting), h.answers, fun _ => hsettled,
        fun _ => Or.inl htold⟩
  · refine ⟨h.along, h.answers, fun hp => ?_, ht⟩
    subst hp
    cases hs : w.state.canonicalSession d with
    | some s => exact (h.along.sound.connected_of_canonical hs).1.settled
    | none => exact absurd (by rw [hs]; rfl) hlost

theorem Answers.canonical {σ : Daemon} {r : OperationResult DialResult}
    (h : Answers σ d pairing r) (hs : Sound σ) :
    Answers σ d pairing (match if pairing then none else σ.canonicalSession d with
      | some id => .ok (.session d id)
      | none => r) := by
  cases pairing with
  | true => exact h
  | false =>
    cases hc : σ.canonicalSession d with
    | some s => simpa [hc] using ⟨rfl, rfl, (hs.connected_of_canonical hc).2⟩
    | none => simpa [hc] using h

/-- **Finishing a dial.** -/
theorem finishDial_spec {record : OutboundRecord}
    (h : Along blake3 B (.dial d record.pairing record.replies) w₀ w)
    {result : OperationResult ConnectionCandidate} (hd : Dialled d record.pairing result)
    (hl : ∀ candidate, result = .ok candidate → d = w.state.deviceId → B.itself)
    (ht : record.pairing = false → Told w.state d ∨ B.unreported d) :
    ∀ r w', (finishDial blake3 d record result).run w = (r, w') →
      Finished blake3 B (.dial d record.pairing record.replies) w₀ w' := by
  -- Nothing that registers a connection leaves a change of a peer unreported.
  have hquiet : DialRegistered blake3 B .none w d record.pairing
      ((registerDialled blake3 d record.pairing result).run w).1
      ((registerDialled blake3 d record.pairing result).run w).2 :=
    registerDialled_spec (.refl h.sound h.allowed) hd hl _ _ rfl
  have htold (hp : record.pairing = false) :
      Told ((registerDialled blake3 d record.pairing result).run w).2.state d ∨ B.unreported d :=
    (ht hp).imp_left (hquiet.along.moves.keep fun hm => hm.told nofun)
  have hregistered : DialRegistered blake3 B (.dial d record.pairing record.replies) w₀ d
      record.pairing _ _ := ⟨h.lift hquiet.along, hquiet.answers, hquiet.connected⟩
  obtain ⟨halong, hnoted⟩ := hregistered.acted.noted
    (fun hp => (htold hp).imp_left (·.evolved hregistered.along.evolved)) rfl
  refine run_of_triple ?_
  mvcgen [finishDial]
  case vc1 v heq answer =>
    subst heq
    have hlast := hnoted.evolved halong.evolved
    exact ⟨_, .moved halong.acted.moves, .answered (hlast.answers.canonical halong.acted.sound)
      (fun hp => Or.inl (hlast.settled hp)) hlast.told _, halong.acted.looks⟩

theorem finishDial_outbound {record : OutboundRecord} (hs : Sound w.state)
    (hallowed : w.Allowed B.acts)
    {result : OperationResult ConnectionCandidate} (hd : Dialled d record.pairing result)
    (hl : ∀ candidate, result = .ok candidate → d = w.state.deviceId → B.itself) :
    ∀ r w', (finishDial blake3 d record result).run w = (r, w') →
      w'.state.outbound = w.state.outbound := by
  have hquiet : DialRegistered blake3 B .none w d record.pairing
      ((registerDialled blake3 d record.pairing result).run w).1
      ((registerDialled blake3 d record.pairing result).run w).2 :=
    registerDialled_spec (.refl hs hallowed) hd hl _ _ rfl
  have hframe (σ : Daemon) (r : OperationResult DialResult) (lost : Bool) :
      (if lost then σ.dialFailed d r else σ).outbound = σ.outbound := by
    cases lost with
    | false => rfl
    | true => cases r <;> rfl
  have hacted (v : World Daemon TaskStep) (hv : v.Allowed B.acts) :
      (v.acted (taskStep blake3)).state.outbound = v.state.outbound := by
    have hev : Evolves (taskStep blake3) _ _ _ := hv.evolves
    exact (evolves_spec hev).outbound
  refine run_of_triple ?_
  mvcgen [finishDial]
  case vc1 v heq answer =>
    subst heq
    refine Eq.trans (hacted ⟨_, _⟩ ?_) ((hframe _ _ _).trans
      ((hacted _ hquiet.along.allowed).trans hquiet.along.moves.outbound_eq))
    exact hquiet.along.acted.allowed

@[spec] theorem finishDial_run (d : DeviceId) (record : OutboundRecord)
    (result : OperationResult ConnectionCandidate)
    {Q : Post Daemon TaskStep Unit} :
    ⦃fun w => Q.1 ((finishDial blake3 d record result).run w).1
      ((finishDial blake3 d record result).run w).2⦄
    finishDial blake3 d record result ⦃Q⦄ :=
  run_spec _

end Rift.Daemon
