import Rift.Daemon.Commits
import Rift.Daemon.Connections
import Rift.Daemon.Restart
import Rift.Trust.Recovery

/-! # The managed peers are the trusted ones

A peer becomes trusted by the commit of its pairing, inside a task, and managed once the supervisor has
joined that task. In between the accepted pairing holds a place for it. What goes wrong is a pairing
that ends otherwise after its commit: it fails, is cancelled, or its connection is closed when the
supervisor looks. Its peer then stays trusted and is not managed.

The main definition is `Covered`, the main results `managed_peers_are_trusted` and
`failed_pairing_is_not_managed`. -/

namespace Rift.Daemon

open Rift.Lib Rift.Lib.Interference Rift.Core Rift.Ipc Rift.Session Std
open Rift.Trust hiding Event

variable {blake3 : Blake3} {B : Bounds} {hand hand' : Hand} {σ σ' : Daemon}
  {d localId : DeviceId}

/-! ### The managed peers -/

theorem mem_changePeer (σ : Daemon) (d' : DeviceId) (f : Peer → Peer) :
    d ∈ (σ.changePeer d' f).connectivity.peers ↔ d ∈ σ.connectivity.peers :=
  ExtTreeMap.mem_modify

theorem Move.mem_peers (hm : Move blake3 B hand σ σ') :
    (d ∈ σ.connectivity.peers → d ∈ σ'.connectivity.peers) ∧
      (d ∈ σ'.connectivity.peers → d ∈ σ.connectivity.peers ∨
        σ.shared.store.state d = some .trusted ∧ (d = σ.deviceId → B.itself)) := by
  have hsame (h : d ∈ σ'.connectivity.peers ↔ d ∈ σ.connectivity.peers) :
      (d ∈ σ.connectivity.peers → d ∈ σ'.connectivity.peers) ∧
        (d ∈ σ'.connectivity.peers → d ∈ σ.connectivity.peers ∨
          σ.shared.store.state d = some .trusted ∧ (d = σ.deviceId → B.itself)) :=
    ⟨h.mpr, fun hmem => Or.inl (h.mp hmem)⟩
  cases hm with
  | act _ hs =>
    refine hsame ?_
    rw [(taskStep_spec σ _).evolved.connectivity]
  | @manage _ _ _ d' hi ht hl =>
    rcases insertPeer_eq_some hi with ⟨rfl, -⟩ | ⟨rfl, -, -⟩
    · exact ⟨fun hmem => hmem, Or.inl⟩
    · refine ⟨fun hmem => ExtTreeMap.mem_insert.mpr (Or.inr hmem), fun hmem => ?_⟩
      rcases ExtTreeMap.mem_insert.mp hmem with heq | hmem
      · obtain rfl := LawfulEqOrd.eq_of_compare heq
        exact Or.inr ⟨ht, hl⟩
      · exact Or.inl hmem
  | resume | coalesce => exact hsame ExtTreeMap.mem_modify
  | resolved | fail | dial => exact hsame (mem_changePeer ..)
  | openSession => exact hsame ((mem_changePeer ..).trans (mem_retireExisting ..))
  | hint | close | drop | pend | commitFails => exact hsame Iff.rfl

theorem Opening.mem_peers {s : Step} (ho : Opening σ s hand σ') :
    d ∈ σ'.connectivity.peers ↔ d ∈ σ.connectivity.peers := by
  cases ho with
  | sessionJoined => exact mem_changePeer ..
  | due htake =>
    obtain ⟨-, hpeers⟩ := Scheduler.takeDue_eq_some htake
    rw [show ({ σ with connectivity := _ } : Daemon).connectivity.peers = _ from hpeers]
    exact ExtTreeMap.mem_modify
  | idle | accepted | command | workerJoined | clientJoined | staleJoined | cancelledJoined
  | dialJoined | pairingJoined => exact Iff.rfl

theorem mem_invalidatePeer (reason : SessionCloseReason) {d' : DeviceId} :
    d ∈ (σ.invalidatePeer d' reason).connectivity.peers ↔ d ∈ σ.connectivity.peers ∧ d' ≠ d := by
  simp only [Map.mem_iff_exists, Sound.invalidatePeer_peers reason, exists_and_right]

/-! ### Whose identities the tasks have authenticated -/

/-- The step authenticates another identity than the given one, if any. -/
def TaskStep.Elsewhere (localId : DeviceId) : TaskStep → Prop
  | .task _ event => event.authenticates ≠ some localId
  | _ => True

/-- Neither a managed peer nor a task is about this device itself. -/
structure Foreign (localId : DeviceId) (σ : Daemon) : Prop where
  deviceId : σ.deviceId = localId
  peers : localId ∉ σ.connectivity.peers
  tasks : ∀ (id : ℕ) (t : Task), σ.tasks[id]? = some t → t.identity ≠ some localId

namespace Foreign

theorem mono (h : Foreign localId σ) (hd : σ'.deviceId = σ.deviceId)
    (hp : localId ∈ σ'.connectivity.peers → localId ∈ σ.connectivity.peers)
    (ht : ∀ (id : ℕ) (t : Task), σ'.tasks[id]? = some t → t.identity = some localId →
      ∃ (id' : ℕ) (u : Task), σ.tasks[id']? = some u ∧ u.identity = some localId) :
    Foreign localId σ' where
  deviceId := hd.trans h.deviceId
  peers hmem := h.peers (hp hmem)
  tasks id t hid hself := by
    obtain ⟨id', u, hu, hself'⟩ := ht id t hid hself
    exact h.tasks id' u hu hself'

theorem spawn (h : Foreign localId σ) (task : Task) (hi : task.identity ≠ some localId)
    (hd : σ'.deviceId = σ.deviceId)
    (hp : localId ∈ σ'.connectivity.peers → localId ∈ σ.connectivity.peers)
    (ht : σ'.tasks = σ.tasks.insert σ.nextTask task) : Foreign localId σ' := by
  refine h.mono hd hp fun id t hid hself => ?_
  rw [ht] at hid
  rcases Map.insert_eq_some.mp hid with ⟨-, rfl⟩ | ⟨-, hid⟩
  · exact absurd hself hi
  · exact ⟨id, t, hid, hself⟩

theorem erase (h : Foreign localId σ) {id : ℕ} (hd : σ'.deviceId = σ.deviceId)
    (hp : localId ∈ σ'.connectivity.peers → localId ∈ σ.connectivity.peers)
    (ht : σ'.tasks = σ.tasks.erase id) : Foreign localId σ' := by
  refine h.mono hd hp fun id' t hid hself => ?_
  rw [ht] at hid
  exact ⟨id', t, (Map.erase_eq_some.mp hid).2, hself⟩

theorem receive (h : Foreign localId σ) (attempts : List PairingAttemptId) (command : PairingCommand)
    (hd : σ'.deviceId = σ.deviceId)
    (hp : localId ∈ σ'.connectivity.peers → localId ∈ σ.connectivity.peers)
    (ht : σ'.tasks = σ.tasks.map fun _ task => task.receive attempts command) :
    Foreign localId σ' := by
  refine h.mono hd hp fun id t hid hself => ?_
  rw [ht] at hid
  obtain ⟨u, hu, rfl⟩ := Map.map_eq_some.mp hid
  refine ⟨id, u, hu, ?_⟩
  rw [← hself]
  cases u <;> rfl

theorem acted {s : TaskStep} (h : Foreign localId σ) (hk : Keyed σ.shared.store.decisions)
    (hs : s.Elsewhere localId) (ha : Acted blake3 σ s σ') : Foreign localId σ' := by
  cases ha with
  | outside => exact h.mono rfl id fun id t hid hself => ⟨id, t, hid, hself⟩
  | @task id event t t' sh' ht hstep =>
    refine h.mono rfl (fun hmem => hmem) fun id' u hu hself => ?_
    rcases Map.insert_eq_some.mp hu with ⟨-, rfl⟩ | ⟨-, hu⟩
    · exact ⟨id, t, ht, (hstep.identity hk hself).resolve_right hs⟩
    · exact ⟨id', u, hu, hself⟩

theorem evolves {P : TaskStep → Prop} (h : Foreign localId σ) (hp : Prepared σ)
    (hP : ∀ s, P s → s.Elsewhere localId) (he : Evolves (taskStep blake3) P σ σ') :
    Foreign localId σ' :=
  (he.stable (I := fun σ => Prepared σ ∧ Foreign localId σ) (fun σ s hs h =>
    ⟨h.1.acted (taskStep_spec σ s), h.2.acted h.1.keyed (hP s hs) (taskStep_spec σ s)⟩) ⟨hp, h⟩).2

end Foreign

theorem Move.foreign (hm : Move blake3 B hand σ σ') (hacts : ∀ s, B.acts s → s.Elsewhere localId)
    (hitself : ¬ B.itself) (hs : Sound σ) (h : Foreign localId σ) : Foreign localId σ' := by
  have hpeers : localId ∈ σ'.connectivity.peers → localId ∈ σ.connectivity.peers := fun hmem =>
    (hm.mem_peers.2 hmem).resolve_right fun hself => hitself (hself.2 h.deviceId.symm)
  have hsame (id : ℕ) (t : Task) (hid : σ.tasks[id]? = some t) (hself : t.identity = some localId) :
      ∃ (id' : ℕ) (u : Task), σ.tasks[id']? = some u ∧ u.identity = some localId :=
    ⟨id, t, hid, hself⟩
  cases hm with
  | act _ hb => exact h.acted hs.keyed (hacts _ hb) (taskStep_spec _ _)
  | manage hi =>
    obtain ⟨-, peers, rfl⟩ := mem_of_insertPeer hi
    exact h.mono rfl hpeers hsame
  | dial => exact h.spawn (.outbound _ _ _ .connecting) nofun rfl hpeers rfl
  | @pend _ _ pending _ _ hl =>
    refine h.spawn (.pairing _ pending [] .waiting) (fun hself => ?_) rfl hpeers rfl
    exact hitself (hl ((Option.some.inj hself).trans h.deviceId.symm))
  | @openSession _ _ existing connection _ _ hp =>
    have hself : (Task.session σ.nextSessionId connection none).identity ≠ some localId := by
      intro hself
      rw [Option.some.inj hself] at hp
      exact h.peers hp
    rcases existing with _ | ⟨s, r, closed⟩ <;> exact h.spawn (.session ..) hself rfl hpeers rfl
  | hint | close | drop | resume | resolved | fail | coalesce | commitFails =>
    exact h.mono rfl hpeers hsame

theorem Opening.foreign {s : Step} (ho : Opening σ s hand σ') (h : Foreign localId σ) :
    Foreign localId σ' := by
  have hpeers : localId ∈ σ'.connectivity.peers → localId ∈ σ.connectivity.peers := ho.mem_peers.mp
  cases ho with
  | accepted => exact h.spawn (.ipcClient false) nofun rfl hpeers rfl
  | workerJoined | clientJoined | staleJoined | cancelledJoined | dialJoined | pairingJoined
  | sessionJoined => exact h.erase rfl hpeers rfl
  | idle | command | due => exact h.mono rfl hpeers fun id t hid hself => ⟨id, t, hid, hself⟩

theorem Answering.foreign (ha : Answering blake3 B σ σ')
    (hacts : ∀ s, B.acts s → s.Elsewhere localId) (hs : Sound σ) (h : Foreign localId σ) :
    Foreign localId σ' := by
  cases ha with
  | yield => exact h.mono rfl id fun id t hid hself => ⟨id, t, hid, hself⟩
  | disconnect =>
    exact h.mono rfl (mem_changePeer ..).mp fun id t hid hself => ⟨id, t, hid, hself⟩
  | @invalidate τ m io hm hok he reason _ =>
    have hwithdrawn : Foreign localId (σ.setStore (commit blake3 σ.shared.store m none io).2) :=
      h.mono rfl (fun hmem => hmem) fun id t hid hself => ⟨id, t, hid, hself⟩
    obtain ⟨hbound, hgen⟩ := hs.bounded.commit blake3 m none io
    have hprep : Prepared (σ.setStore (commit blake3 σ.shared.store m none io).2) := by
      refine ⟨hs.keyed.commit _ _ _, hbound, ?_⟩
      refine hs.tasked.mono (fun d => ?_) (fun _ _ hs => hs) fun _ r hr => ⟨r, hr, rfl, rfl⟩
      exact (hgen d).symm ▸ Nat.le_add_right _ _
    have hτ : Foreign localId τ := hwithdrawn.evolves hprep hacts he
    exact hτ.receive _ _ rfl (fun hmem => ((mem_invalidatePeer reason).mp hmem).1) rfl

theorem Closing.foreign (hc : Closing blake3 B hand σ σ')
    (hacts : ∀ s, B.acts s → s.Elsewhere localId) (hs : Sound σ) (h : Foreign localId σ) :
    Foreign localId σ' := by
  have hnoted (a : PairingAttemptId) (record : PendingRecord) :
      Foreign localId (σ.setPending a record) :=
    h.mono rfl (fun hmem => hmem) fun id t hid hself => ⟨id, t, hid, hself⟩
  cases hc with
  | respawned => exact h.spawn (.incoming .connecting) nofun rfl id rfl
  | delivered _ _ _ he =>
    exact ((hnoted _ _).evolves (hs.setPending _ _).prepared hacts he).receive _ _ rfl id rfl
  | abandoned _ _ he =>
    have hτ := (hnoted _ _).evolves (hs.setPending _ _).prepared hacts he
    exact hτ.mono rfl (fun hmem => hmem) fun id t hid hself => ⟨id, t, hid, hself⟩
  | @resolved _ _ registered _ _ reply _ =>
    unfold resolvePairing
    cases registered <;> cases reply <;>
      exact h.mono rfl (fun hmem => hmem) fun id t hid hself => ⟨id, t, hid, hself⟩
  | none | request | answered | waits | refused =>
    exact h.mono rfl (fun hmem => hmem) fun id t hid hself => ⟨id, t, hid, hself⟩

/-! ### Places -/

/-- The pairing that is in hand still has a place for its device, unless it may lapse. -/
def Hand.Holds (lapses : DeviceId → Prop) : Hand → DeviceId → Prop
  | .attempt _ d true _, d' => d = d' ∧ ¬ lapses d
  | _, _ => False

/-- There is a place for the device. -/
def Reserved (lapses : DeviceId → Prop) (hand : Hand) (σ : Daemon) (d : DeviceId) : Prop :=
  d ∈ σ.connectivity.peers ∨ Accepted σ.pendingPairings d ∨ hand.Holds lapses d

/-- **Every trusted peer has a place, there are not more places than can be managed**, and the trusted
peers that the journal may give are not more either. -/
structure Covered (blake3 : Blake3) (localId : DeviceId)
    (lapses : DeviceId → Prop) (hand : Hand) (σ : Daemon) : Prop where
  trusted : ∀ d, σ.shared.store.state d = some .trusted → d ≠ localId → Reserved lapses hand σ d
  room : ∀ devices : Finset DeviceId, (∀ d ∈ devices, Reserved lapses hand σ d) →
    devices.card ≤ maxManagedPeers
  lasting : Lasting blake3 (Affordable localId) σ.shared.store

namespace Covered

variable {lapses : DeviceId → Prop}

theorem mono (h : Covered blake3 localId lapses hand σ)
    (hstate : ∀ d, σ'.shared.store.state d = some .trusted → σ.shared.store.state d = some .trusted)
    (hres : ∀ d, Reserved lapses hand' σ' d → Reserved lapses hand σ d)
    (hkept : ∀ d, σ'.shared.store.state d = some .trusted → Reserved lapses hand σ d →
      Reserved lapses hand' σ' d)
    (hlast : Lasting blake3 (Affordable localId) σ'.shared.store) :
    Covered blake3 localId lapses hand' σ' where
  trusted d ht hd := hkept d ht (h.trusted d (hstate d ht) hd)
  room devices hall := h.room devices fun d hmem => hres d (hall d hmem)
  lasting := hlast

theorem congr (h : Covered blake3 localId lapses hand σ)
    (hstore : σ'.shared.store = σ.shared.store)
    (hpeers : ∀ d, d ∈ σ'.connectivity.peers ↔ d ∈ σ.connectivity.peers)
    (hpairings : σ'.pendingPairings = σ.pendingPairings)
    (hhand : ∀ d, hand'.Holds lapses d ↔ hand.Holds lapses d) :
    Covered blake3 localId lapses hand' σ' := by
  have hsame (d : DeviceId) : Reserved lapses hand' σ' d ↔ Reserved lapses hand σ d := by
    unfold Reserved
    rw [hpeers, hpairings, hhand]
  refine h.mono (fun d ht => ?_) (fun d => (hsame d).mp) (fun d _ => (hsame d).mpr) ?_
  · rw [← hstore]
    exact ht
  · rw [hstore]
    exact h.lasting

theorem affordable (h : Covered blake3 localId lapses hand σ) :
    Affordable localId σ.shared.store.decisions := by
  refine fun devices hall => h.room devices fun d hmem => ?_
  obtain ⟨hne, hpeer⟩ := hall d hmem
  exact h.trusted d (state_eq_trusted_iff.mpr hpeer) hne

theorem affordable_trust (h : Covered blake3 localId lapses hand σ) {peer : TrustedPeer}
    (hr : Reserved lapses hand σ peer.deviceId) :
    Affordable localId (applyMutation σ.shared.store.decisions (.trust peer)) := by
  refine fun devices hall => h.room devices fun d hmem => ?_
  obtain ⟨hne, p, hp⟩ := hall d hmem
  rcases Map.insert_eq_some.mp hp with ⟨rfl, -⟩ | ⟨-, hp⟩
  · exact hr
  · exact h.trusted d (state_eq_trusted_iff.mpr ⟨p, hp⟩) hne

/-- **The tasks** commit no trust but in a peer that has a place. -/
theorem acted {out : DeviceId → Prop} {s : TaskStep} (h : Covered blake3 localId lapses hand σ)
    (hf : Fitting out σ) (ha : Acted blake3 σ s σ') : Covered blake3 localId lapses hand σ' := by
  have hev := ha.evolved
  have hsame (d : DeviceId) : Reserved lapses hand σ' d ↔ Reserved lapses hand σ d := by
    unfold Reserved
    rw [hev.connectivity, hev.pendingPairings]
  refine ⟨fun d ht hd => (hsame d).mpr ?_,
    fun devices hall => h.room devices fun d hmem => (hsame d).mp (hall d hmem), ?_⟩
  · rcases hf.trusted_acted ha ht with ht | ⟨-, haccepted⟩
    · exact h.trusted d ht hd
    · exact Or.inr (Or.inl haccepted)
  · rcases ha.store with hstore | ⟨id, a, pending, commands, reply, io, hid, hstore⟩
    · rw [hstore]
      exact h.lasting
    · rw [hstore]
      refine h.lasting.commit h.affordable (fun record hc => h.affordable_trust ?_) io
      exact Or.inr (Or.inl (hf.grants hid hc).2)

theorem evolves {out : DeviceId → Prop} {P : TaskStep → Prop}
    (h : Covered blake3 localId lapses hand σ) (hf : Fitting out σ)
    (he : Evolves (taskStep blake3) P σ σ') : Covered blake3 localId lapses hand σ' :=
  (he.stable (I := fun σ => Fitting out σ ∧ Covered blake3 localId lapses hand σ) (fun σ s _ h =>
    ⟨h.1.acted (taskStep_spec σ s), h.2.acted h.1 (taskStep_spec σ s)⟩) ⟨hf, h⟩).2

end Covered

/-! ### Moves, answers, openings and closings -/

theorem trusted_of_applyMutation {decisions : Decisions} {m : TrustMutation}
    (hm : ∀ peer, m ≠ .trust peer) {peer : TrustedPeer}
    (h : (applyMutation decisions m)[d]? = some (.trusted peer)) :
    decisions[d]? = some (.trusted peer) ∧ m.deviceId ≠ d := by
  cases m with
  | trust p => exact absurd rfl (hm p)
  | revoke d' =>
    rcases Map.insert_eq_some.mp h with ⟨-, heq⟩ | ⟨hne, h⟩
    · cases heq
    · exact ⟨h, hne⟩
  | forget d' =>
    obtain ⟨hne, h⟩ := Map.erase_eq_some.mp h
    exact ⟨h, hne⟩

section Places

variable {lapses : DeviceId → Prop}

theorem Covered.lasting_commit (h : Covered blake3 localId lapses hand σ) {m : TrustMutation}
    (hm : ∀ peer, m ≠ .trust peer) (io : IoOutcome) :
    Lasting blake3 (Affordable localId) (commit blake3 σ.shared.store m none io).2 :=
  h.lasting.commit h.affordable
    (fun _ _ => h.affordable.mono fun _ _ hd => (trusted_of_applyMutation hm hd).1) io

theorem Move.covered (hm : Move blake3 B hand σ σ') (hitself : ¬ B.itself) (hat : Attempted σ)
    (hf : Fitting nobody σ) (hforeign : Foreign localId σ)
    (h : Covered blake3 localId lapses hand σ) : Covered blake3 localId lapses hand σ' := by
  have hpeers (d : DeviceId) := hm.mem_peers (d := d)
  cases hm with
  | act => exact h.acted hf (taskStep_spec _ _)
  | @manage _ _ _ d hi ht hl =>
    obtain ⟨-, peers, rfl⟩ := mem_of_insertPeer hi
    refine h.mono (fun _ ht => ht) (fun d' hr => ?_) (fun d' _ hr => ?_) h.lasting
    · rcases hr with hmem | hr
      · rcases (hpeers d').2 hmem with hmem | ⟨htrusted, hself⟩
        · exact Or.inl hmem
        · exact h.trusted d' htrusted fun heq => hitself (hself (heq.trans hforeign.deviceId.symm))
      · exact Or.inr hr
    · exact hr.imp_left (hpeers d').1
  | @pend _ _ pending _ _ _ _ _ origin =>
    have hold {a : PairingAttemptId} {record : PendingRecord}
        (hr : σ.pendingPairings[a]? = some record) : σ.nextPairingId ≠ a := by
      obtain ⟨id, t, p, hid, hk, -⟩ := hat.registered a record hr
      cases t with
      | pairing =>
        cases hk
        exact (hat.queue id _ _ _ _ hid).1.ne'
      | _ => cases hk
    have hsame (d : DeviceId) :
        Accepted (σ.addPending pending origin).pendingPairings d ↔ Accepted σ.pendingPairings d := by
      constructor
      · rintro ⟨a, record, hr, hd, haccepted⟩
        rcases Map.insert_eq_some.mp hr with ⟨-, rfl⟩ | ⟨-, hr⟩
        · cases haccepted
        · exact ⟨a, record, hr, hd, haccepted⟩
      · rintro ⟨a, record, hr, hd, haccepted⟩
        exact ⟨a, record, (Map.insert_ne (hold hr)).trans hr, hd, haccepted⟩
    exact h.mono (fun _ ht => ht) (fun d hr => hr.imp_right (Or.imp_left (hsame d).mp))
      (fun d _ hr => hr.imp_right (Or.imp_left (hsame d).mpr)) h.lasting
  | @commitFails _ m io _ hm he reply =>
    obtain ⟨hd, -⟩ := commit_error he
    refine h.mono (fun d ht => ?_) (fun _ hr => hr) (fun _ _ hr => hr) (h.lasting_commit hm io)
    rw [← state_congr (by rw [hd])]
    exact ht
  | resume | coalesce => exact h.congr rfl (fun _ => ExtTreeMap.mem_modify) rfl fun _ => Iff.rfl
  | resolved | fail | dial => exact h.congr rfl (fun _ => mem_changePeer ..) rfl fun _ => Iff.rfl
  | @openSession _ _ existing =>
    refine h.congr ?_ (fun _ => (mem_changePeer ..).trans (mem_retireExisting existing)) ?_
      fun _ => Iff.rfl
    · rcases existing with _ | ⟨s, r, closed⟩ <;> rfl
    · rcases existing with _ | ⟨s, r, closed⟩ <;> rfl
  | hint | close | drop => exact h.congr rfl (fun _ => Iff.rfl) rfl fun _ => Iff.rfl

theorem Answering.covered (ha : Answering blake3 B σ σ') (hs : Sound σ) (hf : Fitting nobody σ)
    (h : Covered blake3 localId lapses hand σ) : Covered blake3 localId lapses hand σ' := by
  cases ha with
  | yield => exact h.congr rfl (fun _ => Iff.rfl) rfl fun _ => Iff.rfl
  | disconnect => exact h.congr rfl (fun _ => mem_changePeer ..) rfl fun _ => Iff.rfl
  | @invalidate τ m io hm hok he reason state =>
    have hstate (d : DeviceId)
        (ht : (commit blake3 σ.shared.store m none io).2.state d = some .trusted) :
        σ.shared.store.state d = some .trusted ∧ m.deviceId ≠ d := by
      obtain ⟨peer, hpeer⟩ := state_eq_trusted_iff.mp ht
      rw [(commit_ok hok).2.2.1] at hpeer
      obtain ⟨hpeer, hne⟩ := trusted_of_applyMutation hm hpeer
      exact ⟨state_eq_trusted_iff.mpr ⟨peer, hpeer⟩, hne⟩
    have hwithdrawn : Covered blake3 localId lapses hand
        (σ.setStore (commit blake3 σ.shared.store m none io).2) :=
      h.mono (fun d ht => (hstate d ht).1) (fun _ hr => hr) (fun _ _ hr => hr)
        (h.lasting_commit hm io)
    have hfits := hf.withdrawn hs hm hok
    have huntrusted : τ.shared.store.state m.deviceId ≠ some .trusted :=
      hfits.untrusted rfl (fun ht => (hstate _ ht).2 rfl) he
    have haccepted (d : DeviceId) : Accepted (τ.invalidatePeer m.deviceId reason).pendingPairings d ↔
        Accepted τ.pendingPairings d ∧ d ≠ m.deviceId := by
      constructor
      · rintro ⟨a, record, hr, rfl, hresolving⟩
        obtain ⟨hr, hne⟩ := Map.filter_eq_some.mp hr
        exact ⟨⟨a, record, hr, rfl, hresolving⟩, of_decide_eq_true hne⟩
      · rintro ⟨⟨a, record, hr, rfl, hresolving⟩, hne⟩
        exact ⟨a, record, Map.filter_eq_some.mpr ⟨hr, decide_eq_true hne⟩, rfl, hresolving⟩
    refine (hwithdrawn.evolves hfits he).mono (fun _ ht => ht) (fun d hr => ?_) (fun d ht hr => ?_)
      (hwithdrawn.evolves hfits he).lasting
    · exact hr.imp (fun hmem => ((mem_invalidatePeer reason).mp hmem).1)
        (Or.imp_left fun hacc => ((haccepted d).mp hacc).1)
    · have hne : d ≠ m.deviceId := fun heq => huntrusted (heq ▸ ht)
      exact hr.imp (fun hmem => (mem_invalidatePeer reason).mpr ⟨hmem, hne.symm⟩)
        (Or.imp_left fun hacc => (haccepted d).mpr ⟨hacc, hne⟩)

theorem Command.not_holds (command : Command) (d : DeviceId) : ¬ command.hand.Holds lapses d := by
  cases command with
  | request request => cases request <;> exact id
  | beginPairing | connectAuthenticated | sessionHandle | rememberPeer => exact id

/-- The step joins the task of the pairing. -/
def Step.Joins (σ : Daemon) (a : PairingAttemptId) (s : Step) : Prop :=
  ∃ (id : ℕ) (script : List (List TaskStep)) (pending : Pending) (commands : List PairingCommand)
    (phase : PairingTaskPhase), s = .join id script ∧
      σ.tasks[id]? = some (.pairing a pending commands phase)

/-- The device does not need the pairing that the step joins: it is not trusted, it is managed, or
another pairing with it was accepted. -/
def Spared (σ : Daemon) (s : Step) (d : DeviceId) : Prop :=
  σ.shared.store.state d ≠ some .trusted ∨ d ∈ σ.connectivity.peers ∨
    ∃ (a : PairingAttemptId) (record : PendingRecord), σ.pendingPairings[a]? = some record ∧
      record.info.deviceId = d ∧ record.resolving = some true ∧ ¬ s.Joins σ a

theorem Opening.covered {s : Step} (ho : Opening σ s hand σ')
    (hl : lapses = Spared σ s ∨ ∃ script, s = .timer script) (hf : Fitting nobody σ)
    (hforeign : Foreign localId σ) (h : Covered blake3 localId lapses .none σ) :
    Covered blake3 localId lapses hand σ' := by
  have hpeers (d : DeviceId) := ho.mem_peers (d := d)
  cases ho with
  | command command script =>
    exact h.congr rfl hpeers rfl fun d => iff_of_false (command.not_holds d) id
  | @pairingJoined id script a pending commands result reply ht =>
    obtain rfl := hl.resolve_right nofun
    have hfits := hf id a pending commands _ ht
    refine h.mono (fun _ ht => ht) (fun d hr => ?_) (fun d htrusted hr => ?_) h.lasting
    · rcases hr with hmem | ⟨b, record, hb, hd, haccepted⟩ | hholds
      · exact Or.inl hmem
      · exact Or.inr (Or.inl ⟨b, record, (Map.erase_eq_some.mp hb).2, hd, haccepted⟩)
      · cases hreg : σ.pendingPairings.contains a with
        | false =>
          rw [hreg] at hholds
          exact hholds.elim
        | true =>
          rw [hreg] at hholds
          obtain ⟨rfl, hspared⟩ := hholds
          refine h.trusted _ (not_not.mp fun hne => hspared (Or.inl hne)) fun heq => ?_
          exact hforeign.tasks id _ ht (congrArg some heq)
    · rcases hr with hmem | ⟨b, record, hb, hd, haccepted⟩ | hnone
      · exact Or.inl hmem
      · by_cases hab : a = b
        · -- The place was that of the pairing itself.
          subst hab
          have hdevice : pending.remoteDeviceId = d := (hfits.device record hb).trans hd
          have hreg : σ.pendingPairings.contains a = true :=
            ExtTreeMap.contains_iff_mem.mpr (Map.mem_iff_exists.mpr ⟨record, hb⟩)
          by_cases hspared : Spared σ (.join id script) d
          · rcases hspared with hne | hmem | ⟨b, other, hb, hd, hother, hjoins⟩
            · exact absurd htrusted hne
            · exact Or.inl hmem
            · refine Or.inr (Or.inl ⟨b, other, Map.erase_eq_some.mpr ⟨?_, hb⟩, hd, hother⟩)
              rintro rfl
              exact hjoins ⟨id, script, pending, commands, _, rfl, ht⟩
          · rw [hreg]
            exact Or.inr (Or.inr ⟨hdevice, hdevice.symm ▸ hspared⟩)
        · exact Or.inr (Or.inl ⟨b, record, Map.erase_eq_some.mpr ⟨hab, hb⟩, hd, haccepted⟩)
      · exact hnone.elim
  | idle | accepted | workerJoined | clientJoined | staleJoined | cancelledJoined | dialJoined
  | sessionJoined | due => exact h.congr rfl hpeers rfl fun _ => Iff.rfl

theorem card_le_of_accepted {devices : Finset DeviceId} {d₀ : DeviceId}
    (h : ∀ d ∈ devices, d ∈ σ.connectivity.peers ∨ Accepted σ.pendingPairings d ∨ d = d₀) :
    devices.card ≤ σ.connectivity.peers.size +
      (σ.pendingPairings.values.filter fun record => record.resolving = some true).length + 1 := by
  let accepted := (σ.pendingPairings.values.filter fun record => record.resolving = some true).map
    fun record => record.info.deviceId
  have hsub : devices ⊆ Map.keySet σ.connectivity.peers ∪ accepted.toFinset ∪ {d₀} := by
    intro d hmem
    rcases h d hmem with hpeer | ⟨a, record, hr, hd, haccepted⟩ | rfl
    · exact Finset.mem_union_left _ (Finset.mem_union_left _
        (Map.mem_keySet.mpr (Map.mem_iff_exists.mp hpeer)))
    · refine Finset.mem_union_left _ (Finset.mem_union_right _ (List.mem_toFinset.mpr ?_))
      exact List.mem_map.mpr ⟨record, List.mem_filter.mpr
        ⟨Map.mem_values.mpr ⟨a, hr⟩, decide_eq_true haccepted⟩, hd⟩
    · exact Finset.mem_union_right _ (Finset.mem_singleton_self d)
  have haccepted : accepted.toFinset.card ≤ accepted.length := List.toFinset_card_le accepted
  have hlength : accepted.length = _ := List.length_map _
  calc devices.card
      ≤ (Map.keySet σ.connectivity.peers ∪ accepted.toFinset ∪ {d₀}).card := Finset.card_le_card hsub
    _ ≤ (Map.keySet σ.connectivity.peers ∪ accepted.toFinset).card + 1 :=
        Finset.card_union_le _ _
    _ ≤ (Map.keySet σ.connectivity.peers).card + accepted.toFinset.card + 1 :=
        Nat.add_le_add_right (Finset.card_union_le _ _) 1
    _ ≤ _ := by
        rw [Map.card_keySet]
        omega

theorem Covered.setPending (h : Covered blake3 localId lapses hand σ) {a : PairingAttemptId}
    {record : PendingRecord} (ha : σ.pendingPairings[a]? = some record)
    (hr : record.resolving = none) {accepted : Bool} (hfull : accepted = true → managedFull σ = false)
    (hhand : ∀ d, ¬ hand.Holds lapses d) :
    Covered blake3 localId lapses hand (σ.setPending a { record with resolving := some accepted }) := by
  have hold {d : DeviceId} (hd : Accepted σ.pendingPairings d) : Accepted
      (σ.setPending a { record with resolving := some accepted }).pendingPairings d := by
    obtain ⟨b, other, hb, hd, hother⟩ := hd
    refine ⟨b, other, (Map.insert_ne ?_).trans hb, hd, hother⟩
    rintro rfl
    cases ha.symm.trans hb
    rw [hr] at hother
    cases hother
  have hnew {d : DeviceId} (hd : Accepted
      (σ.setPending a { record with resolving := some accepted }).pendingPairings d) :
      Accepted σ.pendingPairings d ∨ d = record.info.deviceId ∧ accepted = true := by
    obtain ⟨b, other, hb, hd, hother⟩ := hd
    rcases Map.insert_eq_some.mp hb with ⟨-, rfl⟩ | ⟨-, hb⟩
    · exact Or.inr ⟨hd.symm, Option.some.inj hother⟩
    · exact Or.inl ⟨b, other, hb, hd, hother⟩
  refine ⟨fun d ht hd => (h.trusted d ht hd).imp_right (Or.imp_left hold), fun devices hall => ?_,
    h.lasting⟩
  cases accepted with
  | false =>
    refine h.room devices fun d hmem => (hall d hmem).imp_right (Or.imp_left fun hd => ?_)
    exact (hnew hd).resolve_right fun hboth => nomatch hboth.2
  | true =>
    have hplaces (d : DeviceId) (hmem : d ∈ devices) : d ∈ σ.connectivity.peers ∨
        Accepted σ.pendingPairings d ∨ d = record.info.deviceId :=
      (hall d hmem).imp_right fun hd => (hnew (hd.resolve_right (hhand d))).imp_right And.left
    have hcard := card_le_of_accepted hplaces
    have hroom := hfull rfl
    simp only [managedFull, decide_eq_false_iff_not, Nat.not_le] at hroom
    omega

theorem Closing.covered (hc : Closing blake3 B hand σ σ') (hf : Fitting nobody σ)
    (h : Covered blake3 localId B.lapses hand σ) : Covered blake3 localId B.lapses .none σ' := by
  cases hc with
  | @delivered _ τ a record accepted ha hr hfull he hl reply =>
    have hnoted := h.setPending ha hr hfull fun _ => id
    exact (hnoted.evolves (hf.setPending ha hr accepted) he).congr rfl (fun _ => Iff.rfl) rfl
      fun _ => Iff.rfl
  | @abandoned _ τ a record accepted ha hr he hl hb reply =>
    -- The record is removed again, so that the tasks may be taken to run without it.
    have hcontains (b : PairingAttemptId) :
        (σ.setPending a { record with resolving := some accepted }).pendingPairings.contains b =
          σ.pendingPairings.contains b := by
      rw [Bool.eq_iff_iff, ExtTreeMap.contains_iff_mem, ExtTreeMap.contains_iff_mem]
      refine ExtTreeMap.mem_insert.trans ⟨fun hor => hor.elim (fun heq => ?_) id, Or.inr⟩
      rw [← Std.compare_eq_iff_eq.mp heq]
      exact Map.mem_iff_exists.mpr ⟨record, ha⟩
    obtain ⟨τ₀, hτ₀, rfl⟩ := evolves_records he hcontains
    have hcovered := h.evolves hf hτ₀
    have hsame (d : DeviceId) : Accepted ((σ.setPending a
        { record with resolving := some accepted }).pendingPairings.erase a) d ↔
        Accepted τ₀.pendingPairings d := by
      rw [(evolves_spec hτ₀).pendingPairings]
      constructor
      · rintro ⟨b, other, hb, hd, hother⟩
        obtain ⟨hne, hb⟩ := Map.erase_eq_some.mp hb
        exact ⟨b, other, (Map.insert_ne hne).symm.trans hb, hd, hother⟩
      · rintro ⟨b, other, hb, hd, hother⟩
        have hne : a ≠ b := by
          rintro rfl
          cases ha.symm.trans hb
          rw [hr] at hother
          cases hother
        exact ⟨b, other, Map.erase_eq_some.mpr ⟨hne, (Map.insert_ne hne).trans hb⟩, hd, hother⟩
    exact hcovered.mono (fun _ ht => ht) (fun d hr => hr.imp_right (Or.imp_left (hsame d).mp))
      (fun d _ hr => hr.imp_right (Or.imp_left (hsame d).mpr)) hcovered.lasting
  | @resolved _ d registered hm a reply result =>
    have hsame : (resolvePairing σ a d registered reply result).shared = σ.shared ∧
        (resolvePairing σ a d registered reply result).connectivity = σ.connectivity ∧
        (resolvePairing σ a d registered reply result).pendingPairings = σ.pendingPairings := by
      unfold resolvePairing
      cases registered <;> cases reply <;> exact ⟨rfl, rfl, rfl⟩
    obtain ⟨hshared, hconnectivity, hpairings⟩ := hsame
    refine h.mono (fun d' ht => ?_) (fun d' hr => ?_) (fun d' _ hr => ?_) (by rw [hshared]; exact h.lasting)
    · rw [← hshared]
      exact ht
    · unfold Reserved at hr ⊢
      rw [hconnectivity, hpairings] at hr
      exact hr.imp_right fun hr => Or.inl (hr.resolve_right id)
    · unfold Reserved at hr ⊢
      rw [hconnectivity, hpairings]
      rcases hr with hmem | haccepted | hholds
      · exact Or.inl hmem
      · exact Or.inr (Or.inl haccepted)
      · cases registered with
        | false => exact hholds.elim
        | true =>
          obtain ⟨rfl, hlapses⟩ := hholds
          exact Or.inl ((hm rfl).resolve_right hlapses)
  | none | respawned | request | answered | waits | refused =>
    exact h.congr rfl (fun _ => Iff.rfl) rfl fun _ => Iff.rfl

end Places

/-! ### Steps -/

/-- No task authenticates this device itself, and a registered pairing whose peer is trusted, and has no
other place, is joined with its connection, which is still open when the supervisor looks. -/
def Attended (blake3 : Blake3) (σ : Daemon) (s : Step) : Prop :=
  (∀ act ∈ s.taskSteps, act.Elsewhere σ.deviceId) ∧
    ∀ (id : ℕ) (script : List (List TaskStep)) (a : PairingAttemptId) (pending : Pending)
      (commands : List PairingCommand) (result : PairingTaskResult) (reply : Option ReplyId),
      s = .join id script →
      σ.tasks[id]? = some (.pairing a pending commands (.done result reply)) →
      a ∈ σ.pendingPairings →
      Spared σ s pending.remoteDeviceId ∨ ∃ c, result = .authorized c ∧ c.connection ∉
        (closedCheck blake3 ⟨{ σ with tasks := σ.tasks.erase id
                                      pendingPairings := σ.pendingPairings.erase a },
          script⟩).state.shared.closed

/-- What such a step keeps to. -/
def attending (σ : Daemon) (s : Step) : Bounds :=
  { unbounded with
    acts := TaskStep.Elsewhere σ.deviceId
    lapses := Spared σ s
    itself := False }

/-- All that holds of a daemon whose pairings are attended. -/
structure Kept (blake3 : Blake3) (localId : DeviceId)
    (lapses : DeviceId → Prop) (hand : Hand) (σ : Daemon) : Prop where
  regular : Regular hand σ
  fitting : Fitting nobody σ
  foreign : Foreign localId σ
  covered : Covered blake3 localId lapses hand σ

namespace Kept

variable {lapses lapses' : DeviceId → Prop} {s : Step}

theorem sound (h : Kept blake3 localId lapses hand σ) : Sound σ := h.regular.orderly.sound

theorem idle (h : Kept blake3 localId lapses .none σ) : Kept blake3 localId lapses' .none σ :=
  ⟨h.regular, h.fitting, h.foreign, h.covered.trusted, h.covered.room, h.covered.lasting⟩

theorem opening (h : Kept blake3 localId lapses .none σ) (ho : Opening σ s hand σ')
    (hl : lapses = Spared σ s ∨ ∃ script, s = .timer script) :
    Kept blake3 localId lapses hand σ' :=
  ⟨ho.regular h.regular, ho.fitting h.regular.attempted h.fitting, ho.foreign h.foreign,
    ho.covered hl h.fitting h.foreign h.covered⟩

theorem move (h : Kept blake3 localId lapses hand σ) (hm : Move blake3 B hand σ σ')
    (hacts : ∀ act, B.acts act → act.Elsewhere localId) (hitself : ¬ B.itself) :
    Kept blake3 localId lapses hand σ' :=
  ⟨hm.regular h.regular, hm.fitting h.regular.attempted h.fitting,
    hm.foreign hacts hitself h.sound h.foreign,
    hm.covered hitself h.regular.attempted h.fitting h.foreign h.covered⟩

theorem answering (h : Kept blake3 localId lapses hand σ) (ha : Answering blake3 B σ σ')
    (hacts : ∀ act, B.acts act → act.Elsewhere localId) : Kept blake3 localId lapses hand σ' :=
  ⟨ha.regular h.regular, ha.fitting h.sound h.fitting, ha.foreign hacts h.sound h.foreign,
    ha.covered h.sound h.fitting h.covered⟩

theorem closing (h : Kept blake3 localId B.lapses hand σ) (hc : Closing blake3 B hand σ σ')
    (hacts : ∀ act, B.acts act → act.Elsewhere localId) : Kept blake3 localId B.lapses .none σ' :=
  ⟨hc.regular h.regular, hc.fitting h.fitting, hc.foreign hacts h.sound h.foreign,
    hc.covered h.fitting h.covered⟩

theorem handled (h : Kept blake3 localId B.lapses .none σ) (hh : Handled blake3 B σ s σ')
    (hl : B.lapses = Spared σ s) (hacts : ∀ act, B.acts act → act.Elsewhere localId)
    (hitself : ¬ B.itself) : Kept blake3 localId B.lapses .none σ' := by
  obtain @⟨σ₁, σ₂, σ₃, _, hand, hm, hs, ho, he, hc⟩ := hh
  have hmoves {hand : Hand} {σ σ' : Daemon} (hm : Moves blake3 B hand σ σ')
      (h : Kept blake3 localId B.lapses hand σ) : Kept blake3 localId B.lapses hand σ' :=
    hm.keep (fun hm h => h.move hm hacts hitself) h
  have hopened : Kept blake3 localId B.lapses hand σ₂ := (hmoves hm h).opening ho (by
    rcases hs with rfl | htimer
    · exact Or.inl hl
    · exact Or.inr htimer)
  refine Kept.closing ?_ hc hacts
  cases he with
  | moved hm => exact hmoves hm hopened
  | answered hm ha => exact (hmoves hm hopened).answering ha hacts

theorem manageable (h : Kept blake3 localId lapses .none σ) {id : ℕ} {script : List (List TaskStep)}
    {a : PairingAttemptId} {pending : Pending} {commands : List PairingCommand} {c : Authorized}
    {reply : Option ReplyId}
    (ht : σ.tasks[id]? = some (.pairing a pending commands (.done (.authorized c) reply)))
    (ha : a ∈ σ.pendingPairings) (hspared : ¬ Spared σ (.join id script) pending.remoteDeviceId)
    (hopen : c.connection ∉ (closedCheck blake3 ⟨{ σ with
      tasks := σ.tasks.erase id, pendingPairings := σ.pendingPairings.erase a },
        script⟩).state.shared.closed) :
    Manageable blake3 ⟨{ σ with
      tasks := σ.tasks.erase id, pendingPairings := σ.pendingPairings.erase a }, script⟩
      (.authorized c) := by
  obtain rfl := h.sound.tasked.coherent id _ ht
  have htrusted : σ.shared.store.state pending.remoteDeviceId = some .trusted :=
    not_not.mp fun hne => hspared (Or.inl hne)
  have hnew : pending.remoteDeviceId ∉ σ.connectivity.peers := fun hmem =>
    hspared (Or.inr (Or.inl hmem))
  have hlocal : pending.remoteDeviceId ≠ localId := fun heq =>
    h.foreign.tasks id _ ht (congrArg some heq)
  obtain ⟨record, hrecord⟩ := Map.mem_iff_exists.mp ha
  have hgeneration := (h.fitting id a pending commands _ ht).current
    (Option.isSome_iff_exists.mpr ⟨record, hrecord⟩) fun hnobody => hnobody
  refine ⟨_, rfl, htrusted, hgeneration, hopen, insertPeer_isSome.mpr (Or.inr fun hfull => ?_)⟩
  -- The peer and the managed ones have a place each.
  have hroom := h.covered.room (insert pending.remoteDeviceId (Map.keySet σ.connectivity.peers))
    fun d hd => by
      rcases Finset.mem_insert.mp hd with rfl | hd
      · exact h.covered.trusted _ htrusted hlocal
      · exact Or.inl (Map.mem_iff_exists.mpr (Map.mem_keySet.mp hd))
  have hfresh : pending.remoteDeviceId ∉ Map.keySet σ.connectivity.peers := fun hd =>
    hnew (Map.mem_iff_exists.mpr (Map.mem_keySet.mp hd))
  rw [Finset.card_insert_of_notMem hfresh, Map.card_keySet] at hroom
  exact Nat.not_succ_le_self _ (hfull ▸ hroom)

theorem within (h : Kept blake3 localId lapses .none σ) (hs : Attended blake3 σ s) :
    Within blake3 (attending σ s) σ s where
  acts := hs.1
  timer _ _ := ⟨fun _ _ _ _ => trivial, fun _ _ _ hu => absurd trivial hu⟩
  command _ _ _ := ⟨fun _ _ _ => Or.inr trivial, fun _ _ _ hu => absurd trivial hu,
    fun _ _ _ _ _ => trivial, fun _ _ => trivial⟩
  join id script heq := by
    subst heq
    refine ⟨fun point hpoint act hact => hs.1 act (List.mem_flatten.mpr ⟨point, hpoint, hact⟩),
      fun _ _ _ _ _ => trivial, fun a pending commands result reply ht ha hnot => ?_,
      fun task g ht hcaptured => ?_, fun _ _ _ _ => Or.inr trivial⟩
    · refine not_not.mp fun hspared => hnot ?_
      obtain ⟨c, rfl, hopen⟩ :=
        (hs.2 id script a pending commands result reply rfl ht ha).resolve_left hspared
      exact h.manageable ht ha hspared hopen
    · exact h.foreign.tasks id task ht
        ((Task.identity_of_captured hcaptured).trans (congrArg some h.foreign.deviceId))

/-- **A step** that attends to the pairings keeps it. -/
theorem step (h : Kept blake3 localId lapses .none σ) (hs : Attended blake3 σ s) :
    Kept blake3 localId lapses .none (step blake3 σ s) := by
  have hkept : Kept blake3 localId (attending σ s).lapses .none σ := h.idle
  refine (hkept.handled (step_handled h.sound (h.within hs)) rfl (fun act hact => ?_) id).idle
  exact h.foreign.deviceId ▸ hact

theorem affordable (h : Kept blake3 localId lapses hand σ) :
    Affordable localId σ.shared.store.decisions :=
  h.covered.affordable

theorem managed_iff (h : Kept blake3 localId lapses .none σ) (d : DeviceId) :
    (∃ (id : ℕ), ∃ a pending commands phase,
      σ.tasks[id]? = some (.pairing a pending commands phase) ∧
        pending.remoteDeviceId = d) ∨
    (d ∈ σ.connectivity.peers ↔ σ.shared.store.state d = some .trusted ∧ d ≠ localId) := by
  refine or_iff_not_imp_left.mpr fun hnone => ⟨fun hmem => ⟨?_, ?_⟩, fun htrusted => ?_⟩
  · obtain ⟨p, hp⟩ := Map.mem_iff_exists.mp hmem
    exact h.sound.registered.trusted d p hp
  · rintro rfl
    exact h.foreign.peers hmem
  · rcases h.covered.trusted d htrusted.1 htrusted.2 with hmem | ⟨a, record, hr, hd, -⟩ | hfalse
    · exact hmem
    · obtain ⟨id, t, pending, ht, hk, -⟩ := h.regular.attempted.registered a record hr
      cases t with
      | pairing b pending commands phase =>
        cases hk
        refine absurd ⟨id, a, pending, commands, phase, ht, ?_⟩ hnone
        exact ((h.fitting id a pending commands phase ht).device record hr).trans hd
      | _ => cases hk
    · exact hfalse.elim

end Kept

/-! ### Starting again -/

/-- What the journal may hold when the daemon stops: what is written, also if that is only a part of the
record of a commit. -/
inductive Leaves (blake3 : Blake3) (σ : Daemon) : Bytes → Prop
  | written : Leaves blake3 σ σ.shared.store.file.bytes
  | pairing {id : ℕ} {a : PairingAttemptId} {pending : Pending} {commands : List PairingCommand}
      {reply : ReplyId}
      (h : σ.tasks[id]? = some (.pairing a pending commands (.confirming true reply))) (written : ℕ) :
      Leaves blake3 σ (commitAbandoned blake3 σ.shared.store (.trust pending.pairing.peer)
        (some (pending.remoteDeviceId, pending.trustGeneration)) written).file.bytes
  | withdrawal {m : TrustMutation} (h : ∀ peer, m ≠ .trust peer) (written : ℕ) :
      Leaves blake3 σ (commitAbandoned blake3 σ.shared.store m none written).file.bytes

theorem Kept.leaves {lapses : DeviceId → Prop} (h : Kept blake3 localId lapses hand σ) {bytes : Bytes}
    (hl : Leaves blake3 σ bytes) {r : ReplayResult} (hr : replay blake3 bytes = .ok r) :
    Affordable localId r.decisions := by
  have hlasting := h.covered.lasting
  cases hl with
  | written => exact hlasting.replays r hr
  | pairing ht written =>
    refine hlasting.abandoned h.affordable (fun record hc => ?_) written hr
    exact h.covered.affordable_trust (Or.inr (Or.inl (h.fitting.grants ht hc).2))
  | withdrawal hm written =>
    refine hlasting.abandoned h.affordable (fun record _ => ?_) written hr
    exact h.affordable.mono fun _ _ hd => (trusted_of_applyMutation hm hd).1

theorem Begins.kept (h : Begins blake3 σ) (lapses : DeviceId → Prop) :
    Kept blake3 σ.deviceId lapses .none σ := by
  obtain ⟨localId, now, hfirst⟩ := h.beginning
  obtain ⟨fails, config, deviceId, existing, now', entropy, lookup, σ₀, hstart, rfl⟩ := h
  obtain ⟨-, -, hopen⟩ := start_ok hstart
  have hsame : (serve σ₀).shared = σ₀.shared ∧ (serve σ₀).connectivity = σ₀.connectivity :=
    serve_keep (P := fun σ => σ.shared = σ₀.shared ∧ σ.connectivity = σ₀.connectivity)
      (fun _ h => h) ⟨rfl, rfl⟩
  have hlocal := hfirst.deviceId
  have hmem {d : DeviceId} : d ∈ (serve σ₀).connectivity.peers ↔
      (serve σ₀).shared.store.state d = some .trusted ∧ d ≠ localId := by
    rw [Map.mem_iff_exists, hfirst.peers d]
    split_ifs with hd
    · exact iff_of_true ⟨_, rfl⟩ hd
    · exact iff_of_false (by simp) hd
  have hroom (devices : Finset DeviceId)
      (hall : ∀ d ∈ devices, d ∈ (serve σ₀).connectivity.peers) : devices.card ≤ maxManagedPeers := by
    have hsub : devices ⊆ Map.keySet (serve σ₀).connectivity.peers := fun d hd =>
      Map.mem_keySet.mpr (Map.mem_iff_exists.mp (hall d hd))
    refine (Finset.card_le_card hsub).trans ?_
    rw [Map.card_keySet, hsame.2]
    exact start_size hstart
  have haffordable : Affordable localId (serve σ₀).shared.store.decisions := fun devices hall =>
    hroom devices fun d hd => hmem.mpr ⟨state_eq_trusted_iff.mpr (hall d hd).2, (hall d hd).1⟩
  rw [hlocal]
  refine ⟨hfirst.regular, hfirst.fitting,
    ⟨hlocal, fun hself => (hmem.mp hself).2 rfl, fun id t ht => ?_⟩,
    fun d ht hd => Or.inl (hmem.mpr ⟨ht, hd⟩), fun devices hall => hroom devices fun d hd => ?_, ?_⟩
  · rw [hfirst.workers id t ht]
    nofun
  · rcases hall d hd with hd | ⟨a, record, hr, -⟩ | hfalse
    · exact hd
    · rw [hfirst.pairings] at hr
      simp at hr
    · exact hfalse.elim
  · obtain ⟨-, -, es, hes⟩ := openStore_refines hopen
    rw [← hsame.1] at hes
    exact .ofRefines hes haffordable

/-- **The managed peers are the trusted ones**, apart from those whose pairing has not been joined, in
every run that attends to its pairings. There are no more of them than can be managed, and whenever the
daemon stops, it can be started again. -/
theorem managed_peers_are_trusted {σ₀ : Daemon} (hbegin : Begins blake3 σ₀) {steps : List Step}
    (hmeets : Meets blake3 (Attended blake3) σ₀ steps) :
    let σ := run blake3 σ₀ steps
    (∀ d, (∃ (id : ℕ), ∃ a pending commands phase,
      σ.tasks[id]? = some (.pairing a pending commands phase) ∧
          pending.remoteDeviceId = d) ∨
      (d ∈ σ.connectivity.peers ↔ σ.shared.store.state d = some .trusted ∧ d ≠ σ.deviceId)) ∧
    (σ.shared.store.poisoned = false → ∃ r, replay blake3 σ.shared.store.file.bytes = .ok r ∧
      r.decisions = σ.shared.store.decisions) ∧
    (∀ devices : Finset DeviceId,
      (∀ d ∈ devices, σ.shared.store.state d = some .trusted ∧ d ≠ σ.deviceId) →
        devices.card ≤ maxManagedPeers) ∧
    ∀ bytes, Leaves blake3 σ bytes → ∀ fails config now entropy lookup,
      start blake3 fails config σ.deviceId (some bytes) now entropy lookup ≠
        .error (.invalidConfiguration "trusted peer connectivity capacity exceeded") := by
  have hkept : Kept blake3 σ₀.deviceId nobody .none (run blake3 σ₀ steps) :=
    (hmeets.keep (fun _ _ _ hs h => h.step hs) (hbegin.kept nobody).sound (hbegin.kept nobody)).2
  have hlocal : (run blake3 σ₀ steps).deviceId = σ₀.deviceId := hkept.foreign.deviceId
  intro σ
  rw [show σ.deviceId = σ₀.deviceId from hlocal]
  refine ⟨hkept.managed_iff, fun hpoisoned => ?_, fun devices hall => ?_,
    fun bytes hl fails config now entropy lookup => start_ne_capacity fun r => hkept.leaves hl⟩
  · obtain ⟨es, hes⟩ := hkept.covered.lasting.refines hpoisoned
    exact ⟨_, hes.replay, rfl⟩
  · refine hkept.affordable devices fun d hd => ⟨(hall d hd).2, ?_⟩
    exact state_eq_trusted_iff.mp (hall d hd).1

theorem attended_task {id : ℕ} {event : TaskEvent} (h : event.authenticates ≠ some σ.deviceId) :
    Attended blake3 σ (.task (.task id event)) := by
  refine ⟨fun act hact => ?_, fun _ _ _ _ _ _ _ hjoin => nomatch hjoin⟩
  obtain rfl := List.mem_singleton.mp hact
  exact h

theorem attended_command (command : Command) : Attended blake3 σ (.command command []) :=
  ⟨List.forall_mem_nil _, fun _ _ _ _ _ _ _ hjoin => nomatch hjoin⟩

/-- The task carries out a pairing. -/
def Task.isPairing : Task → Bool
  | .pairing _ _ _ _ => true
  | _ => false

theorem no_pairing_of_all (h : (σ.tasks.toList.all fun entry => !entry.2.isPairing) = true) (id : ℕ)
    (a : PairingAttemptId) (pending : Pending) (commands : List PairingCommand)
    (phase : PairingTaskPhase) : σ.tasks[id]? ≠ some (.pairing a pending commands phase) := by
  intro hid
  have hall := List.all_eq_true.mp h (id, .pairing a pending commands phase)
  rw [ExtTreeMap.mem_toList_iff_getElem?_eq_some] at hall
  cases hall hid

/-- The task is not that of a pairing that went wrong. -/
def Task.endsWell : Task → Bool
  | .pairing _ _ _ (.done (.authorized _) _) => true
  | .pairing _ _ _ (.done _ _) => false
  | _ => true

theorem attended_join {id : ℕ} (hclosed : σ.shared.closed = ∅)
    (ht : σ.tasks[id]?.all Task.endsWell = true) : Attended blake3 σ (.join id []) := by
  refine ⟨List.forall_mem_nil _, ?_⟩
  rintro id _ a pending commands result reply ⟨⟩ hid -
  rw [hid] at ht
  cases result with
  | authorized c =>
    refine Or.inr ⟨c, rfl, ?_⟩
    change c.connection ∉ σ.shared.closed
    rw [hclosed]
    exact Finset.notMem_empty _
  | _ => cases ht

/-- A peer that has paired is managed. -/
theorem sample_peer_is_managed : ∃ σ₀, Begins sampleBlake3 σ₀ ∧
    let σ := run sampleBlake3 σ₀ (samplePairingRequest 0 ++ sampleConfirmed 1 2)
    samplePeer.deviceId ∈ σ.connectivity.peers := by
  let request : List Step := taskDoes 0 [.proceed, .intent (.ok .pairing), .proceed,
    .exchange (.ok ()), .proceed, .proceed, .proceed, .paired (.ok samplePairing)]
  let accepted : List Step := .task (.task 0 (.bootstrap (.ok sampleHello))) :: request
  let decided : List Step := accepted ++ .join 0 [] ::
    .command (.request (.confirmPairing 1 true) 0 .ok) [] ::
      taskDoes 2 [.command, .commit .ok, .completes]
  let steps : List Step := samplePairingRequest 0 ++ sampleConfirmed 1 2
  obtain ⟨σ₀, hbegin, hσ⟩ := exists_sampleBegin (.repeated 1) none
    (fun σ => σ.deviceId = .repeated 1 ∧
      (run sampleBlake3 σ accepted).shared.closed = ∅ ∧
      (run sampleBlake3 σ accepted).tasks[0]?.all Task.endsWell ∧
      (run sampleBlake3 σ decided).shared.closed = ∅ ∧
      (run sampleBlake3 σ decided).tasks[2]?.all Task.endsWell ∧
      (run sampleBlake3 σ steps).shared.store.state samplePeer.deviceId = some .trusted ∧
      (run sampleBlake3 σ steps).deviceId = .repeated 1 ∧
      (run sampleBlake3 σ steps).tasks.toList.all fun entry => !entry.2.isPairing)
    (by decide +kernel)
  obtain ⟨hlocal, hclosed, htask, hclosed', htask', htrusted, hdevice, htasks⟩ := of_decide_eq_true hσ
  have hquiet (id : ℕ) (events : List TaskEvent) (h : ∀ event ∈ events, event.authenticates = none) :
      ∀ s ∈ taskDoes id events, ∀ σ, Attended sampleBlake3 σ s := by
    intro s hs σ
    obtain ⟨event, hmem, rfl⟩ := List.mem_map.mp hs
    exact attended_task (by rw [h event hmem]; nofun)
  have haccepted : Meets sampleBlake3 (Attended sampleBlake3) σ₀ accepted :=
    ⟨attended_task (by rw [hlocal]; decide), meets_of_forall (hquiet 0 _ (by decide))⟩
  have hdecided : Meets sampleBlake3 (Attended sampleBlake3) σ₀ decided :=
    haccepted.append ⟨attended_join hclosed htask, attended_command _,
      meets_of_forall (hquiet 2 _ (by decide))⟩
  have hmeets : Meets sampleBlake3 (Attended sampleBlake3) σ₀ steps :=
    hdecided.append ⟨attended_join hclosed' htask', trivial⟩
  obtain ⟨hmanaged, -⟩ := managed_peers_are_trusted hbegin hmeets
  refine ⟨σ₀, hbegin, ((hmanaged samplePeer.deviceId).resolve_left ?_).mpr ⟨htrusted, ?_⟩⟩
  · rintro ⟨id, a, pending, commands, phase, hid, -⟩
    exact no_pairing_of_all htasks id a pending commands phase hid
  · rw [hdevice]
    decide

/-- **A pairing that fails after its commit.** The peer stays trusted, its pairing has been joined, and
it is not managed. -/
theorem failed_pairing_is_not_managed : ∃ σ, Reachable sampleBlake3 σ ∧
    σ.shared.store.state samplePeer.deviceId = some .trusted ∧ samplePeer.deviceId ≠ σ.deviceId ∧
    (∀ (id : ℕ) a pending commands phase, σ.tasks[id]? ≠ some (.pairing a pending commands phase)) ∧
    samplePeer.deviceId ∉ σ.connectivity.peers := by
  let steps : List Step := samplePairingRequest 0 ++
    .command (.request (.confirmPairing 1 true) 0 .ok) [] ::
      taskDoes 2 [.command, .commit .ok, .fails (.timeout .awaitingCompletion)] ++ [.join 2 []]
  obtain ⟨σ, hreach, hσ⟩ := exists_sampleRun (.repeated 1) none steps
    (fun σ => σ.shared.store.state samplePeer.deviceId = some .trusted ∧
      samplePeer.deviceId ≠ σ.deviceId ∧ samplePeer.deviceId ∉ σ.connectivity.peers ∧
      σ.tasks.toList.all fun entry => !entry.2.isPairing) (by decide +kernel)
  obtain ⟨htrusted, hlocal, hnot, htasks⟩ := of_decide_eq_true hσ
  exact ⟨σ, hreach, htrusted, hlocal, no_pairing_of_all htasks, hnot⟩

end Rift.Daemon
