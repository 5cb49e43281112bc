import Rift.Daemon.Reconnect
import Rift.Lib.Feed

/-! # Connectivity is reported as it is

What the daemon reports of a managed peer, up to the time that remains until the next dial, is how the
peer is, and no report repeats the one before. The second part always holds. The first holds as long as
nobody joins a dial that is not reported: neither the retry timer takes a peer to which a dial is on
record, nor does a caller join the live dial of a peer that is not `connecting`.

The main results are `Handled.feeds`, `Handled.told`, `reports_tell_the_truth` and
`held_up_retry_is_misreported`. -/

namespace Rift.Daemon

open Rift.Lib Rift.Lib.Feed Rift.Lib.Interference Rift.Core Rift.Ipc Rift.Session Std
open Rift.Trust hiding Event

variable {blake3 : Blake3} {B : Bounds} {hand : Hand} {σ σ' : Daemon}
  {d d' : DeviceId}

/-! ### The feed of a device -/

/-- The report, if the event is one of this device. -/
def reportOf (d : DeviceId) : Ipc.Event → Option PeerConnectivityInfo
  | .peerConnectivityChanged info => if info.deviceId = d then some info else none
  | _ => none

/-- What was reported of a device, in order. -/
def reportsOf (d : DeviceId) (events : List Ipc.Event) : List PeerConnectivityInfo :=
  events.filterMap (reportOf d)

/-- A report without the time that remains until the next dial. -/
def untimed (info : PeerConnectivityInfo) : PeerConnectivityInfo := { info with retryInMs := none }

/-- What the daemon keeps of its last report of a device, if that is managed, and its reports. -/
def feed (d : DeviceId) (σ : Daemon) : View PeerConnectivityInfo PeerConnectivityInfo :=
  ⟨σ.connectivity.peers[d]?.map Peer.lastEmitted, reportsOf d σ.events⟩

/-- What becomes of the feed while the device is managed. -/
abbrev Changes (d : DeviceId) (σ σ' : Daemon) : Prop :=
  Relation.ReflTransGen (Change untimed) (feed d σ) (feed d σ')

/-- What becomes of it if the device may be dropped in the end. -/
def Feeds (d : DeviceId) (σ σ' : Daemon) : Prop :=
  ∃ v, Relation.ReflTransGen (Change untimed) (feed d σ) v ∧
    (feed d σ' = v ∨ feed d σ' = ⟨none, v.reports⟩)

theorem Changes.of_eq (h : feed d σ' = feed d σ) : Changes d σ σ' := by
  unfold Changes
  rw [h]

theorem reportsOf_append {events new : List Ipc.Event} (h : ∀ event ∈ new, reportOf d event = none) :
    reportsOf d (events ++ new) = reportsOf d events := by
  have hnew : new.filterMap (reportOf d) = [] := List.filterMap_eq_nil_iff.mpr h
  unfold reportsOf
  rw [List.filterMap_append, hnew, List.append_nil]

theorem feed_append (events : List Ipc.Event) (hp : σ'.connectivity.peers = σ.connectivity.peers)
    (he : σ'.events = σ.events ++ events) (hn : ∀ event ∈ events, reportOf d event = none) :
    feed d σ' = feed d σ := by
  unfold feed
  rw [hp, he, reportsOf_append hn]

theorem feed_modify {f : Peer → Peer} (hf : ∀ p, (f p).lastEmitted = p.lastEmitted)
    (hp : σ'.connectivity.peers = σ.connectivity.peers.modify d' f) (he : σ'.events = σ.events) :
    feed d σ' = feed d σ := by
  have hkept : (σ.connectivity.peers.modify d' f)[d]?.map Peer.lastEmitted =
      σ.connectivity.peers[d]?.map Peer.lastEmitted := by
    by_cases heq : d' = d
    · subst heq
      rw [Map.modify_self, Option.map_map]
      exact congrFun (congrArg _ (funext hf)) _
    · rw [Map.modify_ne heq]
  unfold feed
  rw [hp, he, hkept]

/-- **A change that ends in a report** is reported unless the last report said the same. -/
theorem changes_changePeer (σ : Daemon) (d' : DeviceId) {f : Peer → Peer}
    (hf : ∀ p, (f p).lastEmitted = p.lastEmitted) : Changes d σ (σ.changePeer d' f) := by
  by_cases heq : d' = d
  · subst heq
    cases hp : σ.connectivity.peers[d']? with
    | none =>
      refine .of_eq ?_
      simp [feed, changePeer, hp]
    | some p =>
      have hafter : (σ.changePeer d' f).connectivity.peers[d']? =
          some ((f p).reported d' σ.shared.clock) := by
        simp [changePeer, hp]
      by_cases hsame : (f p).lastEmitted = some (untimed ((f p).info d' σ.shared.clock))
      · have hreport : (f p).report d' σ.shared.clock = none := if_pos hsame
        refine .of_eq ?_
        unfold feed
        rw [hafter, hp]
        simp [changePeer, hp, hreport, Peer.reported, ← hf p, hsame, untimed]
      · have hreport : (f p).report d' σ.shared.clock = some ((f p).info d' σ.shared.clock) :=
          if_neg hsame
        have hevents : reportsOf d' (σ.changePeer d' f).events =
            reportsOf d' σ.events ++ [(f p).info d' σ.shared.clock] := by
          simp [changePeer, hp, hreport, reportsOf, reportOf, Peer.info]
        unfold Changes feed
        rw [hafter, hp, hevents]
        exact .single (.reports (hf p ▸ hsame) _)
  · refine .of_eq ?_
    have hother : reportsOf d (σ.changePeer d' f).events = reportsOf d σ.events := by
      refine reportsOf_append fun event hevent => ?_
      obtain ⟨info, hinfo, rfl⟩ := List.mem_map.mp hevent
      obtain ⟨p, -, hp⟩ := Option.bind_eq_some_iff.mp (Option.mem_toList.mp hinfo)
      have hid : info.deviceId = d' := by
        unfold Peer.report at hp
        simp only at hp
        split_ifs at hp
        cases hp
        rfl
      simp [reportOf, hid, heq]
    unfold feed
    rw [hother]
    simp [changePeer, Map.modify_ne heq]

theorem Changes.tail {τ : Daemon} (h : Changes d σ τ) (events : List Ipc.Event)
    (hp : σ'.connectivity.peers = τ.connectivity.peers) (he : σ'.events = τ.events ++ events)
    (hn : ∀ event ∈ events, reportOf d event = none) : Changes d σ σ' :=
  Relation.ReflTransGen.trans h (Changes.of_eq (feed_append events hp he hn))

theorem Changes.evolved (he : Evolved σ σ') : Changes d σ σ' := by
  obtain ⟨tasks, shared, rfl⟩ := he.owned
  exact .refl

theorem Changes.retireExisting (existing : Existing) :
    Changes d σ (retireExisting σ existing) := by
  rcases existing with _ | ⟨s, r, closed⟩
  · exact .refl
  · have hlost : feed d (σ.modifyPeer r.info.deviceId fun peer =>
        if closed then peer.lost σ.shared.clock σ.sample else peer) = feed d σ := by
      refine feed_modify (fun p => ?_) rfl rfl
      cases closed <;> simp
    exact (Changes.of_eq hlost).tail [.sessionClosed ..] rfl rfl (by simp [reportOf])

/-- **What a move does to the feed.** -/
theorem Move.changes (hm : Move blake3 B hand σ σ') : Changes d σ σ' := by
  cases hm with
  | act => exact .evolved (taskStep_spec _ _).evolved
  | @manage _ _ _ d' hi =>
    rcases insertPeer_eq_some hi with ⟨rfl, -⟩ | ⟨rfl, hnew, -⟩
    · exact .refl
    · by_cases heq : d' = d
      · subst heq
        have hnone : σ.connectivity.peers[d']? = none := by simpa using hnew
        have hbefore : feed d' σ = ⟨none, reportsOf d' σ.events⟩ := by simp [feed, hnone]
        have hafter : feed d' (σ.setPeers (σ.connectivity.peers.insert d'
            (Peer.new σ.shared.clock))) = ⟨some none, reportsOf d' σ.events⟩ := by
          simp [feed, setPeers, Peer.new]
        unfold Changes
        rw [hbefore, hafter]
        exact .single (.begins _)
      · refine .of_eq ?_
        simp [feed, setPeers, Map.insert_ne heq]
  | resume => exact .of_eq (feed_modify (fun _ => Peer.resume_lastEmitted ..) rfl rfl)
  | resolved => exact changes_changePeer _ _ fun _ => Peer.resume_lastEmitted ..
  | fail => exact changes_changePeer _ _ fun _ => Peer.failed_lastEmitted ..
  | coalesce => exact .of_eq (feed_modify (f := Peer.dialling) (fun _ => rfl) rfl rfl)
  | @dial _ d' => exact changes_changePeer σ d' (f := Peer.dialling) fun _ => rfl
  | pend => exact .of_eq (feed_append [.pairingPending _] rfl rfl (by simp [reportOf]))
  | @openSession _ _ existing c _ _ _ _ _ origin =>
    have hopened : Changes d σ ((retireExisting σ existing).changePeer c.remoteDeviceId fun peer =>
        peer.connected (retireExisting σ existing).nextSessionId
          (retireExisting σ existing).shared.clock) :=
      Relation.ReflTransGen.trans (Changes.retireExisting existing) (changes_changePeer _ _ fun _ => rfl)
    exact hopened.tail [.sessionOpened _] rfl rfl (by simp [reportOf])
  | hint | close | drop | commitFails => exact .refl

theorem Opening.changes {s : Step} (ho : Opening σ s hand σ') : Changes d σ σ' := by
  cases ho with
  | @sessionJoined id _ s c failure =>
    have hended := changes_changePeer (d := d) { σ with tasks := σ.tasks.erase id } c.remoteDeviceId
      (f := fun peer => peer.ended failure σ.shared.clock σ.sample) fun _ => by simp
    exact hended.tail [.sessionClosed ..] rfl rfl (by simp [reportOf])
  | due htake =>
    exact .of_eq (feed_modify (f := Peer.dialling) (fun _ => rfl) (Scheduler.takeDue_eq_some htake).2 rfl)
  | idle | accepted | command | workerJoined | clientJoined | staleJoined | cancelledJoined
  | dialJoined | pairingJoined => exact .refl

theorem Answering.feeds (ha : Answering blake3 B σ σ') : Feeds d σ σ' := by
  cases ha with
  | yield => exact ⟨_, .refl, Or.inl rfl⟩
  | @disconnect s r _ =>
    have hsuspended := changes_changePeer (d := d) σ r.info.deviceId
      (f := fun peer => peer.suspend.lost σ.shared.clock 0) fun _ => by simp
    have hclosed : Changes d σ (σ.disconnect s r) :=
      hsuspended.tail [.sessionClosed ..] rfl rfl (by simp [reportOf])
    exact ⟨_, hclosed, Or.inl rfl⟩
  | @invalidate τ m _ _ _ he reason state =>
    have hev : feed d τ = feed d σ := by
      obtain ⟨tasks, shared, rfl⟩ := (evolves_spec he).owned
      rfl
    have hfailed := changes_changePeer (d := d) τ m.deviceId (f := fun peer =>
      { peer with sessionId := none }.failed .notTrusted τ.shared.clock 0) fun _ => by simp
    unfold Changes at hfailed
    rw [hev] at hfailed
    refine ⟨_, hfailed, ?_⟩
    have hreports : reportsOf d ((τ.invalidatePeer m.deviceId reason).emit
        (.trustChanged m.deviceId state)).events = reportsOf d (τ.changePeer m.deviceId fun peer =>
          { peer with sessionId := none }.failed .notTrusted τ.shared.clock 0).events := by
      simp only [emit, invalidatePeer]
      rw [reportsOf_append (by simp [reportOf]),
        reportsOf_append (List.forall_mem_map.mpr fun _ _ => rfl),
        reportsOf_append (List.forall_mem_map.mpr fun _ _ => rfl)]
      rfl
    by_cases heq : m.deviceId = d
    · right
      unfold feed
      rw [hreports]
      simp [emit, invalidatePeer, heq]
    · left
      unfold feed
      rw [hreports]
      simp [emit, invalidatePeer, Map.erase_ne heq]

theorem Closing.feed_eq (hc : Closing blake3 B hand σ σ') : feed d σ' = feed d σ := by
  cases hc with
  | delivered _ _ _ he =>
    obtain ⟨tasks, shared, rfl⟩ := (evolves_spec he).owned
    rfl
  | abandoned _ _ he =>
    obtain ⟨tasks, shared, rfl⟩ := (evolves_spec he).owned
    rfl
  | @resolved _ _ registered _ _ reply _ =>
    have hquiet (a : PairingAttemptId) (d' : DeviceId) (outcome : PairingOutcome) :
        feed d (σ.emit (.pairingResolved a d' outcome)) = feed d σ :=
      feed_append [.pairingResolved a d' outcome] rfl rfl (by simp [reportOf])
    unfold resolvePairing
    cases registered with
    | false => cases reply <;> rfl
    | true => cases reply <;> exact hquiet _ _ _
  | none | respawned | request | answered | waits | refused => rfl

/-- **What a handled event does to the feed of a device.** -/
theorem Handled.feeds {s : Step} (hh : Handled blake3 B σ s σ') (d : DeviceId) : Feeds d σ σ' := by
  refine hh.lead (P := fun _ => Changes d σ) (Q := fun _ => Feeds d σ) (R := Feeds d σ)
    (fun hm h => h.trans hm.changes) (fun ho h => h.trans ho.changes)
    (fun h => ⟨_, h, Or.inl rfl⟩) (fun ha h => ?_) (fun hc h => ?_) .refl
  · obtain ⟨v, hv, hend⟩ := ha.feeds (d := d)
    exact ⟨v, h.trans hv, hend⟩
  · unfold Feeds
    rw [hc.feed_eq]
    exact h

/-! ### What a handled event leaves -/

theorem Opening.told {s : Step} (ho : Opening σ s hand σ') (h : Told σ d)
    (hd : ∀ waiting, hand ≠ .dial d false waiting) : Told σ' d := by
  cases ho with
  | sessionJoined => exact h.reported rfl
  | due htake =>
    exact h.modify (fun heq => absurd (heq ▸ rfl) (hd [])) (Scheduler.takeDue_eq_some htake).2
  | idle | accepted | command | workerJoined | clientJoined | staleJoined | cancelledJoined
  | dialJoined | pairingJoined => exact h

theorem Answering.told (ha : Answering blake3 B σ σ') (h : Told σ d) : Told σ' d := by
  cases ha with
  | yield => exact h
  | disconnect => exact h.reported rfl
  | @invalidate τ m _ _ _ he reason _ =>
    intro p hp
    obtain ⟨hp, -⟩ := (Sound.invalidatePeer_peers reason).mp hp
    rw [(evolves_spec he).connectivity] at hp
    exact h p hp

theorem Closing.told (hc : Closing blake3 B hand σ σ') (hb : ¬ B.unreported d)
    (h : (∀ waiting, hand ≠ .dial d false waiting) → Told σ d) : Told σ' d := by
  unfold Told
  rw [hc.connectivity_eq]
  cases hc with
  | @answered _ d₀ pairing _ _ _ ht waiting =>
    by_cases heq : d₀ = d ∧ pairing = false
    · obtain ⟨rfl, rfl⟩ := heq
      exact (ht rfl).resolve_right hb
    · refine h fun waiting' heq' => heq ?_
      cases heq'
      exact ⟨rfl, rfl⟩
  | @waits _ d₀ record waiting _ _ _ ht =>
    by_cases heq : d₀ = d ∧ record.pairing = false
    · obtain ⟨rfl, hp⟩ := heq
      exact (ht hp).resolve_right hb
    · refine h fun waiting' heq' => heq ?_
      injection heq' with hd hp
      exact ⟨hd, hp⟩
  | none | respawned | request | refused | delivered | abandoned | resolved => exact h nofun

/-- **No handled event leaves a peer other than it is reported**, unless a dial goes unreported. -/
theorem Handled.told {s : Step} (hh : Handled blake3 B σ s σ') (hb : ∀ d, ¬ B.unreported d)
    (h : ∀ d, Told σ d) (d : DeviceId) : Told σ' d :=
  hh.keep (P := fun hand σ => ∀ d, (∀ waiting, hand ≠ .dial d false waiting) → Told σ d)
    (fun hm h d hd => hm.told hd (h d hd)) (fun ho h d hd => ho.told (h d nofun) hd)
    (fun ha h d hd => ha.told (h d hd)) (fun hc h d _ => hc.told (hb d) (h d))
    (fun d _ => h d) d nofun

/-! ### Runs -/

/-- The reports of a device during a step. -/
def newReports (blake3 : Blake3) (d : DeviceId) (σ : Daemon) (s : Step) :
    List PeerConnectivityInfo :=
  (reportsOf d (step blake3 σ s).events).drop (reportsOf d σ.events).length

/-- The reports of a device during a run since it was managed, after those that it began with. -/
def reportedSince (blake3 : Blake3) (d : DeviceId) :
    Daemon → List PeerConnectivityInfo → List Step → List PeerConnectivityInfo
  | _, since, [] => since
  | σ, since, s :: steps =>
    reportedSince blake3 d (step blake3 σ s)
      (if d ∈ (step blake3 σ s).connectivity.peers then since ++ newReports blake3 d σ s else [])
      steps

/-- Nobody joins a dial that is not reported: the retry timer takes no peer to which a dial is on
record, and no caller joins the live dial of a peer that is not `connecting`, unless nothing has been
reported of the peer. -/
def Reporting (blake3 : Blake3) (σ : Daemon) : Step → Prop
  | .timer script => ∀ d, taken blake3 σ script = some d → σ.outbound[d]? = none ∨ Silent σ d
  | .command command _ => ∀ d waiting, command.hand = .dial d false waiting → Live σ d →
    Silent σ d ∨ ∀ p, σ.connectivity.peers[d]? = some p → p.state = .connecting
  | _ => True

/-- The bounds within which no dial goes unreported. -/
def reporting : Bounds := { unbounded with unreported := fun _ => False }

theorem within_reporting {s : Step} (h : ∀ d, Told σ d) (hr : Reporting blake3 σ s) :
    Within blake3 reporting σ s where
  acts _ _ := trivial
  timer script hs := by
    subst hs
    exact ⟨fun _ _ _ _ => trivial, fun d _ htake _ => hr d (by simp [taken, htake])⟩
  command command script hs := by
    subst hs
    refine ⟨fun _ _ _ => Or.inr trivial, fun d waiting hhand _ => ⟨h d, fun hl => ?_⟩,
      fun _ _ _ _ _ => trivial, fun _ _ => trivial⟩
    rcases hr d waiting hhand hl with hsilent | hconnecting
    · exact hsilent.joinable.live hl
    · intro p hp
      rcases Map.modify_eq_some.mp hp with ⟨-, q, hq, rfl⟩ | ⟨-, hp⟩
      · exact (h d q hq).congr rfl (hconnecting q hq).symm rfl rfl rfl
      · exact h d p hp
  join _ _ _ := ⟨fun _ _ _ _ => trivial, fun _ _ _ _ _ => trivial,
    fun _ _ _ _ _ _ _ _ => trivial, fun _ _ _ _ => trivial, fun d _ _ _ => Or.inl (h d)⟩

theorem told_step (hs : Sound σ) {s : Step} (hr : Reporting blake3 σ s) (h : ∀ d, Told σ d)
    (d : DeviceId) : Told (step blake3 σ s) d :=
  (step_handled hs (within_reporting h hr)).told (fun _ => id) h d

/-- What a device was reported as since it was managed: no report repeats the one before, and the
last one is kept with the peer. -/
abbrev Reported (d : DeviceId) (since : List PeerConnectivityInfo) (σ : Daemon) : Prop :=
  Faithful untimed since (σ.connectivity.peers[d]?.map Peer.lastEmitted)

/-- **A step reports nothing twice in a row.** -/
theorem Reported.step_differ (hs : Sound σ) {since : List PeerConnectivityInfo}
    (h : Reported d since σ) (s : Step) :
    ((since ++ newReports blake3 d σ s).map untimed).IsChain (· ≠ ·) ∧
      Reported d (if d ∈ (step blake3 σ s).connectivity.peers then
        since ++ newReports blake3 d σ s else []) (step blake3 σ s) := by
  have hhandled : Handled blake3 unbounded σ s (step blake3 σ s) := hs.handled s
  obtain ⟨v, hv, hend⟩ := hhandled.feeds d
  obtain ⟨new, hreports, hnew⟩ := Faithful.changes hv h
  have hafter : reportsOf d (step blake3 σ s).events = reportsOf d σ.events ++ new := by
    rw [show reportsOf d σ.events ++ new = v.reports from hreports.symm]
    rcases hend with hend | hend <;> exact congrArg View.reports hend
  have heq : newReports blake3 d σ s = new := by
    unfold newReports
    rw [hafter, List.drop_left]
  rw [heq]
  refine ⟨hnew.differ, ?_⟩
  by_cases hd : d ∈ (step blake3 σ s).connectivity.peers
  · rw [if_pos hd]
    obtain ⟨p, hp⟩ := Map.mem_iff_exists.mp hd
    rcases hend with hend | hend
    · rw [← hend] at hnew
      exact hnew
    · have hnone := congrArg View.kept hend
      simp [feed, hp] at hnone
  · rw [if_neg hd]
    have hnone : (step blake3 σ s).connectivity.peers[d]? = none := by simpa using hd
    unfold Reported
    rw [hnone]
    exact ⟨List.isChain_nil, fun _ h => (by cases h), fun _ => rfl⟩

theorem Reported.run_differ : ∀ (steps : List Step) {σ : Daemon} {since : List PeerConnectivityInfo},
    Sound σ → Reported d since σ →
      Reported d (reportedSince blake3 d σ since steps) (run blake3 σ steps)
  | [], _, _, _, h => h
  | s :: steps, _, _, hs, h => run_differ steps (hs.step s) (h.step_differ hs s).2

theorem Beginning.reported {localId : DeviceId} {now : ℕ} (h : Beginning localId now σ)
    (d : DeviceId) : Told σ d ∧ Reported d [] σ := by
  have hpeers := h.peers d
  split_ifs at hpeers
  · refine ⟨fun p hp => ?_, List.isChain_nil, fun last hlast => ?_, fun hnone => ?_⟩
    · rw [hpeers] at hp
      cases hp
      exact Peer.truthful_new _ _
    · rw [hpeers] at hlast
      cases hlast
      rfl
    · rw [hpeers] at hnone
  · refine ⟨fun p hp => ?_, List.isChain_nil, fun last hlast => ?_, fun _ => rfl⟩
    · rw [hpeers] at hp
      cases hp
    · rw [hpeers] at hlast
      cases hlast

/-- **Connectivity events tell the truth.** In a run in which nobody joins a dial that is not reported,
the last report of a managed peer, if there was one since it is managed, says how the peer is. In any
run, no two reports in a row say the same while it is managed; the step that drops it is included. -/
theorem reports_tell_the_truth {σ₀ : Daemon} (hbegin : Begins blake3 σ₀) (d : DeviceId)
    (steps : List Step) :
    let σ := run blake3 σ₀ steps
    let since := reportedSince blake3 d σ₀ [] steps
    (Meets blake3 (Reporting blake3) σ₀ steps →
      ∀ (p : Peer) (last : PeerConnectivityInfo), σ.connectivity.peers[d]? = some p →
        since.getLast? = some last →
          last.deviceId = d ∧ last.state = p.state ∧ last.sessionId = p.sessionId ∧
            last.retryAttempt = p.attempt ∧ last.lastFailure = p.lastFailure) ∧
    ∀ s, ((since ++ newReports blake3 d σ s).map untimed).IsChain (· ≠ ·) := by
  intro σ since
  obtain ⟨localId, now, hfirst⟩ := hbegin.beginning
  have hreported : Reported d since σ :=
    Reported.run_differ steps hfirst.sound (hfirst.reported d).2
  have hsound : Sound σ := (Reachable.sound ⟨σ₀, steps, hbegin, rfl⟩)
  refine ⟨fun hmeets p last hp hlast => ?_, fun s => (hreported.step_differ hsound s).1⟩
  have htold : Told σ d := (hmeets.keep (P := fun σ => ∀ d, Told σ d)
    (fun _ _ hs hr h => told_step hs hr h) hfirst.sound fun d => (hfirst.reported d).1).2 d
  have hkept : p.lastEmitted = some (untimed last) := by
    rw [hreported.last p.lastEmitted (by rw [hp]; rfl), List.getLast?_map, hlast]
    rfl
  have hinfo := htold p hp _ hkept
  simp only [untimed, Peer.info, PeerConnectivityInfo.mk.injEq] at hinfo
  exact ⟨hinfo.1, hinfo.2.1, hinfo.2.2.1, hinfo.2.2.2.1, hinfo.2.2.2.2.2⟩

/-- A peer that is dialled is reported as `connecting`. -/
theorem sample_dial_is_reported : ∃ σ₀, Begins sampleBlake3 σ₀ ∧ ∃ p last,
    (run sampleBlake3 σ₀ [.timer []]).connectivity.peers[samplePeer.deviceId]? = some p ∧
      (reportedSince sampleBlake3 samplePeer.deviceId σ₀ [] [.timer []]).getLast? = some last ∧
      last.state = p.state ∧ p.state = .connecting := by
  obtain ⟨σ₀, hbegin, hstate⟩ := exists_sampleBegin (.repeated 1) (some sampleJournal)
    (fun σ => ((run sampleBlake3 σ [.timer []]).connectivity.peers[samplePeer.deviceId]?).any
        (fun p => p.state = .connecting) ∧
      (reportedSince sampleBlake3 samplePeer.deviceId σ [] [.timer []]).getLast?.isSome)
    (by decide +kernel)
  obtain ⟨hpeer, hlast⟩ := of_decide_eq_true hstate
  obtain ⟨p, hp, hconnecting⟩ := (Option.any_eq_true _ _).mp hpeer
  obtain ⟨last, hlast⟩ := Option.isSome_iff_exists.mp hlast
  obtain ⟨_, _, hfirst⟩ := hbegin.beginning
  have hreporting : Reporting sampleBlake3 σ₀ (.timer []) := by
    intro d _
    rw [hfirst.outbound]
    exact Or.inl (by simp)
  have hmeets : Meets sampleBlake3 (Reporting sampleBlake3) σ₀ [.timer []] := ⟨hreporting, trivial⟩
  obtain ⟨-, hsame, -⟩ := (reports_tell_the_truth hbegin samplePeer.deviceId [.timer []]).1 hmeets p
    last hp hlast
  exact ⟨σ₀, hbegin, p, last, hp, hlast, hsame, of_decide_eq_true hconnecting⟩

/-- **A peer that is not as it was reported.** While this device dials another one to pair, that one
pairs with it and connects. Its session ends, which is reported as `backoff`; the retry timer takes
the peer, which is `connecting` from then on, and the dial that is to pair is in the way. -/
theorem held_up_retry_is_misreported : ∃ (σ₀ : Daemon) (steps : List Step),
    Begins sampleBlake3 σ₀ ∧ ∃ p last,
      (run sampleBlake3 σ₀ steps).connectivity.peers[samplePeer.deviceId]? = some p ∧
      (reportedSince sampleBlake3 samplePeer.deviceId σ₀ [] steps).getLast? = some last ∧
      last.state = .backoff ∧ p.state = .connecting := by
  let steps : List Step :=
    .command (.request (.beginPairing samplePeer.deviceId) 1 .ok) [] ::
      samplePairingRequest 0 ++ sampleConfirmed 1 3 ++ taskDoes 5 [.ended (.ok ())] ++
      [.join 5 [], .task (.elapses (2000 * nanosPerMilli)), .timer []]
  obtain ⟨σ₀, hbegin, hσ⟩ := exists_sampleBegin (.repeated 1) none
    (fun σ => ((run sampleBlake3 σ steps).connectivity.peers[samplePeer.deviceId]?).any
        (fun p => p.state = .connecting) ∧
      (reportedSince sampleBlake3 samplePeer.deviceId σ [] steps).getLast?.any
        fun last => last.state = .backoff)
    (by decide +kernel)
  obtain ⟨hpeer, hlast⟩ := of_decide_eq_true hσ
  obtain ⟨p, hp, hconnecting⟩ := (Option.any_eq_true _ _).mp hpeer
  obtain ⟨last, hlast, hbackoff⟩ := (Option.any_eq_true _ _).mp hlast
  exact ⟨σ₀, steps, hbegin, p, last, hp, hlast, of_decide_eq_true hbackoff,
    of_decide_eq_true hconnecting⟩

end Rift.Daemon
