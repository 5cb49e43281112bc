import Rift.Daemon.Runs
import Rift.Daemon.Shutdown
import Rift.Lib.Lifecycle

/-! # The session events reproduce the registry

Replaying the events that report sessions, in order, gives the session registry: a session is reported
when it opens and when it closes, and nothing else is.

The main results are `Handled.streamed`, `Streamed.stop` and
`session_events_reproduce_registry`. -/

namespace Rift.Daemon

open Rift.Lib Rift.Lib.Lifecycle Rift.Lib.Interference Rift.Core Rift.Ipc Rift.Session Std
open Rift.Trust hiding Event

variable {blake3 : Blake3} {B : Bounds} {hand : Hand} {σ σ' : Daemon}
  {d : DeviceId}

/-! ### The stream -/

/-- What an event says about the sessions. -/
def sessionEntry : Ipc.Event → Option (Entry SessionInfo DeviceId)
  | .sessionOpened info => some (.opened info.sessionId info)
  | .sessionClosed sessionId deviceId _ => some (.closed sessionId deviceId)
  | _ => none

/-- What the events say of sessions. -/
def sessionEntries (events : List Ipc.Event) : List (Entry SessionInfo DeviceId) :=
  events.filterMap sessionEntry

/-- The registered sessions, by what is public of them. -/
def sessionInfos (sessions : ExtTreeMap SessionId SessionRecord) : ExtTreeMap SessionId SessionInfo :=
  sessions.map fun _ record => record.info

/-- The events so far keep in step with the registry. -/
def Streamed (σ : Daemon) : Prop :=
  Records SessionInfo.deviceId (sessionEntries σ.events) (sessionInfos σ.sessions) σ.nextSessionId

theorem sessionInfos_eq_some {sessions : ExtTreeMap SessionId SessionRecord} {s : SessionId}
    {r : SessionRecord} (h : sessions[s]? = some r) : (sessionInfos sessions)[s]? = some r.info :=
  Map.map_eq_some.mpr ⟨r, h, rfl⟩

theorem Streamed.quiet (h : Streamed σ) (hs : σ'.sessions = σ.sessions)
    (hn : σ'.nextSessionId = σ.nextSessionId) (new : List Ipc.Event)
    (he : σ'.events = σ.events ++ new) (hnew : ∀ event ∈ new, sessionEntry event = none) :
    Streamed σ' := by
  have hentries : sessionEntries σ'.events = sessionEntries σ.events := by
    unfold sessionEntries
    rw [he, List.filterMap_append, List.filterMap_eq_nil_iff.mpr hnew, List.append_nil]
  unfold Streamed
  rw [hs, hn, hentries]
  exact h

theorem Streamed.closes (h : Streamed σ) {s : SessionId} {r : SessionRecord}
    (hr : σ.sessions[s]? = some r) (hd : r.info.deviceId = d) {reason : SessionCloseReason}
    (hs : σ'.sessions = σ.sessions.erase s) (hn : σ'.nextSessionId = σ.nextSessionId)
    (he : σ'.events = σ.events ++ [.sessionClosed s d reason]) : Streamed σ' := by
  subst hd
  have hclosed := Records.closed h (sessionInfos_eq_some hr)
  unfold Streamed sessionEntries
  rw [hs, hn, he, sessionInfos, Map.map_erase, List.filterMap_append]
  exact hclosed

theorem Streamed.opens (h : Streamed σ) {r : SessionRecord} (hr : r.info.sessionId = σ.nextSessionId)
    (hs : σ'.sessions = σ.sessions.insert σ.nextSessionId r)
    (hn : σ'.nextSessionId = σ.nextSessionId + 1)
    (he : σ'.events = σ.events ++ [.sessionOpened r.info]) : Streamed σ' := by
  have hopened := Records.opened h r.info
  unfold Streamed sessionEntries
  rw [hs, hn, he, sessionInfos, Map.map_insert, List.filterMap_append]
  simp only [List.filterMap_cons, List.filterMap_nil, sessionEntry, hr]
  exact hopened

theorem Streamed.changePeer (h : Streamed σ) (d : DeviceId) (f : Peer → Peer) :
    Streamed (σ.changePeer d f) := by
  refine h.quiet rfl rfl _ rfl fun event hevent => ?_
  obtain ⟨info, -, rfl⟩ := List.mem_map.mp hevent
  rfl

theorem Streamed.retireExisting (h : Streamed σ)
    {existing : Existing}
    (he : Replaces σ d existing) : Streamed (retireExisting σ existing) := by
  rcases existing with _ | ⟨s, r, closed⟩
  · exact h
  · exact h.closes he.1 rfl rfl rfl rfl

/-- **The events keep in step with the registry.** -/
theorem Move.streamed (hm : Move blake3 B hand σ σ') (h : Streamed σ) : Streamed σ' := by
  cases hm with
  | act =>
    obtain ⟨tasks, shared, heq⟩ := (taskStep_spec σ _).evolved.owned
    rw [heq]
    exact h
  | manage hi =>
    obtain ⟨-, peers, rfl⟩ := mem_of_insertPeer hi
    exact h
  | resolved => exact h.changePeer _ _
  | fail => exact h.changePeer _ _
  | @dial _ d' => exact h.changePeer d' Peer.dialling
  | pend => exact h.quiet rfl rfl [.pairingPending _] rfl (by simp [sessionEntry])
  | @openSession _ _ existing c _ _ _ he _ origin =>
    have hopened := (h.retireExisting he).changePeer c.remoteDeviceId fun peer =>
      peer.connected (retireExisting σ existing).nextSessionId
        (retireExisting σ existing).shared.clock
    refine hopened.opens (r := (retireExisting σ existing).sessionRecord c origin) rfl rfl rfl ?_
    rcases existing with _ | ⟨s, r, closed⟩ <;> rfl
  | hint | close | drop | resume | coalesce | commitFails => exact h

theorem Opening.streamed {s : Step} (ho : Opening σ s hand σ') (hs : Sound σ) (h : Streamed σ) :
    Streamed σ' := by
  cases ho with
  | @sessionJoined id _ s c failure ht hmem =>
    obtain ⟨r, hr⟩ := Map.mem_iff_exists.mp hmem
    have hd := (hs.tasked.session id _ s c ht rfl).2 r hr
    have hended : Streamed ({ σ with tasks := σ.tasks.erase id }.changePeer c.remoteDeviceId
        fun peer => peer.ended failure σ.shared.clock σ.sample) :=
      Streamed.changePeer (σ := { σ with tasks := σ.tasks.erase id }) h _ _
    exact hended.closes hr hd rfl rfl rfl
  | idle | accepted | command | workerJoined | clientJoined | staleJoined | cancelledJoined
  | dialJoined | pairingJoined | due => exact h

theorem Streamed.closesAll (h : Streamed σ) (p : SessionId × SessionRecord → Bool)
    (event : SessionId × SessionRecord → Ipc.Event)
    (hs : ∀ s, σ'.sessions[s]? = σ.sessions[s]?.filter fun r => !p (s, r))
    (hn : σ'.nextSessionId = σ.nextSessionId)
    (he : σ'.events = σ.events ++ (σ.sessions.toList.filter p).map event)
    (hevent : ∀ entry, σ.sessions[entry.1]? = some entry.2 → p entry = true →
      sessionEntry (event entry) = some (.closed entry.1 entry.2.info.deviceId)) : Streamed σ' := by
  have hentries : sessionEntries σ'.events = sessionEntries σ.events ++
      (σ.sessions.toList.filter p).map fun entry => .closed entry.1 entry.2.info.deviceId := by
    unfold sessionEntries
    rw [he, List.filterMap_append, List.filterMap_map, ← List.filterMap_eq_map]
    refine congrArg _ (List.filterMap_congr fun entry hentry => ?_)
    obtain ⟨hr, hp⟩ := Map.mem_toList_filter.mp hentry
    exact hevent entry hr hp
  unfold Streamed
  rw [hn, hentries]
  exact Records.closeWhere h p hs

theorem Streamed.invalidatePeer (h : Streamed σ) (d : DeviceId) (reason : SessionCloseReason) :
    Streamed (σ.invalidatePeer d reason) := by
  have hreported := h.changePeer d fun peer =>
    { peer with sessionId := none }.failed .notTrusted σ.shared.clock 0
  -- The pairings of the device are reported before its sessions.
  have hpairings : Streamed { σ.changePeer d (fun peer =>
      { peer with sessionId := none }.failed .notTrusted σ.shared.clock 0) with
      events := (σ.changePeer d fun peer =>
        { peer with sessionId := none }.failed .notTrusted σ.shared.clock 0).events ++
        (σ.pendingPairings.toList.filter fun entry => entry.2.info.deviceId = d).map
          fun entry => Event.pairingResolved entry.1 d .cancelled } :=
    hreported.quiet rfl rfl _ rfl (List.forall_mem_map.mpr fun _ _ => rfl)
  refine hpairings.closesAll (fun entry => entry.2.info.deviceId = d)
    (fun entry => .sessionClosed entry.1 d reason) (fun s => ?_) rfl rfl fun entry _ hd => ?_
  · refine (ExtTreeMap.getElem?_filter' ..).trans ?_
    simp only [ne_eq, decide_not]
    rfl
  · rw [of_decide_eq_true hd]
    rfl

theorem Answering.streamed (ha : Answering blake3 B σ σ') (h : Streamed σ) : Streamed σ' := by
  cases ha with
  | yield => exact h
  | @disconnect s r hr =>
    exact (h.changePeer r.info.deviceId fun peer => peer.suspend.lost σ.shared.clock 0).closes hr rfl
      rfl rfl rfl
  | @invalidate τ m _ _ _ he reason state =>
    have hτ : Streamed τ := by
      obtain ⟨tasks, shared, rfl⟩ := (evolves_spec he).owned
      exact h
    exact (hτ.invalidatePeer m.deviceId reason).quiet rfl rfl [.trustChanged ..] rfl
      (by simp [sessionEntry])

theorem Closing.streamed (hc : Closing blake3 B hand σ σ') (h : Streamed σ) : Streamed σ' := by
  cases hc with
  | delivered _ _ _ he =>
    obtain ⟨tasks, shared, rfl⟩ := (evolves_spec he).owned
    exact h
  | abandoned _ _ he =>
    obtain ⟨tasks, shared, rfl⟩ := (evolves_spec he).owned
    exact h
  | @resolved _ d registered _ a reply result =>
    have hresolved : Streamed (σ.emit (.pairingResolved a d result.1)) :=
      h.quiet rfl rfl [.pairingResolved a d result.1] rfl (by simp [sessionEntry])
    unfold resolvePairing
    cases registered with
    | false => cases reply <;> exact h
    | true => cases reply <;> exact hresolved
  | none | respawned | request | answered | waits | refused => exact h

/-- **Every handled event keeps the session events in step with the registry.** -/
theorem Handled.streamed {s : Step} (hh : Handled blake3 B σ s σ') (hs : Sound σ) (h : Streamed σ) :
    Streamed σ' :=
  (hh.keep (P := fun _ σ => Sound σ ∧ Streamed σ) (fun hm h => ⟨hm.sound h.1, hm.streamed h.2⟩)
    (fun ho h => ⟨ho.sound h.1, ho.streamed h.1 h.2⟩)
    (fun ha h => ⟨ha.sound h.1, ha.streamed h.2⟩) (fun hc h => ⟨hc.sound h.1, hc.streamed h.2⟩)
    ⟨hs, h⟩).2

/-! ### Stopping -/

theorem Streamed.closeRegistries (h : Streamed σ) : Streamed (closeRegistries σ) := by
  have hpairings : Streamed { σ with
      events := σ.events ++ σ.pendingPairings.toList.map
        fun entry => Event.pairingResolved entry.1 entry.2.info.deviceId .cancelled } :=
    h.quiet rfl rfl _ rfl (List.forall_mem_map.mpr fun _ _ => rfl)
  have hall : σ.sessions.toList.filter (fun _ => true) = σ.sessions.toList :=
    List.filter_eq_self.mpr fun _ _ => rfl
  refine hpairings.closesAll (fun _ => true)
    (fun entry => .sessionClosed entry.1 entry.2.info.deviceId .shutdown) (fun s => ?_) rfl ?_
    fun _ _ _ => rfl
  · simp [Daemon.closeRegistries]
  · rw [hall]
    rfl

theorem Streamed.stop (h : Streamed σ) (blake3 : Blake3)
    (script : List (List TaskStep)) :
    Streamed (stop blake3 σ script) ∧ (stop blake3 σ script).sessions = ∅ := by
  obtain ⟨σ₁, σ₂, h₁, h₂, heq⟩ := stop_eq blake3 σ script
  have hdials : Streamed ((stopDials σ).emit .daemonShuttingDown) :=
    h.quiet rfl rfl [.daemonShuttingDown] rfl (by simp [sessionEntry])
  have hfirst : Streamed σ₁ := by
    obtain ⟨tasks, shared, rfl⟩ := (evolves_spec h₁).owned
    exact hdials
  have hclosed := hfirst.closeRegistries
  rw [heq]
  obtain ⟨tasks, shared, rfl⟩ := (evolves_spec h₂).owned
  exact ⟨hclosed, rfl⟩

/-! ### Runs -/

/-- The sessions that are open after the events: inserted when they open, removed when they close. -/
def openSessions (events : List Ipc.Event) : ExtTreeMap SessionId SessionInfo :=
  fold (sessionEntries events)

/-- The sessions that the events have opened, in order. -/
def openedSessions (events : List Ipc.Event) : List SessionId := openedIds (sessionEntries events)

/-- The sessions that the events have closed, in order. -/
def closedSessions (events : List Ipc.Event) : List SessionId := closedIds (sessionEntries events)

/-- Replaying the events gives the registry. Every session that closes is open then and of the device
that is named, every identifier is larger than all before it, and none closes twice. -/
structure Reproduces (events : List Ipc.Event) (sessions : ExtTreeMap SessionId SessionRecord) :
    Prop where
  registry : openSessions events = sessions.map fun _ record => record.info
  closes : ∀ (before after : List Ipc.Event) (s : SessionId) (d : DeviceId)
    (reason : SessionCloseReason), events = before ++ .sessionClosed s d reason :: after →
    ∃ info, (openSessions before)[s]? = some info ∧ info.deviceId = d
  increasing : (openedSessions events).Pairwise (· < ·)
  once : (closedSessions events).Nodup

theorem Streamed.reproduces (h : Streamed σ) : Reproduces σ.events σ.sessions where
  registry := Records.fold_eq h
  closes before after s d reason he := by
    have hentries : sessionEntries σ.events =
        sessionEntries before ++ .closed s d :: sessionEntries after := by
      rw [he, sessionEntries, List.filterMap_append]
      rfl
    exact Records.closes_open h hentries
  increasing := Records.opened_increasing h
  once := Records.closed_nodup h

/-- **The session event stream reproduces the registry**, after every handled event and after the
daemon has stopped; by then every session that was opened has closed exactly once. -/
theorem session_events_reproduce_registry {σ₀ : Daemon} (hbegin : Begins blake3 σ₀)
    (steps : List Step) (script : List (List TaskStep)) :
    let σ := run blake3 σ₀ steps
    let final := stop blake3 σ script
    Reproduces σ.events σ.sessions ∧ Reproduces final.events final.sessions ∧
      final.sessions = ∅ ∧
      ∀ s ∈ openedSessions final.events, (closedSessions final.events).count s = 1 := by
  intro σ final
  obtain ⟨localId, now, hfirst⟩ := hbegin.beginning
  have hstart : Streamed σ₀ := by
    unfold Streamed
    rw [hfirst.events, hfirst.sessions]
    exact Records.nil _
  obtain ⟨-, hσ⟩ : Sound σ ∧ Streamed σ :=
    run_keep (fun _ s hs h => (hs.handled s).streamed hs h) steps hfirst.sound hstart
  obtain ⟨hfinal, hempty⟩ := hσ.stop blake3 script
  refine ⟨hσ.reproduces, hfinal.reproduces, hempty, fun s hs => ?_⟩
  have hnone : s ∉ sessionInfos final.sessions := by
    rw [show final.sessions = ∅ from hempty]
    simp [sessionInfos]
  exact (Records.count_closed hfinal s).trans (if_pos ⟨hs, hnone⟩)

/-- The one session of a sample run is opened, and closed when the daemon stops. -/
theorem sample_session_is_reported : ∃ σ₀, Begins sampleBlake3 σ₀ ∧
    openedSessions (stop sampleBlake3 (run sampleBlake3 σ₀ (sampleInbound 0)) []).events = [1] ∧
    (closedSessions (stop sampleBlake3 (run sampleBlake3 σ₀ (sampleInbound 0)) []).events).count 1 =
      1 := by
  obtain ⟨σ₀, hbegin, hσ⟩ := exists_sampleBegin (.repeated 1) (some sampleJournal)
    (fun σ => openedSessions (stop sampleBlake3 (run sampleBlake3 σ (sampleInbound 0)) []).events =
      [1]) (by decide +kernel)
  have hopened := of_decide_eq_true hσ
  obtain ⟨-, -, -, hclosed⟩ := session_events_reproduce_registry hbegin (sampleInbound 0) []
  exact ⟨σ₀, hbegin, hopened, hclosed 1 (by rw [hopened]; simp)⟩

end Rift.Daemon
