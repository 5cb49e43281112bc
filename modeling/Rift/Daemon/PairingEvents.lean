import Rift.Daemon.Attempts
import Rift.Daemon.Shutdown
import Rift.Lib.Lifecycle

/-! # The pairing events and the registry

A pairing is reported when it is registered and when it is resolved. Between the two it is registered,
except while the supervisor has its result in hand, and unless a decision finds its task gone: the
pairing leaves the registry then, and nothing is reported.

The main results are `Handled.chronicled`, `Chronicled.stop` and `Chronicled.resolved_once`. -/

namespace Rift.Daemon

open Rift.Lib Rift.Lib.Lifecycle Rift.Lib.Interference Rift.Core Rift.Ipc Rift.Session Std
open Rift.Trust hiding Event

variable {blake3 : Blake3} {B : Bounds} {hand : Hand} {σ σ' : Daemon}
  {d : DeviceId} {a : PairingAttemptId}

/-! ### The stream -/

/-- What an event says about the pairings. -/
def pairingEntry : Ipc.Event → Option (Entry PendingPairingInfo DeviceId)
  | .pairingPending info => some (.opened info.attemptId info)
  | .pairingResolved attemptId deviceId _ => some (.closed attemptId deviceId)
  | _ => none

/-- What the events say of pairings. -/
def pairingEntries (events : List Ipc.Event) : List (Entry PendingPairingInfo DeviceId) :=
  events.filterMap pairingEntry

/-- The registered pairings, by what is public of them. -/
def pairingInfos (pairings : ExtTreeMap PairingAttemptId PendingRecord) :
    ExtTreeMap PairingAttemptId PendingPairingInfo :=
  pairings.map fun _ record => record.info

/-- The pairings that are not resolved are the registered ones and that whose result is in hand. -/
def Hand.Keeps (infos unresolved : ExtTreeMap PairingAttemptId PendingPairingInfo) : Hand → Prop
  | .attempt a d true _ =>
    infos[a]? = Option.none ∧ ∃ info : PendingPairingInfo, info.deviceId = d ∧
      unresolved = infos.insert a info
  | _ => unresolved = infos

/-- The events so far keep in step with the registry and what is in hand. -/
def Chronicled (hand : Hand) (σ : Daemon) : Prop :=
  ∃ unresolved, hand.Keeps (pairingInfos σ.pendingPairings) unresolved ∧
    Records PendingPairingInfo.deviceId (pairingEntries σ.events) unresolved σ.nextPairingId

section Keeps

variable {infos infos' unresolved : ExtTreeMap PairingAttemptId PendingPairingInfo}

theorem Hand.Keeps.insert (h : hand.Keeps infos unresolved) (hnone : unresolved[a]? = Option.none)
    (info : PendingPairingInfo) : hand.Keeps (infos.insert a info) (unresolved.insert a info) := by
  unfold Hand.Keeps at h ⊢
  split at h
  · next a' d' _ =>
    obtain ⟨hfree, kept, hd, rfl⟩ := h
    have hne : a ≠ a' := by
      rintro rfl
      simp at hnone
    refine ⟨(Map.insert_ne hne).trans hfree, kept, hd, ExtTreeMap.ext_getElem? fun {k} => ?_⟩
    by_cases hk : a = k
    · subst hk
      rw [Map.insert_ne (Ne.symm hne), ExtTreeMap.getElem?_insert_self,
        ExtTreeMap.getElem?_insert_self]
    · rw [Map.insert_ne hk, ExtTreeMap.getElem?_insert, ExtTreeMap.getElem?_insert, Map.insert_ne hk]
  · rw [h]

theorem Hand.Keeps.registered (h : hand.Keeps infos unresolved) {info : PendingPairingInfo}
    (hinfo : infos[a]? = some info) : unresolved[a]? = some info := by
  unfold Hand.Keeps at h
  split at h
  · next a' d' _ =>
    obtain ⟨hfree, kept, hd, rfl⟩ := h
    have hne : a' ≠ a := by
      rintro rfl
      rw [hfree] at hinfo
      cases hinfo
    exact (Map.insert_ne hne).trans hinfo
  · rw [h]
    exact hinfo

theorem Hand.Keeps.remove (h : hand.Keeps infos unresolved) (ids : List PairingAttemptId)
    (hids : ∀ id ∈ ids, ∃ info, infos[id]? = some info)
    (hinfos : ∀ id : PairingAttemptId, infos'[id]? = if id ∈ ids then Option.none else infos[id]?) :
    ∃ unresolved', hand.Keeps infos' unresolved' ∧ ∀ id : PairingAttemptId,
      unresolved'[id]? = if id ∈ ids then Option.none else unresolved[id]? := by
  unfold Hand.Keeps at h ⊢
  split at h
  · next a' d' _ =>
    obtain ⟨hfree, kept, hd, rfl⟩ := h
    have hkept : a' ∉ ids := by
      intro hmem
      obtain ⟨info, hinfo⟩ := hids a' hmem
      rw [hfree] at hinfo
      cases hinfo
    refine ⟨infos'.insert a' kept, ⟨?_, kept, hd, rfl⟩, fun id => ?_⟩
    · rw [hinfos, if_neg hkept, hfree]
    · by_cases hk : a' = id
      · subst hk
        simp [hkept]
      · rw [Map.insert_ne hk, Map.insert_ne hk, hinfos]
  · exact ⟨infos', rfl, fun id => h ▸ hinfos id⟩

end Keeps

namespace Chronicled

theorem quiet (h : Chronicled hand σ)
    (hp : pairingInfos σ'.pendingPairings = pairingInfos σ.pendingPairings)
    (hn : σ'.nextPairingId = σ.nextPairingId) (new : List Ipc.Event)
    (he : σ'.events = σ.events ++ new) (hnew : ∀ event ∈ new, pairingEntry event = none) :
    Chronicled hand σ' := by
  have hentries : pairingEntries σ'.events = pairingEntries σ.events := by
    unfold pairingEntries
    rw [he, List.filterMap_append, List.filterMap_eq_nil_iff.mpr hnew, List.append_nil]
  unfold Chronicled
  rw [hp, hn, hentries]
  exact h

theorem evolved (h : Chronicled hand σ) (he : Evolved σ σ') : Chronicled hand σ' := by
  obtain ⟨tasks, shared, rfl⟩ := he.owned
  exact h

theorem changePeer (h : Chronicled hand σ) (d : DeviceId) (f : Peer → Peer) :
    Chronicled hand (σ.changePeer d f) := by
  refine h.quiet rfl rfl _ rfl fun event hevent => ?_
  obtain ⟨info, -, rfl⟩ := List.mem_map.mp hevent
  rfl

theorem retireExisting (h : Chronicled hand σ)
    (existing : Existing) :
    Chronicled hand (retireExisting σ existing) := by
  rcases existing with _ | ⟨s, r, closed⟩
  · exact h
  · exact h.quiet rfl rfl [_] rfl (by simp [pairingEntry])

theorem setPending (h : Chronicled hand σ) {record record' : PendingRecord}
    (ha : σ.pendingPairings[a]? = some record) (hi : record'.info = record.info) :
    Chronicled hand (σ.setPending a record') := by
  refine h.quiet (ExtTreeMap.ext_getElem? fun {k} => ?_) rfl [] (List.append_nil _).symm nofun
  simp only [pairingInfos, ExtTreeMap.getElem?_map]
  by_cases hk : a = k
  · subst hk
    simp [Daemon.setPending, ha, hi]
  · rw [Daemon.setPending, Map.insert_ne hk]

theorem closesAll (h : Chronicled hand σ) (p : PairingAttemptId × PendingRecord → Bool)
    (event : PairingAttemptId × PendingRecord → Ipc.Event)
    (hp : ∀ id, σ'.pendingPairings[id]? = σ.pendingPairings[id]?.filter fun r => !p (id, r))
    (hn : σ'.nextPairingId = σ.nextPairingId)
    (he : σ'.events = σ.events ++ (σ.pendingPairings.toList.filter p).map event)
    (hevent : ∀ entry, p entry = true →
      pairingEntry (event entry) = some (.closed entry.1 entry.2.info.deviceId)) :
    Chronicled hand σ' := by
  obtain ⟨unresolved, hkeeps, hrecords⟩ := h
  have hentries : pairingEntries σ'.events = pairingEntries σ.events ++
      (σ.pendingPairings.toList.filter p).map fun entry =>
        .closed entry.1 entry.2.info.deviceId := by
    unfold pairingEntries
    rw [he, List.filterMap_append, List.filterMap_map, ← List.filterMap_eq_map]
    refine congrArg _ (List.filterMap_congr fun entry hentry => ?_)
    exact hevent entry (List.mem_filter.mp hentry).2
  have hopen (id : PairingAttemptId) (record : PendingRecord)
      (hid : σ.pendingPairings[id]? = some record) : unresolved[id]? = some record.info :=
    hkeeps.registered (Map.map_eq_some.mpr ⟨record, hid, rfl⟩)
  obtain ⟨unresolved', hkeeps', hleft⟩ := hkeeps.remove
    ((σ.pendingPairings.toList.filter p).map Prod.fst) (fun id hid => by
      obtain ⟨entry, hmem, rfl⟩ := List.mem_map.mp hid
      exact ⟨_, Map.map_eq_some.mpr ⟨entry.2, (Map.mem_toList_filter.mp hmem).1, rfl⟩⟩)
    (Records.left_of_filter PendingRecord.info p hp)
  refine ⟨unresolved', hkeeps', ?_⟩
  rw [hn, hentries]
  exact hrecords.closeSome hopen p hleft

theorem invalidatePeer (h : Chronicled hand σ) (d : DeviceId) (reason : SessionCloseReason) :
    Chronicled hand (σ.invalidatePeer d reason) := by
  have hreported := h.changePeer d fun peer =>
    { peer with sessionId := none }.failed .notTrusted σ.shared.clock 0
  have hresolved : Chronicled hand { σ.changePeer d (fun peer =>
      { peer with sessionId := none }.failed .notTrusted σ.shared.clock 0) with
      pendingPairings := σ.pendingPairings.filter fun _ record => record.info.deviceId ≠ d
      events := (σ.changePeer d fun peer =>
        { peer with sessionId := none }.failed .notTrusted σ.shared.clock 0).events ++
        (σ.pendingPairings.toList.filter fun entry => entry.2.info.deviceId = d).map
          fun entry => Event.pairingResolved entry.1 d .cancelled } := by
    refine hreported.closesAll (fun entry => entry.2.info.deviceId = d)
      (fun entry => .pairingResolved entry.1 d .cancelled) (fun id => ?_) rfl rfl fun entry hd => ?_
    · refine (ExtTreeMap.getElem?_filter' ..).trans ?_
      simp only [ne_eq, decide_not]
      rfl
    · rw [of_decide_eq_true hd]
      rfl
  exact hresolved.quiet rfl rfl _ rfl (List.forall_mem_map.mpr fun _ _ => rfl)

end Chronicled

/-- **The events keep in step with the registry.** -/
theorem Move.chronicled (hm : Move blake3 B hand σ σ') (h : Chronicled hand σ) :
    Chronicled hand σ' := by
  cases hm with
  | act => exact h.evolved (taskStep_spec σ _).evolved
  | manage hi =>
    obtain ⟨-, peers, rfl⟩ := mem_of_insertPeer hi
    exact h
  | resolved => exact h.changePeer _ _
  | fail => exact h.changePeer _ _
  | @dial _ d' => exact h.changePeer d' Peer.dialling
  | @pend _ _ pending _ _ _ _ _ origin =>
    obtain ⟨unresolved, hkeeps, hrecords⟩ := h
    have hnone : unresolved[σ.nextPairingId]? = none := by
      refine Option.eq_none_iff_forall_ne_some.mpr fun info hinfo => ?_
      exact Nat.lt_irrefl _ (hrecords.lt_of_opened (hrecords.opened_of_open hinfo))
    refine ⟨unresolved.insert σ.nextPairingId (σ.pendingRecord pending origin).info, ?_, ?_⟩
    · have hkept := hkeeps.insert hnone (σ.pendingRecord pending origin).info
      unfold pairingInfos at hkept
      rw [← Map.map_insert] at hkept
      exact hkept
    · unfold pairingEntries
      rw [addPending, List.filterMap_append]
      exact hrecords.opened (σ.pendingRecord pending origin).info
  | @openSession _ _ existing c _ _ _ _ _ origin =>
    have hopened := (h.retireExisting existing).changePeer c.remoteDeviceId fun peer =>
      peer.connected (retireExisting σ existing).nextSessionId
        (retireExisting σ existing).shared.clock
    exact hopened.quiet rfl rfl [.sessionOpened _] rfl (by simp [pairingEntry])
  | hint | close | drop | resume | coalesce | commitFails => exact h

theorem Opening.chronicled {s : Step} (ho : Opening σ s hand σ') (hq : Attempted σ)
    (h : Chronicled .none σ) : Chronicled hand σ' := by
  obtain ⟨unresolved, rfl, hrecords⟩ := h
  cases ho with
  | @pairingJoined id _ a pending commands result reply ht =>
    cases hr : σ.pendingPairings[a]? with
    | none =>
      have hnot : σ.pendingPairings.contains a = false := by
        rw [ExtTreeMap.contains_eq_isSome_getElem?, hr]
        rfl
      have hsame : σ.pendingPairings.erase a = σ.pendingPairings := by
        refine ExtTreeMap.ext_getElem? fun {k} => ?_
        by_cases hk : a = k
        · subst hk
          simp [hr]
        · exact Map.erase_ne hk
      rw [hnot, hsame]
      exact ⟨_, rfl, hrecords⟩
    | some record =>
      have hyes : σ.pendingPairings.contains a = true := by
        rw [ExtTreeMap.contains_iff_mem]
        exact Map.mem_iff_exists.mpr ⟨record, hr⟩
      obtain ⟨id', t, pending', ht', hk, hd⟩ := hq.registered a record hr
      obtain rfl := hq.unique id id' _ t a pending pending' ht ht' rfl hk
      cases ht.symm.trans ht'
      cases hk
      rw [hyes]
      refine ⟨_, ⟨?_, record.info, hd.symm, ?_⟩, hrecords⟩
      · simp [pairingInfos]
      · refine ExtTreeMap.ext_getElem? fun {k} => ?_
        by_cases hk : a = k
        · subst hk
          simp [pairingInfos, hr]
        · simp only [pairingInfos, Map.insert_ne hk, ExtTreeMap.getElem?_map, Map.erase_ne hk]
  | @sessionJoined id _ s c failure ht hmem =>
    have herased : Chronicled .none { σ with tasks := σ.tasks.erase id } := ⟨_, rfl, hrecords⟩
    have hended : Chronicled .none ({ σ with tasks := σ.tasks.erase id }.changePeer c.remoteDeviceId
        fun peer => peer.ended failure σ.shared.clock σ.sample) :=
      herased.changePeer _ _
    exact hended.quiet rfl rfl [.sessionClosed ..] rfl (by simp [pairingEntry])
  | command command script =>
    refine ⟨_, ?_, hrecords⟩
    unfold Command.hand
    split <;> rfl
  | idle | accepted | workerJoined | clientJoined | staleJoined | cancelledJoined | dialJoined
  | due => exact ⟨_, rfl, hrecords⟩

theorem Answering.chronicled (ha : Answering blake3 B σ σ') (h : Chronicled hand σ) :
    Chronicled hand σ' := by
  cases ha with
  | yield => exact h
  | @disconnect s r hr =>
    exact (h.changePeer r.info.deviceId fun peer => peer.suspend.lost σ.shared.clock 0).quiet rfl rfl
      [.sessionClosed ..] rfl (by simp [pairingEntry])
  | @invalidate τ m _ _ _ he reason state =>
    have hτ : Chronicled hand τ :=
      Chronicled.evolved (σ := σ.setStore (commit blake3 σ.shared.store m none _).2) h
        (evolves_spec he)
    exact (hτ.invalidatePeer m.deviceId reason).quiet rfl rfl [.trustChanged ..] rfl
      (by simp [pairingEntry])

theorem Closing.chronicled (hc : Closing blake3 B hand σ σ') (hb : ∀ a, ¬ B.abandons a)
    (h : Chronicled hand σ) : Chronicled .none σ' := by
  cases hc with
  | @delivered _ τ a record accepted ha _ _ he =>
    obtain ⟨unresolved, rfl, hrecords⟩ := h
    have hσ : Chronicled .none σ := ⟨_, rfl, hrecords⟩
    have hset : Chronicled .none (σ.setPending a { record with resolving := some accepted }) :=
      hσ.setPending ha rfl
    have hτ : Chronicled .none τ := hset.evolved (evolves_spec he)
    exact hτ
  | abandoned _ _ _ _ habandons => exact absurd habandons (hb _)
  | @resolved _ d registered _ a reply result =>
    obtain ⟨unresolved, hkeeps, hrecords⟩ := h
    unfold resolvePairing
    cases registered with
    | false => cases reply <;> exact ⟨_, hkeeps, hrecords⟩
    | true =>
      obtain ⟨hfree, info, rfl, rfl⟩ := hkeeps
      have hresolved : Chronicled .none (σ.emit (.pairingResolved a info.deviceId result.1)) := by
        refine ⟨_, rfl, ?_⟩
        have hclosed := hrecords.closed (ExtTreeMap.getElem?_insert_self (k := a))
        unfold pairingEntries
        rw [emit, List.filterMap_append]
        have hback : ((pairingInfos σ.pendingPairings).insert a info).erase a =
            pairingInfos σ.pendingPairings := by
          refine ExtTreeMap.ext_getElem? fun {k} => ?_
          by_cases hk : a = k
          · subst hk
            simp [hfree]
          · rw [Map.erase_ne hk, Map.insert_ne hk]
        rw [hback] at hclosed
        exact hclosed
      cases reply <;> exact hresolved
  | none | respawned | request | answered | waits | refused =>
    obtain ⟨unresolved, rfl, hrecords⟩ := h
    exact ⟨_, rfl, hrecords⟩

/-- **Every handled event keeps the pairing events in step with the registry**, unless a pairing is
abandoned. -/
theorem Handled.chronicled {s : Step} (hh : Handled blake3 B σ s σ') (hb : ∀ a, ¬ B.abandons a)
    (hreg : Regular .none σ) (h : Chronicled .none σ) : Chronicled .none σ' :=
  (hh.keep (P := fun hand σ => Regular hand σ ∧ Chronicled hand σ)
    (fun hm h => ⟨hm.regular h.1, hm.chronicled h.2⟩)
    (fun ho h => ⟨ho.regular h.1, ho.chronicled h.1.attempted h.2⟩)
    (fun ha h => ⟨ha.regular h.1, ha.chronicled h.2⟩)
    (fun hc h => ⟨hc.regular h.1, hc.chronicled hb h.2⟩) ⟨hreg, h⟩).2

/-! ### Stopping -/

theorem Chronicled.closeRegistries (h : Chronicled .none σ) :
    Chronicled .none (closeRegistries σ) := by
  have hall : σ.pendingPairings.toList.filter (fun _ => true) = σ.pendingPairings.toList :=
    List.filter_eq_self.mpr fun _ _ => rfl
  have hresolved : Chronicled .none { σ with
      pendingPairings := ∅
      events := σ.events ++ σ.pendingPairings.toList.map
        fun entry => Event.pairingResolved entry.1 entry.2.info.deviceId .cancelled } := by
    refine h.closesAll (fun _ => true)
      (fun entry => .pairingResolved entry.1 entry.2.info.deviceId .cancelled) (fun id => ?_) rfl ?_
      fun _ _ => rfl
    · simp
    · rw [hall]
  exact hresolved.quiet rfl rfl _ rfl (List.forall_mem_map.mpr fun _ _ => rfl)

theorem Chronicled.stop (h : Chronicled .none σ) (blake3 : Blake3)
    (script : List (List TaskStep)) :
    Chronicled .none (stop blake3 σ script) ∧ (stop blake3 σ script).pendingPairings = ∅ := by
  obtain ⟨σ₁, σ₂, h₁, h₂, heq⟩ := stop_eq blake3 σ script
  have hdials : Chronicled .none ((stopDials σ).emit .daemonShuttingDown) :=
    h.quiet rfl rfl [.daemonShuttingDown] rfl (by simp [pairingEntry])
  have hclosed := (hdials.evolved (evolves_spec h₁)).closeRegistries
  rw [heq]
  obtain ⟨tasks, shared, rfl⟩ := (evolves_spec h₂).owned
  exact ⟨hclosed, rfl⟩

/-! ### What was announced and resolved -/

/-- How often the pairing was reported as resolved. -/
def resolutions (events : List Ipc.Event) (a : PairingAttemptId) : ℕ :=
  events.countP fun
    | .pairingResolved attemptId _ _ => attemptId = a
    | _ => false

/-- The pairing was reported as waiting for a decision. -/
def Announced (events : List Ipc.Event) (a : PairingAttemptId) : Prop :=
  ∃ info, .pairingPending info ∈ events ∧ info.attemptId = a

theorem count_closedIds_pairingEntries (events : List Ipc.Event) (a : PairingAttemptId) :
    (closedIds (pairingEntries events)).count a = resolutions events a := by
  unfold closedIds pairingEntries resolutions
  rw [List.filterMap_filterMap, List.count, List.countP_filterMap]
  refine List.countP_congr fun event _ => ?_
  cases event <;> simp [pairingEntry, Entry.closedId]

theorem mem_openedIds_pairingEntries {events : List Ipc.Event} :
    a ∈ openedIds (pairingEntries events) ↔ Announced events a := by
  unfold openedIds pairingEntries Announced
  rw [List.filterMap_filterMap, List.mem_filterMap]
  constructor
  · rintro ⟨event, hmem, heq⟩
    cases event with
    | pairingPending info => exact ⟨info, hmem, by simpa [pairingEntry, Entry.openedId] using heq⟩
    | _ => simp [pairingEntry, Entry.openedId] at heq
  · rintro ⟨info, hmem, rfl⟩
    exact ⟨_, hmem, rfl⟩

/-- **A pairing that was announced is registered, or was resolved exactly once.** -/
theorem Chronicled.resolved_once (h : Chronicled .none σ) (ha : Announced σ.events a) :
    a ∈ σ.pendingPairings ∧ resolutions σ.events a = 0 ∨
      a ∉ σ.pendingPairings ∧ resolutions σ.events a = 1 := by
  obtain ⟨unresolved, rfl, hrecords⟩ := h
  have hcount := hrecords.count_closed a
  have hmem : a ∈ pairingInfos σ.pendingPairings ↔ a ∈ σ.pendingPairings := by
    simp [pairingInfos]
  rw [count_closedIds_pairingEntries] at hcount
  simp only [hmem] at hcount
  have hopened := mem_openedIds_pairingEntries.mpr ha
  by_cases hreg : a ∈ σ.pendingPairings
  · exact Or.inl ⟨hreg, by simpa [hreg] using hcount⟩
  · exact Or.inr ⟨hreg, by simpa [hreg, hopened] using hcount⟩

end Rift.Daemon
