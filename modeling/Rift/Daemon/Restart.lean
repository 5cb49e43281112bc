import Rift.Daemon.Runs

/-! # Starting again

A daemon manages every trusted peer of its journal from the start, and refuses to start if there are
more of them than it can manage.

The main results are `loadEntries_size` and `start_ne_capacity`. -/

namespace Rift.Daemon

open Rift.Lib Rift.Core Rift.Ipc Rift.Session Std
open Rift.Trust hiding Event

variable {blake3 : Blake3} {localId d : DeviceId} {now : ℕ}
  {entry : TrustEntry} {entries : List TrustEntry} {scheduler scheduler' : Scheduler}

/-- The trusted peers can all be managed. -/
def Affordable (localId : DeviceId) (decisions : Decisions) : Prop :=
  ∀ devices : Finset DeviceId, (∀ d ∈ devices, d ≠ localId ∧
    ∃ peer, decisions[d]? = some (.trusted peer)) → devices.card ≤ maxManagedPeers

theorem Affordable.mono {decisions decisions' : Decisions} (h : Affordable localId decisions)
    (hd : ∀ (d : DeviceId) (peer : TrustedPeer), decisions'[d]? = some (.trusted peer) →
      decisions[d]? = some (.trusted peer)) :
    Affordable localId decisions' := by
  refine fun devices hall => h devices fun d hmem => ?_
  obtain ⟨hne, peer, hpeer⟩ := hall d hmem
  exact ⟨hne, peer, hd d peer hpeer⟩

/-! ### Loading the entries -/

theorem Scheduler.insert_size (h : scheduler.insert d now = some scheduler')
    (hs : scheduler.peers.size ≤ maxManagedPeers) : scheduler'.peers.size ≤ maxManagedPeers := by
  unfold Scheduler.insert at h
  split_ifs at h with hc hm
  · cases h
    exact hs
  · cases h
    have hnew : d ∉ scheduler.peers := fun hd => hc (ExtTreeMap.contains_iff_mem.mpr hd)
    rw [Map.size_insert_of_not_mem hnew]
    omega

theorem loadEntry_size (h : loadEntry localId now scheduler entry = .ok scheduler')
    (hs : scheduler.peers.size ≤ maxManagedPeers) : scheduler'.peers.size ≤ maxManagedPeers := by
  cases entry with
  | revoked =>
    cases h
    exact hs
  | trusted peer =>
    unfold loadEntry at h
    simp only at h
    split_ifs at h with hl
    · cases h
      exact hs
    · cases hi : scheduler.insert peer.deviceId now with
      | none =>
        rw [hi] at h
        cases h
      | some next =>
        rw [hi] at h
        cases h
        exact Scheduler.insert_size hi hs

/-- **No more peers are managed than can be.** -/
theorem loadEntries_size (h : entries.foldlM (loadEntry localId now) scheduler = .ok scheduler')
    (hs : scheduler.peers.size ≤ maxManagedPeers) : scheduler'.peers.size ≤ maxManagedPeers := by
  induction entries generalizing scheduler with
  | nil =>
    cases h
    exact hs
  | cons entry entries ih =>
    rw [List.foldlM_cons] at h
    cases hload : loadEntry localId now scheduler entry with
    | error e =>
      rw [hload] at h
      cases h
    | ok next =>
      rw [hload] at h
      exact ih h (loadEntry_size hload hs)

theorem loadEntry_isOk {devices : Finset DeviceId} (hcard : devices.card ≤ maxManagedPeers)
    (hpeers : ∀ d ∈ scheduler.peers, d ∈ devices)
    (hentry : ∀ d, Manages localId d entry → d ∈ devices) :
    ∃ scheduler', loadEntry localId now scheduler entry = .ok scheduler' := by
  cases entry with
  | revoked => exact ⟨_, rfl⟩
  | trusted peer =>
    unfold loadEntry Scheduler.insert
    simp only
    split_ifs with hl hc hm
    · exact ⟨_, rfl⟩
    · exact ⟨_, rfl⟩
    · -- The peers and the new one are too many for the set.
      exfalso
      have hnew : peer.deviceId ∉ Map.keySet scheduler.peers := fun hd =>
        hc (ExtTreeMap.contains_iff_mem.mpr (Map.mem_iff_exists.mpr (Map.mem_keySet.mp hd)))
      have hsub : insert peer.deviceId (Map.keySet scheduler.peers) ⊆ devices := by
        intro d hd
        rcases Finset.mem_insert.mp hd with rfl | hd
        · exact hentry _ ⟨rfl, hl⟩
        · exact hpeers d (Map.mem_iff_exists.mpr (Map.mem_keySet.mp hd))
      have hle := Finset.card_le_card hsub
      rw [Finset.card_insert_of_notMem hnew, Map.card_keySet, hm] at hle
      omega
    · exact ⟨_, rfl⟩

theorem loadEntries_isOk {devices : Finset DeviceId} (hcard : devices.card ≤ maxManagedPeers)
    (hpeers : ∀ d ∈ scheduler.peers, d ∈ devices)
    (hentries : ∀ entry ∈ entries, ∀ d, Manages localId d entry → d ∈ devices) :
    ∃ scheduler', entries.foldlM (loadEntry localId now) scheduler = .ok scheduler' := by
  induction entries generalizing scheduler with
  | nil => exact ⟨scheduler, rfl⟩
  | cons entry entries ih =>
    obtain ⟨hentry, hrest⟩ := List.forall_mem_cons.mp hentries
    obtain ⟨next, hnext⟩ := loadEntry_isOk hcard hpeers hentry
    rw [List.foldlM_cons, hnext]
    refine ih (fun d hd => ?_) hrest
    obtain ⟨p, hp⟩ := Map.mem_iff_exists.mp hd
    rw [loadEntry_spec hnext] at hp
    rcases Option.or_eq_some_iff.mp hp with hp | ⟨-, hp⟩
    · exact hpeers d (Map.mem_iff_exists.mpr ⟨p, hp⟩)
    · split_ifs at hp with hm
      exact hentry d hm

/-! ### Starting -/

/-- What a daemon says that has too many peers to manage. -/
def capacityExceeded : DaemonError :=
  .invalidConfiguration "trusted peer connectivity capacity exceeded"

theorem bind_ne_error {e : DaemonError} {check rest : Except DaemonError Unit}
    (hcheck : check ≠ .error e) (hrest : rest ≠ .error e) : (check >>= fun _ => rest) ≠ .error e := by
  cases check with
  | error e' => exact hcheck
  | ok _ => exact hrest

theorem validateNonzeroDuration_ne {duration : ℕ} {name : String}
    (hname : .invalidConfiguration name ≠ capacityExceeded) :
    validateNonzeroDuration duration name ≠ .error capacityExceeded := by
  unfold validateNonzeroDuration
  split_ifs
  · exact fun h => hname (Except.error.inj h)
  · nofun

theorem validateCount_ne {value maximum : ℕ} {name : String}
    (hname : .invalidConfiguration name ≠ capacityExceeded) :
    validateCount value maximum name ≠ .error capacityExceeded := by
  unfold validateCount
  split_ifs
  · exact fun h => hname (Except.error.inj h)
  · nofun

theorem validate_ne_capacityExceeded (config : DaemonConfig) :
    config.validate ≠ .error capacityExceeded := by
  unfold DaemonConfig.validate
  iterate 4 refine bind_ne_error (validateNonzeroDuration_ne (by decide)) ?_
  iterate 4 refine bind_ne_error (validateCount_ne (by decide)) ?_
  exact validateCount_ne (by decide)

variable {fails : OpenStep → Bool} {config : DaemonConfig} {existing : Option Bytes}
  {entropy : Option UInt32} {lookup : DeviceId → Except TransportFailure Bool}

theorem start_cases :
    (∃ e, e ≠ capacityExceeded ∧
      start blake3 fails config localId existing now entropy lookup = .error e) ∨
    ∃ store, openStore blake3 fails existing = .ok store ∧
      (start blake3 fails config localId existing now entropy lookup).map Daemon.connectivity =
        (store.listPages maxPeerPageSize).foldlM (loadEntry localId now) (Scheduler.new now) := by
  unfold start
  cases hv : config.validate with
  | error e =>
    refine Or.inl ⟨e, ?_, rfl⟩
    rintro rfl
    exact validate_ne_capacityExceeded config hv
  | ok _ =>
    simp only [bind, Except.bind]
    split_ifs with hlen
    · exact Or.inl ⟨_, by decide, rfl⟩
    cases openStore blake3 fails existing with
    | error e => exact Or.inl ⟨.trust e, by simp [capacityExceeded], rfl⟩
    | ok store =>
      refine Or.inr ⟨store, rfl, ?_⟩
      simp only [Except.mapError]
      cases (store.listPages maxPeerPageSize).foldlM (loadEntry localId now) (Scheduler.new now) <;>
        rfl

theorem start_size {σ : Daemon}
    (h : start blake3 fails config localId existing now entropy lookup = .ok σ) :
    σ.connectivity.peers.size ≤ maxManagedPeers := by
  rcases start_cases with ⟨e, -, he⟩ | ⟨store, -, hload⟩
  · rw [h] at he
    cases he
  · rw [h] at hload
    exact loadEntries_size hload.symm (Nat.zero_le _)

/-- **A daemon starts** over every journal that trusts no more peers than it can manage. -/
theorem start_ne_capacity {bytes : Bytes}
    (h : ∀ r, replay blake3 bytes = .ok r → Affordable localId r.decisions) :
    start blake3 fails config localId (some bytes) now entropy lookup ≠ .error capacityExceeded := by
  intro hstart
  rcases start_cases with ⟨e, hne, he⟩ | ⟨store, hopen, hload⟩
  · exact hne (Except.error.inj (he.symm.trans hstart))
  obtain ⟨-, r, hr, hstore⟩ := openStore_some_ok hopen
  have hdecisions : store.decisions = r.decisions := by rw [hstore]; rfl
  let devices := (Map.keySet store.decisions).filter fun d =>
    store.state d = some .trusted ∧ d ≠ localId
  have hcard : devices.card ≤ maxManagedPeers := by
    refine h r hr devices fun d hd => ?_
    obtain ⟨-, htrusted, hne⟩ := Finset.mem_filter.mp hd
    rw [← hdecisions]
    exact ⟨hne, state_eq_trusted_iff.mp htrusted⟩
  have hentries (entry : TrustEntry) (hentry : entry ∈ store.listPages maxPeerPageSize)
      (d : DeviceId) (hm : Manages localId d entry) : d ∈ devices := by
    have hd := (mem_listPages (openStore_keyed hopen)).mp ⟨entry, hentry, hm⟩
    obtain ⟨peer, hpeer⟩ := state_eq_trusted_iff.mp hd.1
    exact Finset.mem_filter.mpr ⟨Map.mem_keySet.mpr ⟨_, hpeer⟩, hd⟩
  have hnone : ∀ d ∈ (Scheduler.new now).peers, d ∈ devices := fun d hd => by simp [Scheduler.new] at hd
  obtain ⟨scheduler, hok⟩ := loadEntries_isOk hcard hnone hentries
  rw [hstart, hok] at hload
  cases hload

end Rift.Daemon
