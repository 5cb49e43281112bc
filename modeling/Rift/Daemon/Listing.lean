import Rift.Daemon.Runs

/-! # Paged listings

Two requests list a map in pages that a client follows by their cursors: the decisions of the trust
store, and the connectivity of the peers. They look ahead and name their cursors in different ways,
and the map may change between two pages.

The main results are `executeRequest_isPage` and `paged_listings_are_complete`. -/

namespace Rift.Daemon

open Rift.Lib Rift.Lib.Interference Rift.Core Rift.Ipc Rift.Trust Std

variable (blake3 : Blake3)

/-- The page in an answer. -/
def connectivityPage :
    OperationResult Response → Option (List PeerConnectivityInfo × Option DeviceId)
  | .ok (.peerConnectivity page) => some (page.entries, page.nextCursor)
  | _ => none

theorem executeRequest_isPage (σ : Daemon) (script : List (List TaskStep)) (io : IoOutcome)
    (cursor : Option DeviceId) {limit : ℕ} (hlimit : 0 < limit) :
    ∃ r, connectivityPage
        (exec (executeRequest blake3 (.listPeerConnectivity cursor limit) io) σ script).1 = some r ∧
      Paging.IsPage PeerConnectivityInfo.deviceId
        (σ.connectivity.peers.toList.map fun e => e.2.info e.1 σ.shared.clock)
        cursor (min limit maxPeerPageSize) r := by
  show ∃ r, connectivityPage (listPeerConnectivity σ cursor limit) = some r ∧ _
  have hfound : ((Paging.after σ.connectivity.peers.toList cursor).take
      (min limit maxPeerPageSize + 1)).map (fun e => e.2.info e.1 σ.shared.clock) =
      (Paging.left PeerConnectivityInfo.deviceId (σ.connectivity.peers.toList.map
        fun e => e.2.info e.1 σ.shared.clock) cursor).take (min limit maxPeerPageSize + 1) := by
    have hkey (e : DeviceId × Peer) (_ : e ∈ σ.connectivity.peers.toList) :
        (e.2.info e.1 σ.shared.clock).deviceId = e.1 := rfl
    rw [List.map_take, Paging.left_map hkey]
  refine ⟨_, ?_, Paging.isPage_pop hfound⟩
  unfold listPeerConnectivity
  rw [if_neg (by omega)]
  simp only
  split_ifs <;> rfl

/-- **Paged listing is complete.** A client that follows the cursors of the trust store, or of the
requests for the connectivity of the peers, with any limits, and whatever happens to the store and to
the daemon between two pages. -/
theorem paged_listings_are_complete {fails : OpenStep → Bool} {existing : Option Bytes}
    {s : StoreInner} (hopen : openStore blake3 fails existing = .ok s)
    (calls : ℕ → List (Call × IoOutcome)) (σ : ℕ → Daemon) (script : ℕ → List (List TaskStep))
    (io : ℕ → IoOutcome) (limit : ℕ → ℕ) (hlimit : ∀ i, 1 ≤ limit i) :
    Paging.Complete
        (fun i cursor => ((storeAt blake3 s calls i).listPage cursor (limit i)).toOption)
        (fun i => (storeAt blake3 s calls i).decisions) (fun _ e => trustEntry e.1 e.2)
        TrustEntry.deviceId (fun i => min (limit i) 128) ∧
      Paging.Complete
        (fun i cursor => connectivityPage (exec
          (executeRequest blake3 (.listPeerConnectivity cursor (limit i)) (io i)) (σ i)
            (script i)).1)
        (fun i => (σ i).connectivity.peers) (fun i e => e.2.info e.1 (σ i).shared.clock)
        PeerConnectivityInfo.deviceId (fun i => min (limit i) 128) := by
  have hpos (i : ℕ) : 0 < min (limit i) 128 := Nat.lt_min.mpr ⟨hlimit i, by decide⟩
  have hk (i : ℕ) : Keyed (storeAt blake3 s calls i).decisions :=
    (openStore_keyed hopen).storeAt calls i
  constructor
  · refine Paging.Serves.complete (fun i cursor => ?_) hpos fun i => (hk i).trustEntry_deviceId
    obtain ⟨r, hr, hpage⟩ := listPage_isPage (hk i) cursor (hlimit i)
    exact ⟨r, by rw [hr]; rfl, hpage⟩
  · refine Paging.Serves.complete (fun i cursor => ?_) hpos fun _ _ _ => rfl
    exact executeRequest_isPage blake3 (σ i) (script i) (io i) cursor (hlimit i)

/-! ### Three identities, one a page -/

/-- Three identities are revoked before the first page. The one it ends with, which is the cursor of
the second, is forgotten before that one is asked for. -/
def sampleCalls : ℕ → List (Call × IoOutcome)
  | 0 => [(.revoke (.repeated 2), .ok), (.revoke (.repeated 3), .ok), (.revoke (.repeated 4), .ok)]
  | 1 => [(.forget (.repeated 2), .ok)]
  | _ => []

/-- A journal in which three peers are trusted. -/
def sampleThreePeers : Bytes :=
  (runCalls sampleBlake3 createdStore ([2, 3, 4].map fun b =>
    (.trust { samplePeer with deviceId := .repeated b }, .ok))).file.bytes

/-- The peer that the first page ends with is revoked before the second page is asked for. -/
def sampleDaemons (σ : Daemon) : ℕ → Daemon
  | 0 => σ
  | _ + 1 => run sampleBlake3 σ [.command (.request (.revokePeer (.repeated 2)) 0 .ok) []]

theorem Reachable.sampleDaemons {σ : Daemon} (h : Reachable sampleBlake3 σ) :
    ∀ i, Reachable sampleBlake3 (sampleDaemons σ i)
  | 0 => h
  | _ + 1 => h.after _

/-- Both clients read three pages of one identity each, and follow a cursor that is gone. -/
theorem sample_listings_are_complete : ∃ σ : ℕ → Daemon, (∀ i, Reachable sampleBlake3 (σ i)) ∧
    let store := storeAt sampleBlake3 createdStore sampleCalls
    let decisions := fun i cursor => ((store i).listPage cursor 1).toOption
    let peers := fun i cursor => connectivityPage
      (exec (executeRequest sampleBlake3 (.listPeerConnectivity cursor 1) .ok) (σ i) []).1
    ((Paging.traverse 3 decisions none).map (List.map (List.map TrustEntry.deviceId)) =
        some [[.repeated 2], [.repeated 3], [.repeated 4]] ∧
      (store 1).state (.repeated 2) = none) ∧
    ((Paging.traverse 3 peers none).map (List.map (List.map PeerConnectivityInfo.deviceId)) =
        some [[.repeated 2], [.repeated 3], [.repeated 4]] ∧
      .repeated 2 ∉ (σ 1).connectivity.peers) ∧
    Paging.Complete decisions (fun i => (store i).decisions) (fun _ e => trustEntry e.1 e.2)
      TrustEntry.deviceId (fun _ => min 1 128) ∧
    Paging.Complete peers (fun i => (σ i).connectivity.peers)
      (fun i e => e.2.info e.1 (σ i).shared.clock) PeerConnectivityInfo.deviceId
      (fun _ => min 1 128) := by
  obtain ⟨σ, hbegin, hp⟩ := exists_sampleBegin (.repeated 1) (some sampleThreePeers)
    (fun σ => (Paging.traverse 3 (fun i cursor => connectivityPage (exec
        (executeRequest sampleBlake3 (.listPeerConnectivity cursor 1) .ok) (sampleDaemons σ i)
          []).1) none).map (List.map (List.map PeerConnectivityInfo.deviceId)) =
        some [[.repeated 2], [.repeated 3], [.repeated 4]] ∧
      .repeated 2 ∉ (sampleDaemons σ 1).connectivity.peers) (by decide +kernel)
  have hreach : Reachable sampleBlake3 σ := ⟨σ, [], hbegin, rfl⟩
  have hopen : openStore sampleBlake3 (fun _ => false) none = .ok createdStore := rfl
  exact ⟨sampleDaemons σ, hreach.sampleDaemons, by decide +kernel, of_decide_eq_true hp,
    paged_listings_are_complete sampleBlake3 hopen sampleCalls (sampleDaemons σ) (fun _ => [])
      (fun _ => .ok) (fun _ => 1) fun _ => Nat.one_pos⟩

end Rift.Daemon
