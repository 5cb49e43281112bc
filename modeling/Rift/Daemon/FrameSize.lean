import Rift.Daemon.Listing
import Rift.Ipc.Encoding
import Rift.Protocol.FileName

/-! # Every message fits a frame

The writer of a client ends, and the client with it, if a message does not fit the frame limit. The
names in a message come from peers and may be escaped to six times their size, and up to 128 of them
go into one answer. The limit is met by the largest answer there is.

The main results are `boundedMessage_size`, `executeRequest_within` and
`every_message_fits_a_frame`. -/

namespace Rift.Daemon

open Rift.Lib Rift.Lib.Interference Rift.Lib.Json Rift.Core Rift.Ipc Rift.Trust Rift.Protocol Std

/-! ### Error texts -/

/-- The longest text of an error, in bytes. -/
def errorMessageMaxBytes : ℕ := 512

/-- The text up to byte `boundary`, or up to the last character boundary before it. -/
def cutAt : ℕ → List Char → List Char
  | 0, _ => []
  | boundary + 1, text =>
    match splitAtByte (boundary + 1) text with
    | some (before, _) => before
    | none => cutAt boundary text

/-- The text cut to the longest allowed, at the end of a character. -/
def boundedMessage (message : String) : String :=
  if message.utf8ByteSize ≤ errorMessageMaxBytes then message
  else String.ofList (cutAt errorMessageMaxBytes message.toList)

theorem cutAt_size (text : List Char) :
    ∀ boundary, (utf8Bytes (cutAt boundary text)).length ≤ boundary
  | 0 => Nat.le_refl 0
  | boundary + 1 => by
    rw [cutAt]
    split
    · rename_i before after hsplit
      exact (splitAtByte_eq_some.mp hsplit).2.le
    · exact (cutAt_size text boundary).trans (Nat.le_succ boundary)

theorem boundedMessage_size (message : String) :
    (boundedMessage message).utf8ByteSize ≤ errorMessageMaxBytes := by
  unfold boundedMessage
  split_ifs with hsize
  · exact hsize
  · rw [← length_utf8Bytes, String.toList_ofList]
    exact cutAt_size _ _

/-! ### What the daemon sends -/

/-- The answers of a daemon within its hard bounds. -/
abbrev ResponseWithin : Response → Prop :=
  Response.Within hardMaxActiveSessions hardMaxPendingPairings maxPeerPageSize

/-- The messages that a client gets. A request that the daemon no longer takes is answered with a
fixed text. -/
inductive Sends : ServerMessage → Prop
  | authenticated {version : ℕ} (hv : version < 2 ^ 16) : Sends (.authenticated version)
  | response {id : ℕ} (hid : id < 2 ^ 64) {result : Response} (hr : ResponseWithin result) :
    Sends (.response id result)
  | error {id : ℕ} (hid : id < 2 ^ 64) (code : ErrorCode) (message : String) :
    Sends (.error id ⟨code, boundedMessage message⟩)
  | stopped {id : ℕ} (hid : id < 2 ^ 64) :
    Sends (.error id ⟨.shuttingDown, "daemon is shutting down"⟩)
  | event {event : Ipc.Event} (he : event.Within) : Sends (.event event)

theorem Sends.length_json_le {escape : UInt8 → Bytes} (h : EscapesTo escape 6)
    {message : ServerMessage} (hm : Sends message) :
    (message.json escape).length ≤ maxIpcFrameLen := by
  cases hm with
  | authenticated hv =>
    have hversion := length_u32_le (hv.trans (by decide))
    exact (length_tagged_one_le h (by decide) (by decide) hversion).trans (by decide)
  | response hid hr =>
    have hnumber := length_u64_le hid
    have hresult := Response.length_json_le h hr
    refine (length_tagged_le h (by decide) rfl).trans ?_
    simp only [List.map_cons, List.map_nil, List.sum_cons, List.sum_nil, maxIpcFrameLen]
    omega
  | error hid code text => exact length_error_json_le h hid (boundedMessage_size text)
  | stopped hid => exact length_error_json_le h hid (by decide)
  | event he =>
    have hevent := Event.length_json_le h he
    exact (length_tagged_one_le h (by decide) (by decide) hevent).trans (by decide)

/-! ### What it reads off its state -/

/-- A daemon within its hard bounds, whose numbers fit their types. -/
structure Presentable (σ : Daemon) : Prop where
  names : Named σ.config.deviceName σ.config.platform
  decisions : ∀ (d : DeviceId) (peer : TrustedPeer),
    σ.shared.store.decisions[d]? = some (.trusted peer) → Named peer.deviceName peer.platform
  sessions : σ.sessions.size ≤ hardMaxActiveSessions
  session : ∀ (id : SessionId) (record : SessionRecord), σ.sessions[id]? = some record →
    id < 2 ^ 64 ∧ record.info.Within
  pairings : σ.pendingPairings.size ≤ hardMaxPendingPairings
  pairing : ∀ (a : PairingAttemptId) (record : PendingRecord),
    σ.pendingPairings[a]? = some record → record.info.Within
  peers : ∀ (d : DeviceId) (peer : Peer), σ.connectivity.peers[d]? = some peer →
    (∀ id ∈ peer.sessionId, id < 2 ^ 64) ∧ peer.attempt < 2 ^ 32

namespace Presentable

variable {σ : Daemon} (h : Presentable σ)

include h

theorem status : (status σ).Within :=
  ⟨show "0.1.0".utf8ByteSize ≤ 32 by decide, h.names, (Nat.min_le_right _ _).trans_lt (by decide),
    (Nat.min_le_right _ _).trans_lt (by decide)⟩

theorem listPeers {after : Option DeviceId} {limit : ℕ} {response : Response}
    (hr : listPeers σ after limit = .ok response) : ResponseWithin response := by
  unfold Daemon.listPeers StoreInner.listPage at hr
  by_cases hzero : limit = 0
  · simp [hzero] at hr
  · have hpos : min limit maxPeerPageSize ≠ 0 := by simp [hzero, maxPeerPageSize]
    simp only [if_neg hzero, if_neg hpos, Except.ok.injEq] at hr
    subst hr
    refine ⟨?_, fun info hinfo => ?_⟩
    · rw [List.length_map]
      exact (List.length_take_le _ _).trans (Nat.min_le_right _ _)
    · obtain ⟨entry, hentry, rfl⟩ := List.mem_map.mp hinfo
      obtain ⟨⟨d, decision⟩, hdecision, rfl⟩ := List.mem_map.mp (List.mem_of_mem_take hentry)
      rw [Paging.after_eq_left] at hdecision
      have hmem := (Paging.mem_left.mp (List.mem_of_mem_take hdecision)).1
      rw [ExtTreeMap.mem_toList_iff_getElem?_eq_some] at hmem
      cases decision with
      | trusted peer =>
        obtain ⟨hname, hplatform⟩ := h.decisions d peer hmem
        exact ⟨fun name hn => Option.mem_some.mp hn ▸ hname,
          fun platform hn => Option.mem_some.mp hn ▸ hplatform⟩
      | revoked => exact ⟨nofun, nofun⟩

theorem info {d : DeviceId} {peer : Peer} (hp : σ.connectivity.peers[d]? = some peer) (now : ℕ) :
    (peer.info d now).Within := by
  obtain ⟨hsession, hattempt⟩ := h.peers d peer hp
  refine ⟨hsession, hattempt, fun ms hms => ?_⟩
  obtain ⟨due, -, rfl⟩ := Option.map_eq_some_iff.mp hms
  exact (Nat.min_le_right _ _).trans_lt (by decide)

theorem connectivityPage {response : Response} {after : Option DeviceId} {limit : ℕ}
    {r : List PeerConnectivityInfo × Option DeviceId}
    (hr : connectivityPage (.ok response) = some r)
    (hpage : Paging.IsPage PeerConnectivityInfo.deviceId
      (σ.connectivity.peers.toList.map fun e => e.2.info e.1 σ.shared.clock)
      after (min limit maxPeerPageSize) r) : ResponseWithin response := by
  cases response with
  | peerConnectivity page =>
    obtain rfl := Option.some.inj hr
    have hentries := hpage.entries
    simp only at hentries
    refine ⟨?_, fun info hi => ?_⟩
    · rw [hentries]
      exact (List.length_take_le _ _).trans (Nat.min_le_right _ _)
    · rw [hentries] at hi
      have hlisted := (Paging.mem_left.mp (List.mem_of_mem_take hi)).1
      obtain ⟨⟨d, peer⟩, hpeer, rfl⟩ := List.mem_map.mp hlisted
      exact h.info (ExtTreeMap.mem_toList_iff_getElem?_eq_some.mp hpeer) _
  | _ => cases hr

theorem sessionInfos : ResponseWithin (.sessions (σ.sessions.values.map SessionRecord.info)) := by
  refine ⟨?_, fun info hi => ?_⟩
  · rw [List.length_map, Map.length_values]
    exact h.sessions
  · obtain ⟨record, hrecord, rfl⟩ := List.mem_map.mp hi
    obtain ⟨id, hid⟩ := Map.mem_values.mp hrecord
    exact (h.session id record hid).2

theorem pairingInfos :
    ResponseWithin (.pendingPairings
      (σ.pendingPairings.values.map (·.currentInfo σ.shared.clock))) := by
  refine ⟨?_, fun info hi => ?_⟩
  · rw [List.length_map, Map.length_values]
    exact h.pairings
  · obtain ⟨record, hrecord, rfl⟩ := List.mem_map.mp hi
    obtain ⟨a, ha⟩ := Map.mem_values.mp hrecord
    obtain ⟨hattempt, hnames, hcode, -⟩ := h.pairing a record ha
    exact ⟨hattempt, hnames, hcode, (Nat.min_le_right _ _).trans_lt (by decide)⟩

end Presentable

variable {blake3 : Blake3}

set_option mvcgen.warning false

/-- An answer is as bounded as the states it is read off: the one in which the request is taken up,
and the one the tasks make of it until the trust store is read. -/
theorem executeRequest_within {σ : Daemon}
    (h : ∀ τ, Evolves (taskStep blake3) (fun _ => True) σ τ → Presentable τ) (request : Request)
    (io : IoOutcome) (script : List (List TaskStep)) :
    ∀ r w', (executeRequest blake3 request io).run ⟨σ, script⟩ = (r, w') →
      ∀ response, r = .ok response → ResponseWithin response := by
  have hσ := h σ (Evolves.refl σ)
  refine run_of_triple ?_
  mvcgen [-executeRequest_run, executeRequest, mutate, invalidate]
  case vc1.h_1 hw =>
    subst hw
    rintro _ ⟨⟩
    exact hσ.status
  case vc2.h_2 hw =>
    subst hw
    exact fun response => (h _ ⟨_, fun _ _ => trivial, rfl⟩).listPeers
  case vc3.h_3 after limit _ _ hw =>
    subst hw
    intro response hr
    rcases Nat.eq_zero_or_pos limit with rfl | hlimit
    · cases hr
    · obtain ⟨r, hpage, hr'⟩ := executeRequest_isPage blake3 σ script io after hlimit
      change Daemon.connectivityPage (listPeerConnectivity σ after limit) = some r at hpage
      rw [hr] at hpage
      exact hσ.connectivityPage hpage hr'
  case vc4.h_4 hw =>
    subst hw
    rintro _ ⟨⟩
    exact hσ.sessionInfos
  case vc5.h_5 hw =>
    subst hw
    rintro _ ⟨⟩
    exact hσ.pairingInfos
  case vc11.h_8.h_2 hw record hs =>
    subst hw
    rintro _ ⟨⟩
    exact (hσ.session _ record hs).1
  all_goals
    rintro _ ⟨⟩
  all_goals exact trivial

/-- **Every message fits a frame**, if escaping takes at most six bytes for one. -/
theorem every_message_fits_a_frame (blake3 : Blake3)
    {escape : UInt8 → Bytes} (h : EscapesTo escape 6) :
    (∀ message, Sends message → (message.json escape).length ≤ 262144 ∧
      encodeJsonFrame escape message =
        .ok (toBE 4 (message.json escape).length ++ message.json escape)) ∧
      ∀ (σ : Daemon) (request : Request) (io : IoOutcome) (script : List (List TaskStep))
        (response : Response) (id : ℕ),
        (∀ τ, Evolves (taskStep blake3) (fun _ => True) σ τ → Presentable τ) →
        (exec (executeRequest blake3 request io) σ script).1 = .ok response → id < 2 ^ 64 →
          ∃ frame, encodeJsonFrame escape (.response id response) = .ok frame := by
  refine ⟨fun message hm => ⟨hm.length_json_le h, encodeJsonFrame_ok (hm.length_json_le h)⟩,
    fun σ request io script response id hσ hr hid => ?_⟩
  have hwithin := executeRequest_within hσ request io script _ _ rfl response hr
  exact ⟨_, encodeJsonFrame_ok ((Sends.response hid hwithin).length_json_le h)⟩

/-- A session of a peer with the longest names there are. -/
def longestSession : SessionInfo where
  sessionId := 2 ^ 64 - 1
  deviceId := samplePeer.deviceId
  deviceName := String.ofList (List.replicate 128 'a')
  platform := String.ofList (List.replicate 64 'a')

/-- The full session registry is listed in one frame, with every byte escaped. -/
theorem longest_listing_fits :
    ∃ escape : UInt8 → Bytes, (∀ byte, (escape byte).length = 6) ∧
      ((ServerMessage.response 0 (.sessions (List.replicate 128 longestSession))).json
        escape).length ≤ 262144 := by
  have hescape : EscapesTo (fun byte => List.replicate 6 byte) 6 := fun _ => Nat.le_refl 6
  have hsession : longestSession.Within := ⟨by decide, by decide +kernel, by decide +kernel⟩
  have hwithin : ResponseWithin (.sessions (List.replicate 128 longestSession)) :=
    ⟨List.length_replicate.le, fun info hi => List.eq_of_mem_replicate hi ▸ hsession⟩
  exact ⟨fun byte => List.replicate 6 byte, fun _ => rfl,
    ((every_message_fits_a_frame sampleBlake3 hescape).1 _ (.response (by decide) hwithin)).1⟩

end Rift.Daemon
