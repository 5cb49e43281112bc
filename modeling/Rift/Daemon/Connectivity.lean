import Rift.Ipc.Messages
import Rift.Lib.Selection
import Rift.Trust.Store

/-! # The reconnect policy

One bounded map of managed peers with the deadline at which each is dialled next. Instants are in
nanoseconds; the jitter sample of a delay is an argument.

The main definitions are `Peer.WellFormed` and `Peer.Truthful`, the main result
`Scheduler.takeDue_eq_some_iff`. -/

namespace Rift.Daemon

open Rift.Lib Rift.Core Rift.Ipc Std

/-- The most peers the scheduler manages. -/
def maxManagedPeers : ℕ := 4096

/-- Instants and durations are in nanoseconds. -/
def nanosPerMilli : ℕ := 1000000

/-- The least time between the starts of two dials. -/
def startSpacing : ℕ := 100 * nanosPerMilli

/-- How long a session lasts that resets the attempts. -/
def stableReset : ℕ := 30000 * nanosPerMilli

/-- `u32::MAX`. -/
def u32Max : ℕ := 2 ^ 32 - 1

/-- Equal-jitter exponential backoff from an injected sample, capped at 60 seconds. -/
def retryDelay (attempt sample : ℕ) : ℕ :=
  let capMs := min (1000 * 2 ^ min (attempt - 1) 6) 60000
  let half := capMs / 2
  (half + sample * half / u32Max) * nanosPerMilli

/-- What the scheduler knows of a peer; `due` is when it is dialled next. -/
structure Peer where
  state : ConnectivityState
  sessionId : Option SessionId
  attempt : ℕ
  due : Option ℕ
  lastFailure : Option ConnectivityFailure
  suspended : Bool
  connectedSince : Option ℕ
  lastEmitted : Option PeerConnectivityInfo
  deriving DecidableEq

namespace Peer

/-- A peer that is due at once. -/
def new (now : ℕ) : Peer :=
  { state := .disconnected, sessionId := none, attempt := 0, due := some now, lastFailure := none,
    suspended := false, connectedSince := none, lastEmitted := none }

/-- What clients are told of the peer. -/
def info (peer : Peer) (deviceId : DeviceId) (now : ℕ) : PeerConnectivityInfo :=
  { deviceId
    state := peer.state
    sessionId := peer.sessionId
    retryAttempt := peer.attempt
    retryInMs := peer.due.map fun due => min ((due - now) / nanosPerMilli) Trust.u64Max
    lastFailure := peer.lastFailure }

/-- What was last reported of the peer, once a report is made or found to say nothing new. -/
def reported (peer : Peer) (deviceId : DeviceId) (now : ℕ) : Peer :=
  { peer with lastEmitted := some { peer.info deviceId now with retryInMs := none } }

/-- The report of a peer, unless the last one said the same. -/
def report (peer : Peer) (deviceId : DeviceId) (now : ℕ) : Option PeerConnectivityInfo :=
  let info := peer.info deviceId now
  if peer.lastEmitted = some { info with retryInMs := none } then none else some info

/-- The last report, if there is one, says how the peer is. -/
def Truthful (peer : Peer) (deviceId : DeviceId) : Prop :=
  ∀ last, peer.lastEmitted = some last → last = { peer.info deviceId 0 with retryInMs := none }

/-- A canonical replacement is not a loss and does not restart the stability clock. -/
def connected (peer : Peer) (sessionId : SessionId) (now : ℕ) : Peer :=
  { peer with
    sessionId := some sessionId
    state := .connected
    due := none
    lastFailure := none
    connectedSince := some (peer.connectedSince.getD now) }

/-- A dial has failed; only the network and a lack of room are worth a retry. -/
def failed (peer : Peer) (failure : ConnectivityFailure) (now sample : ℕ) : Peer :=
  match failure with
  | .unresolved => { peer with lastFailure := some failure, due := none, state := .unresolved }
  | .network | .capacity =>
    let attempt := min (peer.attempt + 1) u32Max
    { peer with
      lastFailure := some failure
      attempt
      due := some (now + retryDelay attempt sample)
      state := .backoff }
  | _ => { peer with lastFailure := some failure, due := none, state := .blocked }

/-- The peer without its session; a connection that was stable resets the attempts. -/
def unlinked (peer : Peer) (now : ℕ) : Peer :=
  { peer with
    sessionId := none
    connectedSince := none
    attempt :=
      if peer.connectedSince.any fun since => stableReset ≤ now - since then 0 else peer.attempt }

/-- The session is lost, which counts as a failure of the network. -/
def lost (peer : Peer) (now sample : ℕ) : Peer :=
  if peer.suspended then { peer.unlinked now with state := .suspended, due := none }
  else (peer.unlinked now).failed .network now sample

/-- The peer after its session has ended; what is not the network's fault is no reason to retry. -/
def ended (peer : Peer) (failure : ConnectivityFailure) (now sample : ℕ) : Peer :=
  if failure ≠ .network ∧ (peer.lost now sample).suspended = false then
    (peer.lost now sample).failed failure now 0
  else peer.lost now sample

/-- Dials are wanted again; a peer without a session is due at once. -/
def resume (peer : Peer) (now : ℕ) : Peer :=
  if peer.sessionId = none then
    { peer with suspended := false, state := .disconnected, due := some now }
  else { peer with suspended := false }

/-- No dial is wanted until the peer is resumed. -/
def suspend (peer : Peer) : Peer :=
  if peer.sessionId = none then { peer with suspended := true, due := none, state := .suspended }
  else { peer with suspended := true, due := none }

/-- A dial to the peer is under way. -/
def dialling (peer : Peer) : Peer := { peer with state := .connecting, due := none }

/-! ### What holds of every managed peer -/

/-- A deadline is armed exactly in the states that wait for one; only a suspended peer rests in
`suspended`, and only a peer with a session is `connected`. -/
structure WellFormed (peer : Peer) : Prop where
  due_iff : peer.due.isSome ↔ peer.state = .disconnected ∨ peer.state = .backoff
  suspended : peer.state = .suspended → peer.suspended = true ∧ peer.sessionId = none
  connected : peer.state = .connected → peer.sessionId.isSome

theorem wellFormed_new (now : ℕ) : (new now).WellFormed := by
  constructor <;> simp [new]

theorem WellFormed.reported {peer : Peer} (h : peer.WellFormed) (deviceId : DeviceId) (now : ℕ) :
    (peer.reported deviceId now).WellFormed :=
  ⟨h.due_iff, h.suspended, h.connected⟩

theorem wellFormed_connected (peer : Peer) (sessionId : SessionId) (now : ℕ) :
    (peer.connected sessionId now).WellFormed := by
  constructor <;> simp [Peer.connected]

theorem failed_state_ne (peer : Peer) (failure : ConnectivityFailure) (now sample : ℕ) :
    (peer.failed failure now sample).state ≠ .connecting ∧
      (peer.failed failure now sample).state ≠ .connected := by
  cases failure <;> simp [failed]

@[simp] theorem failed_sessionId (peer : Peer) (failure : ConnectivityFailure) (now sample : ℕ) :
    (peer.failed failure now sample).sessionId = peer.sessionId := by
  cases failure <;> rfl

theorem wellFormed_failed (peer : Peer) (failure : ConnectivityFailure) (now sample : ℕ) :
    (peer.failed failure now sample).WellFormed := by
  constructor <;> cases failure <;> simp [failed]

@[simp] theorem lost_sessionId (peer : Peer) (now sample : ℕ) :
    (peer.lost now sample).sessionId = none := by
  unfold lost
  split_ifs
  · rfl
  · exact failed_sessionId ..

theorem lost_state_ne (peer : Peer) (now sample : ℕ) :
    (peer.lost now sample).state ≠ .connecting ∧ (peer.lost now sample).state ≠ .connected := by
  unfold lost
  split_ifs
  · simp
  · exact failed_state_ne ..

theorem wellFormed_lost (peer : Peer) (now sample : ℕ) : (peer.lost now sample).WellFormed := by
  unfold lost
  split_ifs with h
  · constructor <;> simp [unlinked, h]
  · exact wellFormed_failed ..

theorem wellFormed_ended (peer : Peer) (failure : ConnectivityFailure) (now sample : ℕ) :
    (peer.ended failure now sample).WellFormed := by
  unfold ended
  split_ifs
  · exact wellFormed_failed ..
  · exact wellFormed_lost ..

@[simp] theorem ended_sessionId (peer : Peer) (failure : ConnectivityFailure) (now sample : ℕ) :
    (peer.ended failure now sample).sessionId = none := by
  unfold ended
  split_ifs <;> simp

theorem ended_state_ne (peer : Peer) (failure : ConnectivityFailure) (now sample : ℕ) :
    (peer.ended failure now sample).state ≠ .connecting := by
  unfold ended
  split_ifs
  · exact (failed_state_ne ..).1
  · exact (lost_state_ne ..).1

theorem WellFormed.resume {peer : Peer} (h : peer.WellFormed) (now : ℕ) :
    (peer.resume now).WellFormed := by
  unfold Peer.resume
  split_ifs with hs
  · constructor <;> simp
  · exact ⟨h.due_iff, fun hst => absurd (h.suspended hst).2 hs, h.connected⟩

@[simp] theorem resume_sessionId (peer : Peer) (now : ℕ) :
    (peer.resume now).sessionId = peer.sessionId := by
  unfold resume
  split_ifs with hs <;> rfl

theorem resume_state {peer : Peer} (now : ℕ) (h : peer.sessionId ≠ none) :
    (peer.resume now).state = peer.state := by
  unfold resume
  rw [if_neg h]

theorem resume_state_ne (peer : Peer) (now : ℕ) (h : peer.state ≠ .connecting) :
    (peer.resume now).state ≠ .connecting := by
  unfold resume
  split_ifs
  · simp
  · exact h

theorem wellFormed_dialling (peer : Peer) : peer.dialling.WellFormed := by
  constructor <;> simp [dialling]

/-! ### What was reported -/

theorem truthful_new (deviceId : DeviceId) (now : ℕ) : (new now).Truthful deviceId := nofun

theorem truthful_reported (peer : Peer) (deviceId : DeviceId) (now : ℕ) :
    (peer.reported deviceId now).Truthful deviceId := by
  intro last hlast
  cases hlast
  rfl

@[simp] theorem failed_lastEmitted (peer : Peer) (failure : ConnectivityFailure) (now sample : ℕ) :
    (peer.failed failure now sample).lastEmitted = peer.lastEmitted := by
  cases failure <;> rfl

@[simp] theorem lost_lastEmitted (peer : Peer) (now sample : ℕ) :
    (peer.lost now sample).lastEmitted = peer.lastEmitted := by
  unfold lost
  split_ifs
  · rfl
  · exact failed_lastEmitted ..

@[simp] theorem ended_lastEmitted (peer : Peer) (failure : ConnectivityFailure) (now sample : ℕ) :
    (peer.ended failure now sample).lastEmitted = peer.lastEmitted := by
  unfold ended
  split_ifs <;> simp

@[simp] theorem resume_lastEmitted (peer : Peer) (now : ℕ) :
    (peer.resume now).lastEmitted = peer.lastEmitted := by
  unfold resume
  split_ifs <;> rfl

@[simp] theorem suspend_lastEmitted (peer : Peer) : peer.suspend.lastEmitted = peer.lastEmitted := by
  unfold suspend
  split_ifs <;> rfl

theorem Truthful.congr {peer peer' : Peer} {deviceId : DeviceId} (h : peer.Truthful deviceId)
    (hlast : peer'.lastEmitted = peer.lastEmitted) (hstate : peer'.state = peer.state)
    (hsession : peer'.sessionId = peer.sessionId) (hattempt : peer'.attempt = peer.attempt)
    (hfailure : peer'.lastFailure = peer.lastFailure) : peer'.Truthful deviceId := by
  intro last hl
  rw [h last (hlast ▸ hl)]
  simp only [info, hstate, hsession, hattempt, hfailure]

end Peer

/-! ### The scheduler -/

/-- The managed peers, and the earliest start of the next dial. -/
structure Scheduler where
  peers : ExtTreeMap DeviceId Peer
  nextStart : ℕ

namespace Scheduler

/-- The scheduler at startup. -/
def new (now : ℕ) : Scheduler := ⟨∅, now⟩

/-- Manages one more peer; `none` if there is no room for it. -/
def insert (scheduler : Scheduler) (id : DeviceId) (now : ℕ) : Option Scheduler :=
  if scheduler.peers.contains id then some scheduler
  else if scheduler.peers.size = maxManagedPeers then none
  else some { scheduler with peers := scheduler.peers.insert id (Peer.new now) }

/-- When the supervisor has to look for a due peer next; `none` if no deadline is armed. -/
def deadline (scheduler : Scheduler) : Option ℕ :=
  (scheduler.peers.values.filterMap Peer.due).min?.map fun due => max due scheduler.nextStart

/-- The comparison of `min_by_key` on `(due, id)`. -/
def sooner (a b : DeviceId × ℕ) : DeviceId × ℕ :=
  if b.2 < a.2 ∨ b.2 = a.2 ∧ compare b.1 a.1 = .lt then b else a

/-- Takes the peer whose deadline has passed for longest, and marks it as being dialled. -/
def takeDue (scheduler : Scheduler) (now : ℕ) : Option (DeviceId × Scheduler) :=
  if now < scheduler.nextStart then none
  else
    let armed := scheduler.peers.toList.filterMap fun (id, peer) => peer.due.map fun due => (id, due)
    match armed.filter fun entry => entry.2 ≤ now with
    | [] => none
    | first :: rest =>
      let id := (rest.foldl sooner first).1
      some (id, { peers := scheduler.peers.modify id Peer.dialling, nextStart := now + startSpacing })

/-- The peer of this identity waits for this deadline. -/
def Armed (scheduler : Scheduler) (entry : DeviceId × ℕ) : Prop :=
  ∃ peer, scheduler.peers[entry.1]? = some peer ∧ peer.due = some entry.2

/-- The order in which due peers are taken. -/
def Sooner (a b : DeviceId × ℕ) : Prop := a.2 < b.2 ∨ a.2 = b.2 ∧ compare a.1 b.1 = .lt

instance : DecidableRel Sooner := fun _ _ => inferInstanceAs (Decidable (_ ∨ _))

theorem sooner_eq_pick : sooner = Selection.pick Sooner := rfl

theorem Sooner.trans (a b c : DeviceId × ℕ) (h : Sooner a b) (h' : Sooner b c) : Sooner a c := by
  rcases h with h | ⟨h, hid⟩ <;> rcases h' with h' | ⟨h', hid'⟩
  · exact Or.inl (by omega)
  · exact Or.inl (by omega)
  · exact Or.inl (by omega)
  · exact Or.inr ⟨by omega, TransCmp.lt_trans hid hid'⟩

theorem sooner_total (a b : DeviceId × ℕ) : Sooner a b ∨ a = b ∨ Sooner b a := by
  obtain ⟨id, due⟩ := a
  obtain ⟨id', due'⟩ := b
  unfold Sooner
  rcases Nat.lt_trichotomy due due' with h | rfl | h
  · exact Or.inl (Or.inl h)
  · cases hc : compare id id' with
    | lt => exact Or.inl (Or.inr ⟨rfl, rfl⟩)
    | eq => exact Or.inr (Or.inl (by rw [LawfulEqCmp.eq_of_compare hc]))
    | gt => exact Or.inr (Or.inr (Or.inr ⟨rfl, OrientedCmp.lt_of_gt hc⟩))
  · exact Or.inr (Or.inr (Or.inl h))

theorem mem_due (scheduler : Scheduler) (now : ℕ) (entry : DeviceId × ℕ) :
    entry ∈ (scheduler.peers.toList.filterMap fun (id, peer) =>
        peer.due.map fun due => (id, due)).filter (fun entry => entry.2 ≤ now) ↔
      scheduler.Armed entry ∧ entry.2 ≤ now := by
  obtain ⟨id, due⟩ := entry
  simp only [Armed, List.mem_filter, decide_eq_true_eq, List.mem_filterMap, Option.map_eq_some_iff,
    Prod.exists, ExtTreeMap.mem_toList_iff_getElem?_eq_some, Prod.mk.injEq]
  refine and_congr_left' ⟨?_, ?_⟩
  · rintro ⟨id', peer, hp, due', hd, rfl, rfl⟩
    exact ⟨peer, hp, hd⟩
  · rintro ⟨peer, hp, hd⟩
    exact ⟨id, peer, hp, due, hd, rfl, rfl⟩

/-- **Taking a due peer**: the spacing allows it, its deadline has passed and no armed one is sooner,
and it is marked as being dialled. -/
theorem takeDue_eq_some_iff {scheduler scheduler' : Scheduler} {now : ℕ} {id : DeviceId} :
    scheduler.takeDue now = some (id, scheduler') ↔
      scheduler.nextStart ≤ now ∧
        (∃ due ≤ now, scheduler.Armed (id, due) ∧
          ∀ entry, scheduler.Armed entry → entry = (id, due) ∨ Sooner (id, due) entry) ∧
        scheduler' = { peers := scheduler.peers.modify id Peer.dialling
                       nextStart := now + startSpacing } := by
  unfold takeDue
  by_cases hn : now < scheduler.nextStart
  · rw [if_pos hn]
    exact ⟨nofun, fun h => by omega⟩
  rw [if_neg hn]
  have hmem (entry : DeviceId × ℕ) := scheduler.mem_due now entry
  simp only at hmem ⊢
  generalize List.filter _ (List.filterMap _ scheduler.peers.toList) = due at hmem ⊢
  rcases due with _ | ⟨first, rest⟩
  · refine ⟨nofun, ?_⟩
    rintro ⟨-, ⟨due, hle, harmed, -⟩, -⟩
    exact absurd ((hmem _).mpr ⟨harmed, hle⟩) List.not_mem_nil
  simp only [sooner_eq_pick, Option.some.injEq, Prod.mk.injEq]
  have hpicked := (hmem _).mp (Selection.foldl_pick_mem Sooner rest first)
  have hleast := Selection.foldl_pick_least Sooner.trans sooner_total rest first
  generalize rest.foldl (Selection.pick Sooner) first = picked at hpicked hleast ⊢
  -- What is not yet due is later than what is, so the soonest of the due ones is the soonest of all.
  have hall (entry : DeviceId × ℕ) (h : scheduler.Armed entry) :
      entry = picked ∨ Sooner picked entry := by
    by_cases hd : entry.2 ≤ now
    · exact hleast entry ((hmem entry).mpr ⟨h, hd⟩)
    · have := hpicked.2
      exact Or.inr (Or.inl (by omega))
  constructor
  · rintro ⟨rfl, rfl⟩
    exact ⟨by omega, ⟨picked.2, hpicked.2, hpicked.1, hall⟩, rfl⟩
  · rintro ⟨-, ⟨due, -, harmed, hsoonest⟩, rfl⟩
    obtain rfl : picked = (id, due) := by
      rcases hall _ harmed with h | h
      · exact h.symm
      · rcases hsoonest _ hpicked.1 with h' | h'
        · exact h'
        · exact absurd (Sooner.trans _ _ _ h h') (by simp [Sooner])
    exact ⟨rfl, rfl⟩

theorem takeDue_eq_some {scheduler scheduler' : Scheduler} {now : ℕ} {id : DeviceId}
    (h : scheduler.takeDue now = some (id, scheduler')) :
    (∃ peer due, scheduler.peers[id]? = some peer ∧ peer.due = some due ∧ due ≤ now) ∧
      scheduler'.peers = scheduler.peers.modify id Peer.dialling := by
  obtain ⟨-, ⟨due, hle, ⟨peer, hp, hd⟩, -⟩, rfl⟩ := takeDue_eq_some_iff.mp h
  exact ⟨⟨peer, due, hp, hd, hle⟩, rfl⟩

end Scheduler

end Rift.Daemon
