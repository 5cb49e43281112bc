import Rift.Transfer.Fencing
import Rift.Transfer.Scan

/-! # Durable markers and the transfer machine

The legality rules are written twice: as transitions of the machine, and as checks on the files found
after a restart. Along the calls of a transfer the markers are recorded as its owner writes them
(`recorded`); what was recorded agrees with the state (`Matches`), so it passes the checks, and
everything that passes is recorded by some calls.

The main results are `matches_after` and `durable_markers_match_machine`. -/

namespace Rift.Transfer

open Rift.Lib Rift.Core Rift.Protocol LogicalTransfer Std.Do

set_option mvcgen.warning false

/-! ### Recording -/

/-- The markers written so far. -/
structure Markers where
  accepted : Bool := false
  terminal : Option (TransferTerminalStatus × TerminalOrigin) := none
  deriving DecidableEq

/-- The markers after a call that led from `t` to `t'`. -/
def Markers.record (markers : Markers) (t t' : LogicalTransfer) : Call → Result → Markers
  | .acceptancePersisted _, .ok _ => { markers with accepted := true }
  | .terminalPersisted status _, .ok _ =>
    if t.state.outcome = none ∧ t'.state = .terminalAwaitingAck status then
      { markers with terminal := some (status, .localSide) }
    else markers
  | .peerTerminalPersisted status, .ok _ =>
    if t.state.outcome = none ∧ t'.state = .settled status then
      { markers with terminal := some (status, .peerSide) }
    else markers
  | _, _ => markers

/-- The machine whose owner records its markers. -/
def recorded : Machine Call Result (LogicalTransfer × Markers) := fun c (t, markers) =>
  ((call c t).1, (call c t).2, markers.record t (call c t).2 c (call c t).1)

/-! ### The markers agree with the state -/

/-- The markers of a transfer: before it has ended, only whether it was accepted; afterwards its
outcome too. -/
structure Matches (t : LogicalTransfer) (markers : Markers) : Prop where
  accepted : markers.accepted = true → t.direction = .incoming
  live : t.state.outcome = none → markers.terminal = none ∧
    (t.direction = .incoming → (markers.accepted = true ↔ t.state ≠ .pendingOffer))
  ended : ∀ status, t.state.outcome = some status → ∃ origin,
    markers.terminal = some (status, origin) ∧
    (status.receiverOnly = true → (t.direction = .incoming ↔ origin = .localSide)) ∧
    (t.direction = .incoming →
      (status = .completed → markers.accepted = true) ∧
      (status = .rejected → markers.accepted = false))

namespace Matches

variable {t t' : LogicalTransfer} {markers : Markers}

theorem keep (h : Matches t markers) (hd : t'.direction = t.direction) (hl : t.state.outcome = none)
    (hl' : t'.state.outcome = none)
    (hp : t.direction = .incoming → (t'.state = .pendingOffer ↔ t.state = .pendingOffer)) :
    Matches t' markers := by
  refine ⟨fun ha => hd.trans (h.accepted ha), fun _ => ⟨(h.live hl).1, fun hi => ?_⟩, fun s hs => ?_⟩
  · rw [(h.live hl).2 (hd ▸ hi), not_iff_not, hp (hd ▸ hi)]
  · rw [hl'] at hs
    cases hs

theorem accept (h : Matches t markers) (hi : t.direction = .incoming) (hl : t.state.outcome = none)
    (offset : ℕ) : Matches { t with state := .accepted offset } { markers with accepted := true } :=
  ⟨fun _ => hi, fun _ => ⟨(h.live hl).1, fun _ => ⟨fun _ => nofun, fun _ => rfl⟩⟩, nofun⟩

theorem same (h : Matches t markers) (hd : t'.direction = t.direction)
    (hs : t'.state.outcome = t.state.outcome) {status : TransferTerminalStatus}
    (he : t.state.outcome = some status) : Matches t' markers := by
  refine ⟨fun ha => hd.trans (h.accepted ha), fun hl => ?_, fun s h' => ?_⟩
  · rw [hs, he] at hl
    cases hl
  · rw [hd]
    exact h.ended s (hs ▸ h')

theorem finish (h : Matches t markers) (hd : t'.direction = t.direction)
    {status : TransferTerminalStatus} (hs : t'.state.outcome = some status) (origin : TerminalOrigin)
    (hr : status.receiverOnly = true → (t.direction = .incoming ↔ origin = .localSide))
    (hc : t.direction = .incoming → (status = .completed → markers.accepted = true) ∧
      (status = .rejected → markers.accepted = false)) :
    Matches t' { markers with terminal := some (status, origin) } := by
  refine ⟨fun ha => hd.trans (h.accepted ha), fun hl => ?_, fun s h' => ?_⟩
  · rw [hs] at hl
    cases hl
  · rw [hs] at h'
    cases h'
    exact ⟨origin, rfl, by rwa [hd], by rwa [hd]⟩

theorem either {status : TransferTerminalStatus} (he : status.receiverOnly = false)
    (accepted : Bool) :
    (status = .completed → accepted = true) ∧ (status = .rejected → accepted = false) :=
  ⟨fun h => (by rw [h] at he; cases he), fun h => (by rw [h] at he; cases he)⟩

theorem step (h : Matches t markers) (c : Call) :
    Matches (recorded c (t, markers)).2.1 (recorded c (t, markers)).2.2 := by
  have hm : (recorded c (t, markers)).2 =
    ((call c t).2, markers.record t (call c t).2 c (call c t).1) := rfl
  rw [hm]
  rcases call_cases c t with ⟨e, he⟩ | ⟨y, t', hr, ha⟩
  · rw [he]
    cases c <;> exact h
  rw [hr]
  cases ha with
  | offerSent out ready =>
    refine h.keep rfl ?_ rfl fun hi => ?_
    · rcases ready with hs | hs | hs <;> rw [hs] <;> rfl
    · exact absurd (out.symm.trans hi) nofun
  | acceptReceived out _ ready =>
    exact h.keep rfl (by rw [ready]; rfl) rfl fun hi => absurd (out.symm.trans hi) nofun
  | acceptFirst inc ready => exact h.accept inc (by rw [ready]; rfl) 0
  | acceptAgain inc _ ready =>
    refine h.accept inc ?_ _
    rcases ready with hs | ⟨o, hs⟩ <;> rw [hs] <;> rfl
  | replayPending _ _ | replayAccept _ _ _ | replayTerminal _ _ => exact h
  | startSend out ready =>
    exact h.keep rfl (by rw [ready]; rfl) rfl fun hi => absurd (out.symm.trans hi) nofun
  | startReceive _ _ _ ready => exact h.keep rfl (by rw [ready]; rfl) rfl fun _ => by simp [ready]
  | sendFinished _ ready => exact h.keep rfl (by rw [ready]; rfl) rfl fun _ => by simp [ready]
  | payloadVerified _ ready => exact h.keep rfl (by rw [ready]; rfl) rfl fun _ => by simp [ready]
  | pauseActive _ live old => exact h.keep rfl live rfl fun _ => by simp [old.2]
  | pauseIdle _ => exact h
  | complete inc ready =>
    have hl : t.state.outcome = none := by rw [ready]; rfl
    have hacc : markers.accepted = true := ((h.live hl).2 inc).mpr (by simp [ready])
    simp only [Markers.record, hl, true_and, if_true]
    refine h.finish (by rfl) (by rfl) _ ?_ ?_
    · simp [inc]
    · simp [hacc]
  | reject inc ready =>
    have hl : t.state.outcome = none := by rw [ready]; rfl
    have hacc : markers.accepted = false := by
      by_contra hn
      exact ((h.live hl).2 inc).mp (by simpa using hn) ready
    simp only [Markers.record, hl, true_and, if_true]
    refine h.finish (by rfl) (by rfl) _ ?_ ?_
    · simp [inc]
    · simp [hacc]
  | giveUp live hs _ =>
    simp only [Markers.record, live, true_and, if_true]
    exact h.finish (by rfl) (by rfl) _ (by simp [hs]) fun _ => either hs _
  | endAgain hs =>
    simp only [Markers.record, hs, reduceCtorEq, false_and, if_false]
    exact h
  | @peerEnds status live out =>
    simp only [Markers.record, live, true_and, if_true]
    refine h.finish (by rfl) (by rfl) _ (fun hs => by simp [out hs]) fun hi => either ?_ _
    by_contra hs
    exact absurd ((out (by simpa using hs)).symm.trans hi) nofun
  | peerAgain hs =>
    rw [Option.isSome_iff_ne_none] at hs
    simp only [Markers.record, hs, false_and, if_false]
    exact h
  | acked ready => exact h.same rfl (by rw [ready]; rfl) (by rw [ready]; rfl)
  | ackAgain _ => exact h

end Matches

/-- The role that a manifest records. -/
def TransferManifest.direction (manifest : TransferManifest) : TransferDirection :=
  match manifest.source with
  | .outgoing _ => .outgoing
  | .incoming => .incoming

/-- The new transfer of a manifest. -/
def TransferManifest.transfer (manifest : TransferManifest) : LogicalTransfer :=
  .new manifest.peer manifest.transferId manifest.metadata manifest.direction

theorem TransferManifest.direction_eq_incoming {manifest : TransferManifest} :
    manifest.direction = .incoming ↔ manifest.source = .incoming := by
  unfold direction
  cases manifest.source <;> simp

/-- The transfer and its markers after some calls. -/
def TransferManifest.after (manifest : TransferManifest) (calls : List Call) :
    LogicalTransfer × Markers :=
  recorded.after (manifest.transfer, {}) calls

theorem matches_new (peer : DeviceId) (id : TransferId) (metadata : TransferMetadata)
    (direction : TransferDirection) : Matches (.new peer id metadata direction) {} := by
  unfold LogicalTransfer.new
  cases direction <;> exact ⟨nofun, fun _ => ⟨rfl, by simp⟩, nofun⟩

/-- **The markers agree with the state after any calls.** -/
theorem matches_after (manifest : TransferManifest) (calls : List Call) :
    Matches (manifest.after calls).1 (manifest.after calls).2 ∧
      (manifest.after calls).1.direction = manifest.direction :=
  recorded.invariant
    (P := fun _ s => Matches s.1 s.2 ∧ s.1.direction = manifest.direction)
    ⟨matches_new _ _ _ _, rfl⟩ (fun _ s c h => ⟨h.1.step c, (direction_call c s.1).trans h.2⟩) calls

theorem Matches.consistent {manifest : TransferManifest} {t : LogicalTransfer} {markers : Markers}
    (h : Matches t markers) (hd : t.direction = manifest.direction) :
    StoredTransfer.Consistent ⟨manifest, markers.accepted, markers.terminal⟩ := by
  have hi : t.direction = .incoming ↔ manifest.source = .incoming := by
    rw [hd, TransferManifest.direction_eq_incoming]
  -- A terminal marker is that of the outcome of the state.
  have hended {status : TransferTerminalStatus} {origin : TerminalOrigin}
      (ht : markers.terminal = some (status, origin)) :
      (status.receiverOnly = true → (t.direction = .incoming ↔ origin = .localSide)) ∧
        (t.direction = .incoming → (status = .completed → markers.accepted = true) ∧
          (status = .rejected → markers.accepted = false)) := by
    rcases hs : t.state.outcome with _ | s
    · rw [(h.live hs).1] at ht
      cases ht
    · obtain ⟨o, hm, hc⟩ := h.ended s hs
      rw [ht] at hm
      cases hm
      exact hc
  refine ⟨fun ha => hi.mp (h.accepted ha), fun s o ht hs => ?_, fun o ht hsrc => ?_, fun o ht hsrc => ?_⟩
  · exact hi.symm.trans ((hended ht).1 hs)
  · exact ((hended ht).2 (hi.mpr hsrc)).1 rfl
  · exact ((hended ht).2 (hi.mpr hsrc)).2 rfl

/-! ### Calls that succeed -/

section Calls

variable {t : LogicalTransfer} {status : TransferTerminalStatus} {a : TransferAttempt}

theorem call_eq_of_triple {c : Call} {y : Reply} {t' : LogicalTransfer}
    (h : ⦃fun s => ⌜s = t⌝⦄ perform c
      ⦃post⟨fun v s => ⌜v = y ∧ s = t'⌝, fun _ _ => ⌜False⌝⟩⦄) : call c t = (.ok y, t') := by
  rcases cases_of_triple h rfl with ⟨_, hr, rfl, ht⟩ | ⟨_, _, hf⟩
  · exact Prod.ext hr ht
  · exact hf.elim

theorem call_peerEnds (live : t.state.outcome = none)
    (out : status.receiverOnly = true → t.direction = .outgoing) :
    call (.peerTerminalPersisted status) t = (.ok .done, { t with state := .settled status }) := by
  refine call_eq_of_triple ?_
  mvcgen [perform, peerTerminalPersisted, ensure, setState] <;> subst_vars
  all_goals first | exact ⟨trivial, rfl⟩ | exact ⟨rfl, rfl⟩ | simp_all

theorem call_giveUp (live : t.state.outcome = none) (either : status.receiverOnly = false) :
    call (.terminalPersisted status none) t =
      (.ok .done, { t with state := .terminalAwaitingAck status }) := by
  refine call_eq_of_triple ?_
  mvcgen [perform, terminalPersisted, ensure, requireOutcome, setState] <;> subst_vars
  all_goals first | exact ⟨trivial, rfl⟩ | exact ⟨rfl, rfl⟩ | simp_all [TransferTerminalStatus.receiverOnly]

theorem call_reject (inc : t.direction = .incoming) (ready : t.state = .pendingOffer) :
    call (.terminalPersisted .rejected none) t =
      (.ok .done, { t with state := .terminalAwaitingAck .rejected }) := by
  refine call_eq_of_triple ?_
  mvcgen [perform, terminalPersisted, ensure, requireOutcome, requireDirection, requireState,
    setState] <;> subst_vars
  all_goals first | exact ⟨trivial, rfl⟩ | exact ⟨rfl, rfl⟩ | simp_all [TransferState.outcome]

theorem call_accept (inc : t.direction = .incoming) (ready : t.state = .pendingOffer) :
    call (.acceptancePersisted 0) t = (.ok .done, { t with state := .accepted 0 }) := by
  refine call_eq_of_triple ?_
  mvcgen [perform, acceptancePersisted, requireDirection, checkOffset, ensure, setState] <;> subst_vars
  all_goals first | exact ⟨trivial, rfl⟩ | exact ⟨rfl, rfl⟩ | simp_all

theorem call_receive (inc : t.direction = .incoming) (ready : t.state = .accepted 0)
    (room : t.nextAttempt + 1 < attemptLimit) :
    call (.startReceive ⟨t.transferId, 0, t.metadata.byteLen⟩) t =
      (.ok (.receiving ⟨t.nextAttempt + 1⟩), { t with
        nextAttempt := t.nextAttempt + 1, state := .receiving ⟨t.nextAttempt + 1⟩ }) := by
  refine call_eq_of_triple ?_
  have hfits : DataStreamHeader.validate ⟨t.transferId, 0, t.metadata.byteLen⟩
      t.metadata.byteLen = .ok () := DataStreamHeader.validate_ok_iff.mpr (Nat.zero_add _)
  mvcgen [perform, startReceive, requireDirection, requireState, ensure, setState,
      allocateAttempt] <;> subst_vars
  all_goals first | exact ⟨trivial, rfl⟩ | exact ⟨rfl, rfl⟩ | simp_all

theorem call_verified (inc : t.direction = .incoming) (ready : t.state = .receiving a) :
    call (.payloadVerified a) t = (.ok .done, { t with state := .completing a }) := by
  refine call_eq_of_triple ?_
  mvcgen [perform, payloadVerified, requireDirection, requireState, ensure, setState] <;> subst_vars
  all_goals first | exact ⟨trivial, rfl⟩ | exact ⟨rfl, rfl⟩ | simp_all

theorem call_complete (inc : t.direction = .incoming) (ready : t.state = .completing a) :
    call (.terminalPersisted .completed (some a)) t =
      (.ok .done, { t with state := .terminalAwaitingAck .completed }) := by
  refine call_eq_of_triple ?_
  mvcgen [perform, terminalPersisted, ensure, requireOutcome, setState] <;> subst_vars
  all_goals first | exact ⟨trivial, rfl⟩ | exact ⟨rfl, rfl⟩ | simp_all [TransferState.outcome, TransferState.held]

end Calls

/-! ### Every combination is reached -/

section Reached

variable {manifest : TransferManifest} {calls : List Call} {t t' : LogicalTransfer}
  {markers : Markers} {c : Call} {y : Reply}

theorem after_call (h : manifest.after calls = (t, markers)) (hr : call c t = (.ok y, t')) :
    manifest.after (calls ++ [c]) = (t', markers.record t t' c (.ok y)) := by
  unfold TransferManifest.after at h ⊢
  rw [Machine.after_concat, h]
  change ((call c t).2, markers.record t (call c t).2 c (call c t).1) = _
  rw [hr]

theorem reached_live (manifest : TransferManifest) (accepted : Bool)
    (hi : accepted = true → manifest.source = .incoming) :
    ∃ calls t, manifest.after calls = (t, ⟨accepted, none⟩) ∧ t.direction = manifest.direction ∧
      t.state.outcome = none ∧ t.nextAttempt = 0 ∧
      (manifest.source = .incoming →
        t.state = if accepted = true then .accepted 0 else .pendingOffer) := by
  rcases accepted with _ | _
  · refine ⟨[], manifest.transfer, rfl, rfl, ?_, rfl, fun hsrc => ?_⟩
    · unfold TransferManifest.transfer LogicalTransfer.new
      cases manifest.direction <;> rfl
    · unfold TransferManifest.transfer LogicalTransfer.new
      rw [TransferManifest.direction_eq_incoming.mpr hsrc]
      rfl
  · have hd := TransferManifest.direction_eq_incoming.mpr (hi rfl)
    have hp : manifest.transfer.state = .pendingOffer := by
      unfold TransferManifest.transfer LogicalTransfer.new
      rw [hd]
    have hnew : manifest.after [] = (manifest.transfer, {}) := rfl
    exact ⟨[.acceptancePersisted 0], _, after_call hnew (call_accept hd hp), rfl, rfl, rfl, fun _ => rfl⟩

/-- **Everything that makes sense is recorded by some calls.** -/
theorem exists_calls {stored : StoredTransfer} (hc : stored.Consistent) :
    ∃ calls, (stored.manifest.after calls).2 = ⟨stored.accepted, stored.terminal⟩ := by
  obtain ⟨manifest, accepted, terminal⟩ := stored
  obtain ⟨calls, t, hafter, hd, hl, hn, hstate⟩ := reached_live manifest accepted hc.accepted
  have hin (hsrc : manifest.source = .incoming) : t.direction = .incoming :=
    hd.trans (TransferManifest.direction_eq_incoming.mpr hsrc)
  rcases terminal with _ | ⟨status, _ | _⟩
  · exact ⟨calls, by rw [hafter]⟩
  · by_cases hr : status.receiverOnly = true
    · have hsrc : manifest.source = .incoming := (hc.decided status _ rfl hr).mpr rfl
      have hstate := hstate hsrc
      rcases status with _ | _ | _ | _
      · have hacc : accepted = true := hc.completed _ rfl hsrc
        rw [if_pos hacc] at hstate
        have hroom : t.nextAttempt + 1 < attemptLimit := by rw [hn]; decide
        have h₁ := after_call hafter (call_receive (hin hsrc) hstate hroom)
        have h₂ := after_call h₁ (call_verified (hin hsrc) rfl)
        have h₃ := after_call h₂ (call_complete (hin hsrc) rfl)
        exact ⟨_, by rw [h₃]; rfl⟩
      · have hacc : accepted = false := hc.rejected _ rfl hsrc
        rw [if_neg (by simp [hacc])] at hstate
        refine ⟨calls ++ [.terminalPersisted .rejected none], ?_⟩
        rw [after_call hafter (call_reject (hin hsrc) hstate)]
        simp [Markers.record, hl]
      · cases hr
      · cases hr
    · refine ⟨calls ++ [.terminalPersisted status none], ?_⟩
      rw [after_call hafter (call_giveUp hl (by simpa using hr))]
      simp [Markers.record, hl]
  · refine ⟨calls ++ [.peerTerminalPersisted status], ?_⟩
    have hout (hr : status.receiverOnly = true) : t.direction = .outgoing := by
      by_contra hn
      have hsrc : manifest.source = .incoming := by
        rw [← TransferManifest.direction_eq_incoming, ← hd]
        cases hdir : t.direction
        · exact absurd hdir hn
        · rfl
      exact absurd ((hc.decided status _ rfl hr).mp hsrc) nofun
    rw [after_call hafter (call_peerEnds hl hout)]
    simp [Markers.record, hl]

end Reached

/-- **Durable markers match the transfer machine exactly.** After any calls of a new transfer, each
marker recorded so far is valid, and any directory that lists the manifest and the markers scans as
just these. Conversely, every combination of acceptance and outcome that the scanner accepts for a
manifest is recorded by some calls of its transfer. -/
theorem durable_markers_match_machine (blake3 : Bytes → FixedBytes 32) (manifest : TransferManifest) :
    (∀ calls : List Call,
      let markers := (manifest.after calls).2
      let stored : StoredTransfer := ⟨manifest, markers.accepted, markers.terminal⟩
      (∀ marker, marker ∈ (stored.found blake3).accepted ∨ marker ∈ (stored.found blake3).terminal →
        marker.validateMarker blake3 manifest = .ok ()) ∧
      (∃ directory : RecordDirectory, directory.Holds (stored.files blake3)) ∧
      ∀ directory : RecordDirectory, directory.Holds (stored.files blake3) →
        scanRecord blake3 directory manifest.transferId = .ok stored) ∧
    ∀ (directory : RecordDirectory) (id : TransferId) (stored : StoredTransfer),
      stored.manifest = manifest → scanRecord blake3 directory id = .ok stored →
      ∃ calls, (manifest.after calls).2 = ⟨stored.accepted, stored.terminal⟩ := by
  refine ⟨fun calls => ?_, fun directory id stored hm hscan => ?_⟩
  · obtain ⟨hmatch, hd⟩ := matches_after manifest calls
    have hc := hmatch.consistent hd
    refine ⟨fun marker h => ?_, ⟨_, RecordDirectory.holds_ofFiles _⟩,
      fun _ => scanRecord_of_holds blake3 hc⟩
    exact validateMarker_of_mem_found blake3 hc h
  · subst hm
    exact exists_calls (consistent_of_scanRecord blake3 hscan).2

end Rift.Transfer
