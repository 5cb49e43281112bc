import Rift.Transfer.Machine

/-! # Attempts are fenced

The attempts that a transfer hands out increase strictly, and the result of a worker whose attempt is
not the current one changes nothing. Behind the state of an incoming transfer stands a chain of calls
(`Explained`): the acceptance whose offset it is at, the header that started the attempt at that
offset, its verification, its publication. A pause breaks the chain.

The main results are `Advance.immutable`, `call_of_stale` and `attempts_are_fenced`. -/

namespace Rift.Transfer

open Rift.Lib Rift.Core Rift.Protocol

/-- One call of a transfer and its result. -/
abbrev Entry := Event Call Result

namespace LogicalTransfer

variable {t t' : LogicalTransfer} {c : Call} {y : Reply}

theorem Advance.immutable (h : Advance t c y t') :
    t'.peer = t.peer ∧ t'.transferId = t.transferId ∧ t'.metadata = t.metadata ∧
      t'.direction = t.direction := by
  cases h <;> exact ⟨rfl, rfl, rfl, rfl⟩

theorem direction_call (c : Call) (t : LogicalTransfer) : (call c t).2.direction = t.direction := by
  rcases call_cases c t with ⟨e, he⟩ | ⟨y, t', hr, ha⟩
  · rw [he]
  · rw [hr]
    exact ha.immutable.2.2.2

theorem Advance.final (h : Advance t c y t') {status : TransferTerminalStatus}
    (ended : t.state.outcome = some status) : t'.state.outcome = some status := by
  cases h with
  | replayPending _ _ | replayAccept _ _ _ | replayTerminal _ _ | pauseIdle _ | endAgain _
  | peerAgain _ | ackAgain _ => exact ended
  | acked ready => rw [ready] at ended; exact ended
  | pauseActive _ live _ | giveUp live _ _ | peerEnds live _ => rw [live] at ended; cases ended
  | offerSent _ ready => rcases ready with hs | hs | hs <;> rw [hs] at ended <;> cases ended
  | acceptAgain _ _ ready => rcases ready with hs | ⟨o, hs⟩ <;> rw [hs] at ended <;> cases ended
  | acceptReceived _ _ ready | acceptFirst _ ready | startSend _ ready | startReceive _ _ _ ready
  | sendFinished _ ready | payloadVerified _ ready | complete _ ready | reject _ ready =>
    rw [ready] at ended
    cases ended

theorem call_pause_ok (t : LogicalTransfer) :
    ∃ attempt, (call .pause t).1 = .ok (.stopped attempt) := by
  rcases t with ⟨peer, id, metadata, direction, state, next⟩
  cases state <;> exact ⟨_, rfl⟩

end LogicalTransfer

open LogicalTransfer

theorem outcome_call {t : LogicalTransfer} {status : TransferTerminalStatus}
    (h : t.state.outcome = some status) (c : Call) : (call c t).2.state.outcome = some status := by
  rcases call_cases c t with ⟨e, he⟩ | ⟨y, t', hr, ha⟩
  · rwa [he]
  · rw [hr]
    exact ha.final h

/-! ### Stale workers -/

/-- The attempt whose result a call reports. -/
def Call.worker : Call → Option TransferAttempt
  | .sendFinished attempt | .payloadVerified attempt => some attempt
  | .terminalPersisted _ workerAttempt => workerAttempt
  | _ => none

theorem call_of_stale {t : LogicalTransfer} {c : Call} {attempt : TransferAttempt}
    (hc : c.worker = some attempt) (hs : t.state.held ≠ some attempt) : (call c t).2 = t := by
  rcases call_cases c t with ⟨e, he⟩ | ⟨y, t', hr, ha⟩
  · rw [he]
  · rw [hr]
    cases ha with
    | sendFinished _ ready | payloadVerified _ ready | complete _ ready =>
      cases hc
      exact absurd (by rw [ready]; rfl) hs
    | giveUp _ _ holds => exact absurd (holds _ hc) hs
    | endAgain _ => rfl
    | reject _ _ | peerEnds _ _ | acked _ => cases hc
    | _ => first | rfl | cases hc

/-! ### Generations -/

/-- The attempt that a call handed out. -/
def startedBy : Entry → Option TransferAttempt
  | ⟨.startSend, .ok (.started attempt _)⟩ => some attempt
  | ⟨.startReceive _, .ok (.receiving attempt)⟩ => some attempt
  | _ => none

/-- The attempts handed out, in order. -/
def attempts (h : List Entry) : List TransferAttempt := h.filterMap startedBy

/-- The attempts so far increase and are behind the counter. -/
structure Increasing (h : List Entry) (t : LogicalTransfer) : Prop where
  pairwise : (attempts h).Pairwise fun a b => a.generation < b.generation
  bounded : ∀ a ∈ attempts h, a.generation ≤ t.nextAttempt

theorem attempts_concat (h : List Entry) (e : Entry) :
    attempts (h ++ [e]) = attempts h ++ (startedBy e).toList := by
  unfold attempts
  rw [List.filterMap_append]
  cases he : startedBy e <;> simp [he]

namespace Increasing

variable {h : List Entry} {t t' : LogicalTransfer} {e : Entry}

theorem skip (hi : Increasing h t) (hn : startedBy e = none) (ht : t'.nextAttempt = t.nextAttempt) :
    Increasing (h ++ [e]) t' := by
  have hc : attempts (h ++ [e]) = attempts h := by rw [attempts_concat, hn]; simp
  exact ⟨hc ▸ hi.pairwise, fun a ha => ht ▸ hi.bounded a (hc ▸ ha)⟩

theorem start (hi : Increasing h t) (hn : startedBy e = some ⟨t.nextAttempt + 1⟩)
    (ht : t'.nextAttempt = t.nextAttempt + 1) : Increasing (h ++ [e]) t' := by
  have hc : attempts (h ++ [e]) = attempts h ++ [⟨t.nextAttempt + 1⟩] := by
    rw [attempts_concat, hn]; rfl
  refine ⟨?_, fun a ha => ?_⟩
  · rw [hc, List.pairwise_append]
    refine ⟨hi.pairwise, List.pairwise_singleton _ _, fun a ha b hb => ?_⟩
    have := hi.bounded a ha
    rw [List.mem_singleton.mp hb]
    exact Nat.lt_succ_of_le this
  · rw [hc] at ha
    rcases List.mem_append.mp ha with ha | ha
    · have := hi.bounded a ha
      omega
    · rw [List.mem_singleton.mp ha, ht]

theorem step (hi : Increasing h t) (c : Call) :
    Increasing (h ++ [⟨c, (call c t).1⟩]) (call c t).2 := by
  rcases call_cases c t with ⟨e, he⟩ | ⟨y, t', hr, ha⟩
  · rw [he]
    exact hi.skip (by cases c <;> rfl) rfl
  · rw [hr]
    cases ha with
    | startSend _ _ => exact hi.start rfl rfl
    | startReceive _ _ _ _ => exact hi.start rfl rfl
    | _ => exact hi.skip rfl rfl

end Increasing

/-! ### The calls behind a state -/

/-- The latest acceptance was at the offset. -/
def AcceptedAt (offset : ℕ) : List Entry → Prop :=
  Since (fun _ e => e = ⟨.acceptancePersisted offset, .ok .done⟩)
    fun e => ∀ other, e ≠ ⟨.acceptancePersisted other, .ok .done⟩

section Chain

variable (id : TransferId) (byteLen : ℕ) (attempt : TransferAttempt)

/-- A header of the transfer, for what was missing at the latest acceptance, started the attempt, and
nothing paused since. -/
def ReceivedBy : List Entry → Prop :=
  Since
    (fun before e => ∃ header : DataStreamHeader,
      e = ⟨.startReceive header, .ok (.receiving attempt)⟩ ∧ header.transferId = id ∧
        header.offset + header.remainingLen = byteLen ∧ AcceptedAt header.offset before)
    fun e => e.call ≠ .pause

/-- The attempt was started and then verified, and nothing paused since. -/
def VerifiedBy : List Entry → Prop :=
  Since
    (fun before e => e = ⟨.payloadVerified attempt, .ok .done⟩ ∧ ReceivedBy id byteLen attempt before)
    fun e => e.call ≠ .pause

/-- The attempt was started, verified and then published. -/
def CompletedBy : List Entry → Prop :=
  Since
    (fun before e => e = ⟨.terminalPersisted .completed (some attempt), .ok .done⟩ ∧
      VerifiedBy id byteLen attempt before)
    fun _ => True

end Chain

/-- Behind the state of an incoming transfer stand the calls that it takes. -/
structure Explained (h : List Entry) (t : LogicalTransfer) : Prop where
  accepted : ∀ offset, t.state = .accepted offset → AcceptedAt offset h
  receiving : ∀ attempt, t.state = .receiving attempt →
    ReceivedBy t.transferId t.metadata.byteLen attempt h
  completing : ∀ attempt, t.state = .completing attempt →
    VerifiedBy t.transferId t.metadata.byteLen attempt h
  completed : t.state.outcome = some .completed →
    ∃ attempt, CompletedBy t.transferId t.metadata.byteLen attempt h

namespace Explained

variable {h : List Entry} {t : LogicalTransfer} {e : Entry}

theorem keep (hx : Explained h t) (ha : ∀ other, e ≠ ⟨.acceptancePersisted other, .ok .done⟩)
    (hp : t.state.held ≠ none → e.call ≠ .pause) : Explained (h ++ [e]) t where
  accepted offset hs := (hx.accepted offset hs).concat ha
  receiving attempt hs := (hx.receiving attempt hs).concat (hp (by simp [hs, TransferState.held]))
  completing attempt hs := (hx.completing attempt hs).concat (hp (by simp [hs, TransferState.held]))
  completed hs := by
    obtain ⟨attempt, hc⟩ := hx.completed hs
    exact ⟨attempt, hc.concat trivial⟩

theorem of_other {state : TransferState} (ha : ∀ offset, state ≠ .accepted offset)
    (hr : ∀ attempt, state ≠ .receiving attempt) (hc : ∀ attempt, state ≠ .completing attempt)
    (ho : state.outcome ≠ some .completed) : Explained h { t with state } where
  accepted offset hs := absurd hs (ha offset)
  receiving attempt hs := absurd hs (hr attempt)
  completing attempt hs := absurd hs (hc attempt)
  completed hs := absurd hs ho

theorem accept (t : LogicalTransfer) (offset : ℕ) :
    Explained (h ++ [⟨.acceptancePersisted offset, .ok .done⟩])
      { t with state := .accepted offset } where
  accepted other hs := by
    cases hs
    exact Since.now rfl
  receiving _ hs := nomatch hs
  completing _ hs := nomatch hs
  completed hs := nomatch hs

theorem start (peer : DeviceId) (id : TransferId) (metadata : TransferMetadata) :
    Explained [] (new peer id metadata .incoming) :=
  ⟨fun _ hs => (nomatch hs), fun _ hs => (nomatch hs), fun _ hs => (nomatch hs),
    fun hs => (nomatch hs)⟩

theorem step (hx : Explained h t) (hi : t.direction = .incoming) (c : Call) :
    Explained (h ++ [⟨c, (call c t).1⟩]) (call c t).2 := by
  rcases call_cases c t with ⟨e, he⟩ | ⟨y, t', hr, ha⟩
  · have hp : c ≠ .pause := by
      rintro rfl
      obtain ⟨attempt, hok⟩ := call_pause_ok t
      rw [he] at hok
      cases hok
    rw [he]
    exact hx.keep (by simp) fun _ => hp
  · rw [hr]
    cases ha with
    | offerSent out _ | acceptReceived out _ _ | startSend out _ | sendFinished out _ =>
      rw [hi] at out
      cases out
    | acceptFirst _ _ => exact .accept t 0
    | acceptAgain _ _ _ => exact .accept t _
    | replayPending _ _ | replayAccept _ _ _ | replayTerminal _ _ | endAgain _ | peerAgain _
    | ackAgain _ => exact hx.keep (by simp) (by simp)
    | startReceive _ same fits ready =>
      refine ⟨fun _ hs => (nomatch hs), fun attempt hs => ?_, fun _ hs => (nomatch hs),
        fun hs => (nomatch hs)⟩
      cases hs
      exact Since.now ⟨_, rfl, same, fits, hx.accepted _ ready⟩
    | payloadVerified _ ready =>
      refine ⟨fun _ hs => (nomatch hs), fun _ hs => (nomatch hs), fun attempt hs => ?_,
        fun hs => (nomatch hs)⟩
      cases hs
      exact Since.now ⟨rfl, hx.receiving _ ready⟩
    | pauseActive _ _ _ =>
      exact of_other (by simp) (by simp) (by simp) (by simp [TransferState.outcome])
    | pauseIdle idle => exact hx.keep (by simp) fun hn => absurd idle.1 hn
    | complete _ ready =>
      refine ⟨fun _ hs => (nomatch hs), fun _ hs => (nomatch hs), fun _ hs => (nomatch hs),
        fun _ => ?_⟩
      exact ⟨_, Since.now ⟨rfl, hx.completing _ ready⟩⟩
    | reject _ _ => exact of_other (by simp) (by simp) (by simp) (by simp [TransferState.outcome])
    | giveUp _ either _ =>
      refine of_other (by simp) (by simp) (by simp) fun ho => ?_
      cases ho
      cases either
    | peerEnds _ out =>
      refine of_other (by simp) (by simp) (by simp) fun ho => ?_
      cases ho
      have := out rfl
      rw [hi] at this
      cases this
    | acked ready =>
      refine ⟨fun _ hs => (nomatch hs), fun _ hs => (nomatch hs), fun _ hs => (nomatch hs),
        fun hs => ?_⟩
      obtain ⟨attempt, hc⟩ := hx.completed (by rw [ready]; exact hs)
      exact ⟨attempt, hc.concat trivial⟩

end Explained

theorem after_immutable (t : LogicalTransfer) (calls : List Call) :
    (call.after t calls).peer = t.peer ∧ (call.after t calls).transferId = t.transferId ∧
      (call.after t calls).metadata = t.metadata ∧ (call.after t calls).direction = t.direction := by
  refine call.invariant (P := fun _ t' => t'.peer = t.peer ∧ t'.transferId = t.transferId ∧
    t'.metadata = t.metadata ∧ t'.direction = t.direction) ⟨rfl, rfl, rfl, rfl⟩ ?_ calls
  intro _ t' c ⟨h₁, h₂, h₃, h₄⟩
  rcases call_cases c t' with ⟨e, he⟩ | ⟨y, t'', hr, ha⟩
  · rw [he]
    exact ⟨h₁, h₂, h₃, h₄⟩
  · rw [hr]
    obtain ⟨g₁, g₂, g₃, g₄⟩ := ha.immutable
    exact ⟨g₁.trans h₁, g₂.trans h₂, g₃.trans h₃, g₄.trans h₄⟩

theorem explained_after (peer : DeviceId) (id : TransferId) (metadata : TransferMetadata)
    (calls : List Call) :
    Explained (call.history (new peer id metadata .incoming) calls)
      (call.after (new peer id metadata .incoming) calls) := by
  refine (call.invariant (P := fun h t => t.direction = .incoming ∧ Explained h t)
    ⟨rfl, .start peer id metadata⟩ ?_ calls).2
  intro h t c ⟨hd, hx⟩
  exact ⟨(after_immutable t [c]).2.2.2.trans hd, hx.step hd c⟩

/-- **Attempts are fenced.** For every sequence of calls from a new transfer: the attempts handed out
increase strictly; a result of an attempt that is not the current one changes nothing; and an incoming
transfer has completed only if one attempt was started by a header of this transfer at the offset of
the latest acceptance and up to the end of the file, was then verified and was then published, with no
pause in between. -/
theorem attempts_are_fenced (peer : DeviceId) (id : TransferId) (metadata : TransferMetadata)
    (direction : TransferDirection) (calls : List Call) :
    ((attempts (call.history (new peer id metadata direction) calls)).Pairwise
        fun a b => a.generation < b.generation) ∧
      (∀ c attempt, c.worker = some attempt →
        (call.after (new peer id metadata direction) calls).state.held ≠ some attempt →
        (call c (call.after (new peer id metadata direction) calls)).2 =
          call.after (new peer id metadata direction) calls) ∧
      (direction = .incoming →
        (call.after (new peer id metadata direction) calls).state.outcome = some .completed →
        ∃ attempt, CompletedBy id metadata.byteLen attempt
          (call.history (new peer id metadata direction) calls)) := by
  refine ⟨?_, fun c attempt hc hs => call_of_stale hc hs, fun hd ho => ?_⟩
  · have hi : Increasing (call.history (new peer id metadata direction) calls)
        (call.after (new peer id metadata direction) calls) :=
      call.invariant ⟨List.Pairwise.nil, by simp [attempts]⟩ (fun _ _ c hi => hi.step c) calls
    exact hi.pairwise
  · subst hd
    obtain ⟨-, hid, hmeta, -⟩ := after_immutable (new peer id metadata .incoming) calls
    have hx := (explained_after peer id metadata calls).completed ho
    rw [hid, hmeta] at hx
    exact hx

end Rift.Transfer
