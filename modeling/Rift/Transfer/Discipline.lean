import Rift.Transfer.Fencing

/-! # The discipline of a transfer

What the state of a transfer says about the calls that led to it. Each direction has its own states;
a payload moves only after a local acceptance (`Consented`) on the receiving side, and after the answer
to an offer that no pause has outdated (`Answered`) on the sending side; the attempt that is held counts
the starts. An outcome is final, and a call that fails leaves no trace.

The main results are `Disciplined.step`, `outcomes_are_final` and `payload_needs_consent`. -/

namespace Rift.Transfer

open Rift.Lib Rift.Core Rift.Protocol LogicalTransfer Std.Do

set_option mvcgen.warning false

/-! ### Outcomes -/

section Outcome

variable {t t' : LogicalTransfer} {c : Call} {y : Reply} {status : TransferTerminalStatus}

theorem settled_call (h : t.state = .settled status) (c : Call) :
    (call c t).2.state = .settled status := by
  rcases call_cases c t with ⟨e, he⟩ | ⟨y, t', hr, ha⟩
  · rw [he]
    exact h
  · rw [hr]
    have ho : t.state.outcome = some status := by rw [h]; rfl
    cases ha with
    | replayPending _ _ | replayAccept _ _ _ | replayTerminal _ _ | pauseIdle _ | endAgain _
    | peerAgain _ | ackAgain _ => exact h
    | pauseActive _ live _ | giveUp live _ _ | peerEnds live _ => rw [live] at ho; cases ho
    | offerSent _ ready => rcases ready with hs | hs | hs <;> rw [hs] at h <;> cases h
    | acceptAgain _ _ ready => rcases ready with hs | ⟨o, hs⟩ <;> rw [hs] at h <;> cases h
    | acceptReceived _ _ ready | acceptFirst _ ready | startSend _ ready | startReceive _ _ _ ready
    | sendFinished _ ready | payloadVerified _ ready | complete _ ready | reject _ ready
    | acked ready =>
      rw [ready] at h
      cases h

theorem outcome_after (h : t.state.outcome = some status) (later : List Call) :
    (call.after t later).state.outcome = some status :=
  call.invariant (P := fun _ t' => t'.state.outcome = some status) h
    (fun _ _ c h => outcome_call h c) later

theorem settled_after (h : t.state = .settled status) (later : List Call) :
    (call.after t later).state = .settled status :=
  call.invariant (P := fun _ t' => t'.state = .settled status) h (fun _ _ c h => settled_call h c)
    later

theorem call_error_unchanged {e : TransferTransitionError} (h : (call c t).1 = .error e) :
    (call c t).2 = t := by
  rcases call_cases c t with ⟨e', he⟩ | ⟨y, t', hr, -⟩
  · rw [he]
  · rw [hr] at h
    cases h

end Outcome

/-! ### Directions -/

/-- The states that belong to a direction. -/
def TransferState.fits : TransferDirection → TransferState → Bool
  | .outgoing, .pendingOffer | .outgoing, .receiving _ | .outgoing, .completing _ => false
  | .incoming, .queued | .incoming, .offered | .incoming, .sending _
  | .incoming, .waitingForTerminal _ => false
  | _, _ => true

/-- The states of a receiver that has accepted. -/
def TransferState.agreed : TransferState → Bool
  | .accepted _ | .receiving _ | .completing _ | .paused => true
  | _ => false

/-- A repeated offer of an incoming transfer: it is told the outcome if there is one, and is never
out of place. -/
theorem replay_spec {t : LogicalTransfer} (hi : t.direction = .incoming) (offset : ℕ) :
    ⦃fun t' => ⌜t' = t⌝⦄ perform (.replayOffer t.metadata offset)
    ⦃post⟨fun y _ => ⌜∀ status, t.state.outcome = some status → y = .replayed (.terminal status)⌝,
      fun e _ => ⌜t.state.outcome = none ∧
        (t.state.fits t.direction = true → e ≠ .unexpectedState)⌝⟩⦄ := by
  mvcgen [perform, replayOffer, requireDirection, checkOffset, ensure]
  -- The states of the other direction are the only ones without an answer.
  case vc12 v heq _ _ state h₁ h₂ h₃ h₄ h₅ h₆ h₇ hs =>
    subst heq hs
    cases hs : v.state <;> simp_all [TransferState.outcome, TransferState.fits]
  all_goals simp_all [TransferState.outcome]

theorem replay_ended {t : LogicalTransfer} (hi : t.direction = .incoming)
    {status : TransferTerminalStatus} (h : t.state.outcome = some status) (offset : ℕ) :
    (call (.replayOffer t.metadata offset) t).1 = .ok (.replayed (.terminal status)) := by
  rcases cases_of_triple (replay_spec hi offset) rfl with ⟨y, hy, ht⟩ | ⟨e, -, ho, -⟩
  · rw [← ht status h]
    exact hy
  · rw [ho] at h
    cases h

theorem replay_in_place {t : LogicalTransfer} (hi : t.direction = .incoming)
    (hf : t.state.fits t.direction = true) (offset : ℕ) :
    (call (.replayOffer t.metadata offset) t).1 ≠ .error .unexpectedState := by
  intro h
  rcases cases_of_triple (replay_spec hi offset) rfl with ⟨y, hy, -⟩ | ⟨e, he, -, hn⟩
  · cases hy.symm.trans h
  · cases he.symm.trans h
    exact hn hf rfl

theorem replay_outgoing {t : LogicalTransfer} (ho : t.direction = .outgoing)
    (metadata : TransferMetadata) (offset : ℕ) :
    (call (.replayOffer metadata offset) t).1 = .error .wrongDirection := by
  rcases t with ⟨peer, id, own, direction, state, next⟩
  obtain rfl : direction = .outgoing := ho
  rfl

/-! ### The calls behind a payload -/

/-- A successful acceptance. -/
def Accepts (e : Entry) : Prop := ∃ offset, e = ⟨.acceptancePersisted offset, .ok .done⟩

/-- The transfer was accepted, the first time at offset zero. -/
def Consented (h : List Entry) : Prop :=
  ∃ before later, h = before ++ ⟨.acceptancePersisted 0, .ok .done⟩ :: later ∧
    ∀ e ∈ before, ¬Accepts e

/-- An offer was sent, and nothing paused since. -/
def OfferOut : List Entry → Prop :=
  Since (fun _ e => e = ⟨.offerSent, .ok .done⟩) fun e => e.call ≠ .pause

/-- An offer was sent and then answered with the offset, and nothing paused since the offer. -/
def Answered (offset : ℕ) : List Entry → Prop :=
  Since (fun before e => e = ⟨.acceptReceived offset, .ok .done⟩ ∧ OfferOut before)
    fun e => e.call ≠ .pause

/-- The attempt was started at the offset of such an answer, and nothing paused since the offer. -/
def SentBy (attempt : TransferAttempt) : List Entry → Prop :=
  Since
    (fun before e => ∃ offset, e = ⟨.startSend, .ok (.started attempt offset)⟩ ∧
      Answered offset before)
    fun e => e.call ≠ .pause

theorem Consented.concat {h : List Entry} (hc : Consented h) (e : Entry) : Consented (h ++ [e]) := by
  obtain ⟨before, later, rfl, hb⟩ := hc
  exact ⟨before, later ++ [e], by simp, hb⟩

/-- What the state of a transfer says about the calls that led to it. -/
structure Disciplined (h : List Entry) (t : LogicalTransfer) : Prop where
  fits : t.state.fits t.direction = true
  unaccepted : t.state = .pendingOffer → ∀ e ∈ h, ¬Accepts e
  consented : t.direction = .incoming → t.state.agreed = true → Consented h
  offered : t.state = .offered → OfferOut h
  answered : t.direction = .outgoing → ∀ offset, t.state = .accepted offset → Answered offset h
  sent : ∀ attempt, t.state = .sending attempt → SentBy attempt h
  bounded : ∀ offset, t.state = .accepted offset → offset ≤ t.metadata.byteLen
  counted : t.nextAttempt = (attempts h).length
  held : ∀ attempt, t.state.held = some attempt → attempt.generation = t.nextAttempt

namespace Disciplined

variable {h : List Entry} {t : LogicalTransfer} {e : Entry}

theorem start (peer : DeviceId) (id : TransferId) (metadata : TransferMetadata)
    (direction : TransferDirection) : Disciplined [] (new peer id metadata direction) := by
  cases direction
  · exact ⟨rfl, by simp, by simp [new], by simp [new], by simp [new], by simp [new], by simp [new],
      rfl, by simp [new, TransferState.held]⟩
  · exact ⟨rfl, by simp, by simp [new, TransferState.agreed], by simp [new], by simp [new],
      by simp [new], by simp [new], rfl, by simp [new, TransferState.held]⟩

theorem counted_concat (hd : Disciplined h t) (hn : startedBy e = none) :
    t.nextAttempt = (attempts (h ++ [e])).length := by
  rw [attempts_concat, hn, hd.counted]
  simp

/-- The transfer stays as it is: the event is no acceptance and no start, and no pause of anything
that a pause would stop. -/
theorem keep (hd : Disciplined h t) (ha : ¬Accepts e) (hn : startedBy e = none)
    (hp : e.call = .pause →
      t.state.held = none ∧ t.state ≠ .offered ∧ ∀ offset, t.state ≠ .accepted offset) :
    Disciplined (h ++ [e]) t where
  fits := hd.fits
  unaccepted hs e' he' := by
    rcases List.mem_append.mp he' with he' | he'
    · exact hd.unaccepted hs e' he'
    · rwa [List.mem_singleton.mp he']
  consented hi hs := (hd.consented hi hs).concat e
  offered hs := (hd.offered hs).concat fun hc => (hp hc).2.1 hs
  answered ho offset hs := (hd.answered ho offset hs).concat fun hc => (hp hc).2.2 offset hs
  sent attempt hs := by
    refine (hd.sent attempt hs).concat fun hc => ?_
    have := (hp hc).1
    rw [hs] at this
    cases this
  bounded := hd.bounded
  counted := hd.counted_concat hn
  held := hd.held

theorem rest (hd : Disciplined h t) {state : TransferState}
    (hf : state.fits t.direction = true) (hn : startedBy e = none)
    (hh : ∀ attempt, state.held = some attempt → t.state.held = some attempt)
    (hc : t.direction = .incoming → state.agreed = true → t.state.agreed = true)
    (hx : state ≠ .pendingOffer ∧ state ≠ .offered ∧ (∀ offset, state ≠ .accepted offset) ∧
      ∀ attempt, state ≠ .sending attempt) : Disciplined (h ++ [e]) { t with state } where
  fits := hf
  unaccepted hs := absurd hs hx.1
  consented hi hs := (hd.consented hi (hc hi hs)).concat e
  offered hs := absurd hs hx.2.1
  answered _ offset hs := absurd hs (hx.2.2.1 offset)
  sent attempt hs := absurd hs (hx.2.2.2 attempt)
  bounded offset hs := absurd hs (hx.2.2.1 offset)
  counted := hd.counted_concat hn
  held attempt hs := hd.held attempt (hh attempt hs)

theorem accept (hd : Disciplined h t) (hi : t.direction = .incoming) {offset : ℕ}
    (fits : offset ≤ t.metadata.byteLen)
    (hc : Consented (h ++ [⟨.acceptancePersisted offset, .ok .done⟩])) :
    Disciplined (h ++ [⟨.acceptancePersisted offset, .ok .done⟩])
      { t with state := .accepted offset } where
  fits := by rw [hi]; rfl
  unaccepted hs := nomatch hs
  consented _ _ := hc
  offered hs := nomatch hs
  answered ho := by cases hi.symm.trans ho
  sent _ hs := nomatch hs
  bounded other hs := by cases hs; exact fits
  counted := hd.counted_concat rfl
  held _ hs := nomatch hs

theorem consented_first (hd : Disciplined h t) (hs : t.state = .pendingOffer) :
    Consented (h ++ [⟨.acceptancePersisted 0, .ok .done⟩]) :=
  ⟨h, [], rfl, hd.unaccepted hs⟩

theorem begin (hd : Disciplined h t) {state : TransferState} (hf : state.fits t.direction = true)
    (hn : startedBy e = some ⟨t.nextAttempt + 1⟩) (hh : state.held = some ⟨t.nextAttempt + 1⟩)
    (hc : t.direction = .incoming → t.state.agreed = true)
    (hs : ∀ attempt, state = .sending attempt → SentBy attempt (h ++ [e])) :
    Disciplined (h ++ [e]) { t with nextAttempt := t.nextAttempt + 1, state } where
  fits := hf
  unaccepted := by rintro rfl; cases hh
  consented hi _ := (hd.consented hi (hc hi)).concat e
  offered := by rintro rfl; cases hh
  answered _ _ := by rintro rfl; cases hh
  sent := hs
  bounded _ := by rintro rfl; cases hh
  counted := by
    rw [attempts_concat, hn, hd.counted]
    simp
  held attempt ha := by
    cases hh.symm.trans ha
    rfl

theorem offer (hd : Disciplined h t) (ho : t.direction = .outgoing) :
    Disciplined (h ++ [⟨.offerSent, .ok .done⟩]) { t with state := .offered } where
  fits := by rw [ho]; rfl
  unaccepted hs := nomatch hs
  consented hi := by cases ho.symm.trans hi
  offered _ := Since.now rfl
  answered _ _ hs := nomatch hs
  sent _ hs := nomatch hs
  bounded _ hs := nomatch hs
  counted := hd.counted_concat rfl
  held _ hs := nomatch hs

theorem answer (hd : Disciplined h t) (ho : t.direction = .outgoing) {offset : ℕ}
    (fits : offset ≤ t.metadata.byteLen) (hs : t.state = .offered) :
    Disciplined (h ++ [⟨.acceptReceived offset, .ok .done⟩])
      { t with state := .accepted offset } where
  fits := by rw [ho]; rfl
  unaccepted hs := nomatch hs
  consented hi := by cases ho.symm.trans hi
  offered hs := nomatch hs
  answered _ other ha := by
    cases ha
    exact Since.now ⟨rfl, hd.offered hs⟩
  sent _ hs := nomatch hs
  bounded other ha := by cases ha; exact fits
  counted := hd.counted_concat rfl
  held _ hs := nomatch hs

/-- **One call.** -/
theorem step (hd : Disciplined h t) (c : Call) :
    Disciplined (h ++ [⟨c, (call c t).1⟩]) (call c t).2 := by
  rcases call_cases c t with ⟨e, he⟩ | ⟨y, t', hr, ha⟩
  · rw [he]
    refine hd.keep (by simp [Accepts]) (by cases c <;> rfl) fun hp => ?_
    obtain rfl : c = .pause := hp
    obtain ⟨attempt, hok⟩ := call_pause_ok t
    rw [he] at hok
    cases hok
  · rw [hr]
    have hfits := hd.fits
    cases ha with
    | offerSent out _ => exact hd.offer out
    | acceptReceived out fits ready => exact hd.answer out fits ready
    | acceptFirst inc ready => exact hd.accept inc (Nat.zero_le _) (hd.consented_first ready)
    | acceptAgain inc fits ready =>
      refine hd.accept inc fits ((hd.consented inc ?_).concat _)
      rcases ready with hs | ⟨o, hs⟩ <;> rw [hs] <;> rfl
    | replayPending _ _ | replayAccept _ _ _ | replayTerminal _ _ | endAgain _ | peerAgain _
    | ackAgain _ => exact hd.keep (by simp [Accepts]) rfl nofun
    | pauseIdle idle => exact hd.keep (by simp [Accepts]) rfl fun _ => idle
    | startSend out ready =>
      refine hd.begin (by rw [out]; rfl) rfl rfl (fun inc => ?_) fun attempt hs => ?_
      · cases out.symm.trans inc
      · cases hs
        exact Since.now ⟨_, rfl, hd.answered out _ ready⟩
    | startReceive inc _ _ ready =>
      exact hd.begin (by rw [inc]; rfl) rfl rfl (fun _ => by rw [ready]; rfl) nofun
    | sendFinished out ready =>
      refine hd.rest (by rw [out]; rfl) rfl (fun attempt hs => ?_) (by simp [TransferState.agreed])
        (by simp)
      rw [ready]
      exact hs
    | payloadVerified inc ready =>
      refine hd.rest (by rw [inc]; rfl) rfl (fun attempt hs => ?_) (fun _ _ => ?_) (by simp)
      · rw [ready]
        exact hs
      · rw [ready]
        rfl
    | pauseActive _ live old =>
      refine hd.rest (by cases t.direction <;> rfl) rfl (by simp [TransferState.held])
        (fun inc _ => ?_) (by simp)
      -- What a receiver pauses, it had accepted.
      rw [inc] at hfits
      cases hs : t.state <;> simp_all [TransferState.fits, TransferState.outcome, TransferState.agreed]
    | complete _ _ | reject _ _ | giveUp _ _ _ | peerEnds _ _ | acked _ =>
      exact hd.rest (by cases t.direction <;> rfl) rfl (by simp [TransferState.held])
        (by simp [TransferState.agreed]) (by simp)

theorem after (peer : DeviceId) (id : TransferId) (metadata : TransferMetadata)
    (direction : TransferDirection) (calls : List Call) :
    Disciplined (call.history (new peer id metadata direction) calls)
      (call.after (new peer id metadata direction) calls) :=
  call.invariant (start peer id metadata direction) (fun _ _ c hd => hd.step c) calls

end Disciplined

/-! ### Every sequence of calls -/

/-- **Outcomes are final, and failures leave no trace.** For every sequence of calls from a new
transfer and every continuation: an outcome stays, a settled transfer stays settled, a repeated offer
of the same file is told the outcome if the transfer is incoming; an outgoing one refuses every offer
for its direction, before and after the outcome; and a call that fails changes nothing. -/
theorem outcomes_are_final (peer : DeviceId) (id : TransferId) (metadata : TransferMetadata)
    (direction : TransferDirection) (calls : List Call) :
    (∀ status, (call.after (new peer id metadata direction) calls).state.outcome = some status →
      ∀ later,
        (call.after (new peer id metadata direction) (calls ++ later)).state.outcome = some status ∧
        ((call.after (new peer id metadata direction) calls).state = .settled status →
          (call.after (new peer id metadata direction) (calls ++ later)).state = .settled status) ∧
        ∀ offset,
          (call (.replayOffer metadata offset)
              (call.after (new peer id metadata direction) (calls ++ later))).1 =
            match direction with
            | .incoming => .ok (.replayed (.terminal status))
            | .outgoing => .error .wrongDirection) ∧
      (direction = .outgoing → ∀ offered offset,
        (call (.replayOffer offered offset)
            (call.after (new peer id metadata direction) calls)).1 = .error .wrongDirection) ∧
      ∀ c e, (call c (call.after (new peer id metadata direction) calls)).1 = .error e →
        (call c (call.after (new peer id metadata direction) calls)).2 =
          call.after (new peer id metadata direction) calls := by
  refine ⟨fun status hs later => ?_, fun ho offered offset => ?_,
    fun c e he => call_error_unchanged he⟩
  · obtain ⟨-, -, hm, hd⟩ := after_immutable (new peer id metadata direction) (calls ++ later)
    have ho : (call.after (new peer id metadata direction) (calls ++ later)).state.outcome =
        some status := by
      rw [call.after_append]
      exact outcome_after hs later
    refine ⟨ho, fun hf => ?_, fun offset => ?_⟩
    · rw [call.after_append]
      exact settled_after hf later
    · generalize call.after (new peer id metadata direction) (calls ++ later) = t at hm hd ho
      obtain rfl : t.metadata = metadata := hm
      obtain rfl : t.direction = direction := hd
      cases hdir : t.direction with
      | incoming => exact replay_ended hdir ho offset
      | outgoing => exact replay_outgoing hdir _ offset
  · obtain ⟨-, -, -, hd⟩ := after_immutable (new peer id metadata direction) calls
    exact replay_outgoing (hd.trans ho) offered offset

/-- A transfer of a short file. -/
def sampleMetadata : TransferMetadata :=
  ⟨⟨"a", by decide⟩, 1, FixedBytes.replicate 32 0, by decide⟩

/-- The sender of a cancelled transfer does not tell the outcome to a repeated offer. -/
theorem cancelled_sender_refuses_replay :
    (call.after (new (.repeated 1) (FixedBytes.replicate 16 0) sampleMetadata .outgoing)
        [.terminalPersisted .cancelled none]).state.outcome = some .cancelled ∧
      (call (.replayOffer sampleMetadata 0)
        (call.after (new (.repeated 1) (FixedBytes.replicate 16 0) sampleMetadata .outgoing)
          [.terminalPersisted .cancelled none])).1 ≠ .ok (.replayed (.terminal .cancelled)) := by
  decide

/-- **No payload without consent.** For every sequence of calls from a new transfer: the state is one
of its direction, so a repeated offer is never out of place; a receiver is past the offer only if it
accepted, the first time at offset zero; a sender sends only after the answer to an offer that
followed every earlier pause; an accepted offset is one of the file; and the attempt that is held is
the number of the starts. -/
theorem payload_needs_consent (peer : DeviceId) (id : TransferId) (metadata : TransferMetadata)
    (direction : TransferDirection) (calls : List Call) :
    let t := call.after (new peer id metadata direction) calls
    let h := call.history (new peer id metadata direction) calls
    (direction = .outgoing → t.state ≠ .pendingOffer ∧ (∀ attempt, t.state ≠ .receiving attempt) ∧
        ∀ attempt, t.state ≠ .completing attempt) ∧
      (direction = .incoming → t.state ≠ .queued ∧ t.state ≠ .offered ∧
        (∀ attempt, t.state ≠ .sending attempt) ∧ ∀ attempt, t.state ≠ .waitingForTerminal attempt) ∧
      (direction = .incoming → ∀ offset,
        (call (.replayOffer metadata offset) t).1 ≠ .error .unexpectedState) ∧
      (direction = .incoming → t.state.agreed = true → Consented h) ∧
      (∀ attempt, t.state = .sending attempt → SentBy attempt h) ∧
      (∀ offset, t.state = .accepted offset → offset ≤ metadata.byteLen) ∧
      ∀ attempt, t.state.held = some attempt → attempt.generation = (attempts h).length := by
  intro t h
  have hd : Disciplined h t := .after peer id metadata direction calls
  have hfits := hd.fits
  obtain ⟨-, -, hm, hdir⟩ : _ ∧ _ ∧ t.metadata = metadata ∧ t.direction = direction :=
    after_immutable (new peer id metadata direction) calls
  rw [hdir] at hfits
  refine ⟨?_, ?_, ?_, fun hi => hd.consented (hdir.trans hi), hd.sent, fun offset hs => ?_,
    fun attempt ha => (hd.held attempt ha).trans hd.counted⟩
  · rintro rfl
    cases hs : t.state <;> simp_all [TransferState.fits]
  · rintro rfl
    cases hs : t.state <;> simp_all [TransferState.fits]
  · rintro rfl offset
    rw [← hm]
    exact replay_in_place hdir (by rw [hdir]; exact hfits) offset
  · rw [← hm]
    exact hd.bounded offset hs

end Rift.Transfer
