import Rift.Daemon.Connectivity

/-! # The backoff law

The delay before a retry, and what the attempts of a peer count over a whole history of calls. The
stability clock of a peer starts with the first connection after a loss and runs on through canonical
replacements; a loss after it has run for long enough forgets the attempts before.

The main results are `checkedRetryDelay_eq`, `retryDelay_mono`, `retryDelay_bounds`,
`connectedSince_run` and `backoff_law`. -/

namespace Rift.Daemon

open Rift.Core Rift.Ipc

/-! ### The delay -/

/-- A 64-bit result; `none` if it overflows. -/
def checked (n : ℕ) : Option ℕ := if n < 2 ^ 64 then some n else none

theorem checked_of_lt {n : ℕ} (h : n < 2 ^ 64) : checked n = some n := if_pos h

/-- The delay, with every operation checked. -/
def checkedRetryDelay (attempt sample : ℕ) : Option ℕ := do
  let factor ← checked (2 ^ min (attempt - 1) 6)
  let capMs := min (min (1000 * factor) Trust.u64Max) 60000
  let half := capMs / 2
  let product ← checked (sample * half)
  let millis ← checked (half + product / u32Max)
  return millis * nanosPerMilli

/-- The ceiling of the delay, in milliseconds. -/
def retryCeilingMs (attempt : ℕ) : ℕ := min 60000 (1000 * 2 ^ (max attempt 1 - 1))

theorem retryCeilingMs_eq (attempt : ℕ) :
    min (1000 * 2 ^ min (attempt - 1) 6) 60000 = retryCeilingMs attempt := by
  have hk : max attempt 1 - 1 = attempt - 1 := by omega
  unfold retryCeilingMs
  rw [hk, Nat.min_comm]
  by_cases h : attempt - 1 ≤ 6
  · rw [Nat.min_eq_left h]
  · have hpow : 2 ^ 6 ≤ 2 ^ (attempt - 1) := Nat.pow_le_pow_right (by decide) (by omega)
    rw [Nat.min_eq_right (by omega : 6 ≤ attempt - 1)]
    omega

theorem retryDelay_eq (attempt sample : ℕ) :
    retryDelay attempt sample =
      (retryCeilingMs attempt / 2 + sample * (retryCeilingMs attempt / 2) / u32Max) *
        nanosPerMilli := by
  unfold retryDelay
  rw [retryCeilingMs_eq]

theorem retryCeilingMs_mono {a a' : ℕ} (h : a ≤ a') : retryCeilingMs a ≤ retryCeilingMs a' := by
  have hpow : 2 ^ (max a 1 - 1) ≤ 2 ^ (max a' 1 - 1) :=
    Nat.pow_le_pow_right (by decide) (by omega)
  unfold retryCeilingMs
  omega

theorem retryCeilingMs_bounds (attempt : ℕ) :
    1000 ≤ retryCeilingMs attempt ∧ retryCeilingMs attempt ≤ 60000 := by
  have hpow : 1 ≤ 2 ^ (max attempt 1 - 1) := Nat.one_le_two_pow
  unfold retryCeilingMs
  omega

theorem two_dvd_retryCeilingMs (attempt : ℕ) : 2 ∣ retryCeilingMs attempt := by
  unfold retryCeilingMs
  omega

theorem jitter_le {sample : ℕ} (h : sample ≤ u32Max) (half : ℕ) :
    sample * half / u32Max ≤ half :=
  Nat.div_le_of_le_mul (Nat.mul_le_mul_right half h)

/-- **No overflow.** -/
theorem checkedRetryDelay_eq {sample : ℕ} (attempt : ℕ) (h : sample ≤ u32Max) :
    checkedRetryDelay attempt sample = some (retryDelay attempt sample) := by
  have hfactor : 2 ^ min (attempt - 1) 6 ≤ 2 ^ 6 :=
    Nat.pow_le_pow_right (by decide) (Nat.min_le_right ..)
  have hcap : min (min (1000 * 2 ^ min (attempt - 1) 6) Trust.u64Max) 60000 =
      retryCeilingMs attempt := by
    rw [← retryCeilingMs_eq, Nat.min_eq_left (show _ ≤ Trust.u64Max by unfold Trust.u64Max; omega)]
  have hhalf : retryCeilingMs attempt / 2 ≤ 30000 := by
    have := (retryCeilingMs_bounds attempt).2
    omega
  have hproduct : sample * (retryCeilingMs attempt / 2) ≤ u32Max * 30000 := Nat.mul_le_mul h hhalf
  have hjitter := jitter_le h (retryCeilingMs attempt / 2)
  have hu32 : u32Max = 4294967295 := rfl
  have h₁ : 2 ^ min (attempt - 1) 6 < 2 ^ 64 := by omega
  have h₂ : sample * (retryCeilingMs attempt / 2) < 2 ^ 64 := by omega
  have h₃ : retryCeilingMs attempt / 2 + sample * (retryCeilingMs attempt / 2) / u32Max < 2 ^ 64 := by
    omega
  rw [retryDelay_eq]
  simp only [checkedRetryDelay, checked_of_lt h₁, Option.bind_eq_bind, Option.bind_some, hcap,
    checked_of_lt h₂, checked_of_lt h₃, Option.pure_def]

/-- **The delay grows with the attempts and with the sample.** -/
theorem retryDelay_mono {attempt attempt' sample sample' : ℕ} (ha : attempt ≤ attempt')
    (hs : sample ≤ sample') : retryDelay attempt sample ≤ retryDelay attempt' sample' := by
  have hhalf : retryCeilingMs attempt / 2 ≤ retryCeilingMs attempt' / 2 :=
    Nat.div_le_div_right (retryCeilingMs_mono ha)
  rw [retryDelay_eq, retryDelay_eq]
  exact Nat.mul_le_mul_right _
    (Nat.add_le_add hhalf (Nat.div_le_div_right (Nat.mul_le_mul hs hhalf)))

/-- **The delay is between one half of its ceiling and all of it.** -/
theorem retryDelay_bounds {sample : ℕ} (attempt : ℕ) (h : sample ≤ u32Max) :
    retryCeilingMs attempt * nanosPerMilli ≤ 2 * retryDelay attempt sample ∧
      retryDelay attempt sample ≤ retryCeilingMs attempt * nanosPerMilli := by
  have hjitter := jitter_le h (retryCeilingMs attempt / 2)
  have heven := Nat.div_mul_cancel (two_dvd_retryCeilingMs attempt)
  rw [retryDelay_eq]
  generalize sample * (retryCeilingMs attempt / 2) / u32Max = jitter at hjitter ⊢
  constructor
  · rw [← Nat.mul_assoc]
    exact Nat.mul_le_mul_right _ (by omega)
  · exact Nat.mul_le_mul_right _ (by omega)

theorem toNat_le_u32Max (n : UInt32) : n.toNat ≤ u32Max := Nat.le_of_lt_succ n.toNat_lt

/-! ### Histories of calls -/

/-- The calls that are made on a managed peer; `dialling` is what the scheduler does to it. -/
inductive PeerCall
  | connected (sessionId : SessionId)
  | lost (sample : UInt32)
  | failed (failure : ConnectivityFailure) (sample : UInt32)
  | resume
  | suspend
  | dialling
  deriving DecidableEq

/-- The peer after a call. -/
def PeerCall.apply (peer : Peer) (now : ℕ) : PeerCall → Peer
  | .connected sessionId => peer.connected sessionId now
  | .lost sample => peer.lost now sample.toNat
  | .failed failure sample => peer.failed failure now sample.toNat
  | .resume => peer.resume now
  | .suspend => peer.suspend
  | .dialling => peer.dialling

def PeerCall.isLost : PeerCall → Bool
  | .lost _ => true
  | _ => false

def PeerCall.isFailed : PeerCall → Bool
  | .failed _ _ => true
  | _ => false

def PeerCall.isConnected : PeerCall → Bool
  | .connected _ => true
  | _ => false

/-- A peer after some calls, each with the instant at which it is made. -/
def Peer.run (peer : Peer) (history : List (ℕ × PeerCall)) : Peer :=
  history.foldl (fun peer call => call.2.apply peer call.1) peer

@[simp] theorem Peer.run_append (peer : Peer) (h h' : List (ℕ × PeerCall)) :
    peer.run (h ++ h') = (peer.run h).run h' :=
  List.foldl_append

@[simp] theorem Peer.run_cons (peer : Peer) (now : ℕ) (call : PeerCall)
    (h : List (ℕ × PeerCall)) : peer.run ((now, call) :: h) = (call.apply peer now).run h := rfl

@[simp] theorem Peer.run_nil (peer : Peer) : peer.run [] = peer := rfl

/-- The history ends where the stability clock is off: at the creation, or at a loss. -/
def Unstarted (history : List (ℕ × PeerCall)) : Prop :=
  history = [] ∨ ∃ before now sample, history = before ++ [(now, .lost sample)]

/-- Nothing has connected since the creation, or since the last loss. -/
def Unconnected (history : List (ℕ × PeerCall)) : Prop :=
  ∃ before idle, history = before ++ idle ∧ Unstarted before ∧
    ∀ call ∈ idle, call.2.isLost = false ∧ call.2.isConnected = false

/-- The first connection since the creation, or since the last loss, was made at an instant. -/
def ConnectedFrom (history : List (ℕ × PeerCall)) (since : ℕ) : Prop :=
  ∃ before sessionId after, history = before ++ (since, .connected sessionId) :: after ∧
    Unconnected before ∧ ∀ call ∈ after, call.2.isLost = false

theorem failed_connectedSince (peer : Peer) (failure : ConnectivityFailure) (now sample : ℕ) :
    (peer.failed failure now sample).connectedSince = peer.connectedSince := by
  cases failure <;> rfl

theorem apply_connectedSince (peer : Peer) (now : ℕ) (call : PeerCall) :
    (call.apply peer now).connectedSince =
      if call.isLost then none
      else if call.isConnected then some (peer.connectedSince.getD now)
      else peer.connectedSince := by
  cases call with
  | connected => rfl
  | lost sample =>
    show (peer.lost now sample.toNat).connectedSince = none
    unfold Peer.lost
    split_ifs
    · rfl
    · exact failed_connectedSince ..
  | failed failure sample => exact failed_connectedSince ..
  | resume =>
    show (peer.resume now).connectedSince = peer.connectedSince
    unfold Peer.resume
    split_ifs <;> rfl
  | suspend =>
    show peer.suspend.connectedSince = peer.connectedSince
    unfold Peer.suspend
    split_ifs <;> rfl
  | dialling => rfl

theorem Unconnected.snoc {history : List (ℕ × PeerCall)} (h : Unconnected history)
    {call : ℕ × PeerCall} (hl : call.2.isLost = false) (hc : call.2.isConnected = false) :
    Unconnected (history ++ [call]) := by
  obtain ⟨before, idle, rfl, hb, hi⟩ := h
  refine ⟨before, idle ++ [call], List.append_assoc .., hb, List.forall_mem_append.mpr ⟨hi, ?_⟩⟩
  simpa using ⟨hl, hc⟩

theorem ConnectedFrom.snoc {history : List (ℕ × PeerCall)} {since : ℕ}
    (h : ConnectedFrom history since) {call : ℕ × PeerCall} (hl : call.2.isLost = false) :
    ConnectedFrom (history ++ [call]) since := by
  obtain ⟨before, s, after, rfl, hb, ha⟩ := h
  refine ⟨before, s, after ++ [call], by simp, hb, List.forall_mem_append.mpr ⟨ha, ?_⟩⟩
  simpa using hl

theorem clock_history (start : ℕ) (history : List (ℕ × PeerCall)) :
    (((Peer.new start).run history).connectedSince = none → Unconnected history) ∧
      ∀ since, ((Peer.new start).run history).connectedSince = some since →
        ConnectedFrom history since := by
  induction history using List.reverseRecOn with
  | nil => exact ⟨fun _ => ⟨[], [], rfl, Or.inl rfl, nofun⟩, nofun⟩
  | append_singleton history call ih =>
    obtain ⟨now, call⟩ := call
    obtain ⟨hrest, hfrom⟩ := ih
    simp only [Peer.run_append, Peer.run_cons, Peer.run_nil, apply_connectedSince]
    cases call with
    | lost sample =>
      exact ⟨fun _ => ⟨_, [], (List.append_nil _).symm, Or.inr ⟨history, now, sample, rfl⟩, nofun⟩,
        nofun⟩
    | connected sessionId =>
      refine ⟨nofun, fun since hsince => ?_⟩
      cases hc : ((Peer.new start).run history).connectedSince with
      | none =>
        obtain rfl : now = since := by simpa [hc, PeerCall.isLost, PeerCall.isConnected] using hsince
        exact ⟨history, sessionId, [], rfl, hrest hc, nofun⟩
      | some since' =>
        obtain rfl : since' = since := by
          simpa [hc, PeerCall.isLost, PeerCall.isConnected] using hsince
        exact (hfrom since' hc).snoc rfl
    | failed | resume | suspend | dialling =>
      exact ⟨fun h => (hrest h).snoc rfl rfl, fun since h => (hfrom since h).snoc rfl⟩

theorem run_connectedSince_of_idle (peer : Peer) {idle : List (ℕ × PeerCall)}
    (h : ∀ call ∈ idle, call.2.isLost = false ∧ call.2.isConnected = false) :
    (peer.run idle).connectedSince = peer.connectedSince := by
  induction idle generalizing peer with
  | nil => rfl
  | cons call idle ih =>
    obtain ⟨⟨hl, hc⟩, hidle⟩ := List.forall_mem_cons.mp h
    rw [Peer.run_cons, ih _ hidle, apply_connectedSince, hl, hc]
    rfl

theorem run_connectedSince_of_some {peer : Peer} {since : ℕ} (hp : peer.connectedSince = some since)
    {after : List (ℕ × PeerCall)} (h : ∀ call ∈ after, call.2.isLost = false) :
    (peer.run after).connectedSince = some since := by
  induction after generalizing peer with
  | nil => exact hp
  | cons call after ih =>
    obtain ⟨hl, hafter⟩ := List.forall_mem_cons.mp h
    refine ih ?_ hafter
    rw [apply_connectedSince, hl, hp]
    split_ifs <;> simp_all

theorem Unconnected.connectedSince (start : ℕ) {history : List (ℕ × PeerCall)}
    (h : Unconnected history) :
    ((Peer.new start).run history).connectedSince = none := by
  obtain ⟨before, idle, rfl, hb, hi⟩ := h
  rw [Peer.run_append, run_connectedSince_of_idle _ hi]
  rcases hb with rfl | ⟨before, now, sample, rfl⟩
  · rfl
  · rw [Peer.run_append, Peer.run_cons, Peer.run_nil, apply_connectedSince]
    rfl

/-- **The stability clock** runs from the first connection since the creation or the last loss. -/
theorem connectedSince_run (start : ℕ) (history : List (ℕ × PeerCall)) (since : ℕ) :
    ((Peer.new start).run history).connectedSince = some since ↔ ConnectedFrom history since := by
  refine ⟨(clock_history start history).2 since, ?_⟩
  rintro ⟨before, s, after, rfl, hb, ha⟩
  rw [Peer.run_append, Peer.run_cons]
  refine run_connectedSince_of_some ?_ ha
  rw [apply_connectedSince, hb.connectedSince start]
  rfl

/-! ### Deadlines and attempts -/

/-- A loss after a connection that was stable. -/
def Resets (history : List (ℕ × PeerCall)) (now : ℕ) (call : PeerCall) : Prop :=
  call.isLost ∧ ∃ since, ConnectedFrom history since ∧ since + stableReset ≤ now

/-- The failures after which a peer is dialled again. -/
def Retryable (failure : ConnectivityFailure) : Prop := failure = .network ∨ failure = .capacity

/-- A retryable failure, or any other loss of a peer that is not suspended. -/
def Raises (history : List (ℕ × PeerCall)) (peer : Peer) (now : ℕ) (call : PeerCall) : Prop :=
  (∃ failure sample, call = .failed failure sample ∧ Retryable failure) ∨
    call.isLost ∧ peer.suspended = false ∧ ¬ Resets history now call

theorem failed_attempt (peer : Peer) (failure : ConnectivityFailure) (now sample : ℕ) :
    (Retryable failure → (peer.failed failure now sample).attempt = min (peer.attempt + 1) u32Max) ∧
      (¬ Retryable failure → (peer.failed failure now sample).attempt = peer.attempt) := by
  unfold Retryable
  cases failure <;> simp [Peer.failed]

theorem failed_due {peer : Peer} {failure : ConnectivityFailure} {now sample due : ℕ}
    (h : (peer.failed failure now sample).due = some due) :
    ∃ attempt, due = now + retryDelay attempt sample := by
  cases failure <;> simp only [Peer.failed] at h <;> cases h <;> exact ⟨_, rfl⟩

theorem lost_due {peer : Peer} {now sample due : ℕ} (h : (peer.lost now sample).due = some due) :
    ∃ attempt, due = now + retryDelay attempt sample := by
  unfold Peer.lost at h
  split_ifs at h
  exact failed_due h

theorem armed_bounds {peer : Peer} {now due : ℕ} {call : PeerCall}
    (hcall : call.isLost ∨ call.isFailed) (hdue : (call.apply peer now).due = some due) :
    now + 500 * nanosPerMilli ≤ due ∧ due ≤ now + 60000 * nanosPerMilli := by
  obtain ⟨attempt, sample, rfl⟩ :
      ∃ (attempt : ℕ) (sample : UInt32), due = now + retryDelay attempt sample.toNat := by
    cases call with
    | lost sample =>
      obtain ⟨attempt, h⟩ := lost_due hdue
      exact ⟨attempt, sample, h⟩
    | failed failure sample =>
      obtain ⟨attempt, h⟩ := failed_due hdue
      exact ⟨attempt, sample, h⟩
    | connected | resume | suspend | dialling => simp [PeerCall.isLost, PeerCall.isFailed] at hcall
  obtain ⟨hlow, hhigh⟩ := retryDelay_bounds attempt (toNat_le_u32Max sample)
  obtain ⟨hmin, hmax⟩ := retryCeilingMs_bounds attempt
  have h₁ := Nat.mul_le_mul_right nanosPerMilli hmin
  have h₂ := Nat.mul_le_mul_right nanosPerMilli hmax
  omega

theorem unlinked_attempt (start : ℕ) (history : List (ℕ × PeerCall)) (now : ℕ) (sample : UInt32) :
    (Resets history now (.lost sample) → (((Peer.new start).run history).unlinked now).attempt = 0) ∧
      (¬ Resets history now (.lost sample) →
        (((Peer.new start).run history).unlinked now).attempt =
          ((Peer.new start).run history).attempt) := by
  have hclock := connectedSince_run start history
  have hspace : 0 < stableReset := by decide
  have hiff : Resets history now (.lost sample) ↔
      (((Peer.new start).run history).connectedSince.any fun since => stableReset ≤ now - since) := by
    constructor
    · rintro ⟨-, since, hfrom, hlate⟩
      rw [(hclock since).mpr hfrom]
      exact decide_eq_true (by omega)
    · intro hany
      obtain ⟨since, hsince, hlate⟩ := (Option.any_eq_true ..).mp hany
      have hlate := of_decide_eq_true hlate
      exact ⟨rfl, since, (hclock since).mp hsince, by omega⟩
  rw [hiff]
  unfold Peer.unlinked
  exact ⟨fun h => if_pos h, fun h => if_neg h⟩

theorem other_attempt (peer : Peer) (now : ℕ) {call : PeerCall} (hl : call.isLost = false)
    (hf : call.isFailed = false) : (call.apply peer now).attempt = peer.attempt := by
  cases call with
  | lost => cases hl
  | failed => cases hf
  | connected | dialling => rfl
  | resume =>
    show (peer.resume now).attempt = peer.attempt
    unfold Peer.resume
    split_ifs <;> rfl
  | suspend =>
    show peer.suspend.attempt = peer.attempt
    unfold Peer.suspend
    split_ifs <;> rfl

theorem apply_attempt (start : ℕ) (history : List (ℕ × PeerCall)) (now : ℕ) (call : PeerCall) :
    let peer := (Peer.new start).run history
    (Resets history now call → (call.apply peer now).attempt = if peer.suspended then 0 else 1) ∧
      (Raises history peer now call →
        (call.apply peer now).attempt = min (peer.attempt + 1) u32Max) ∧
      (¬ Resets history now call → ¬ Raises history peer now call →
        (call.apply peer now).attempt = peer.attempt) := by
  intro peer
  cases call with
  | lost sample =>
    obtain ⟨hreset, hkeep⟩ := unlinked_attempt start history now sample
    have hnetwork := (failed_attempt (peer.unlinked now) .network now sample.toNat).1 (Or.inl rfl)
    show (_ → (peer.lost now sample.toNat).attempt = _) ∧
      (_ → (peer.lost now sample.toNat).attempt = _) ∧
      (_ → _ → (peer.lost now sample.toNat).attempt = _)
    unfold Peer.lost
    by_cases hs : peer.suspended = true
    · rw [if_pos hs, if_pos hs]
      refine ⟨hreset, ?_, fun h _ => hkeep h⟩
      rintro (⟨_, _, h, -⟩ | ⟨-, h, -⟩)
      · cases h
      · rw [hs] at h
        cases h
    · rw [if_neg hs, if_neg hs, hnetwork]
      have hs : peer.suspended = false := by simpa using hs
      refine ⟨fun h => ?_, ?_, fun h h' => absurd (Or.inr ⟨rfl, hs, h⟩) h'⟩
      · rw [hreset h]
        rfl
      · rintro (⟨_, _, h, -⟩ | ⟨-, -, h⟩)
        · cases h
        · rw [hkeep h]
  | failed failure sample =>
    obtain ⟨hraise, hkeep⟩ := failed_attempt peer failure now sample.toNat
    refine ⟨fun h => absurd h.1 (by simp [PeerCall.isLost]), ?_, fun _ h' => hkeep fun hr =>
      h' (Or.inl ⟨failure, sample, rfl, hr⟩)⟩
    rintro (⟨_, _, h, hr⟩ | ⟨h, -⟩)
    · cases h
      exact hraise hr
    · cases h
  | connected | resume | suspend | dialling =>
    refine ⟨fun h => absurd h.1 (by simp [PeerCall.isLost]), ?_, fun _ _ => ?_⟩
    · rintro (⟨_, _, h, -⟩ | ⟨h, -⟩) <;> cases h
    · exact other_attempt peer now rfl rfl

theorem attempt_le (start : ℕ) (history : List (ℕ × PeerCall)) :
    ((Peer.new start).run history).attempt ≤ u32Max := by
  induction history using List.reverseRecOn with
  | nil => exact Nat.zero_le _
  | append_singleton history call ih =>
    obtain ⟨hreset, hraise, hkeep⟩ := apply_attempt start history call.1 call.2
    rw [Peer.run_append]
    show (call.2.apply _ call.1).attempt ≤ u32Max
    by_cases hr : Resets history call.1 call.2
    · rw [hreset hr]
      split_ifs <;> decide
    by_cases hs : Raises history ((Peer.new start).run history) call.1 call.2
    · rw [hraise hs]
      exact Nat.min_le_right ..
    · rw [hkeep hr hs]
      exact ih

/-- **The backoff law.** -/
theorem backoff_law :
    (∀ attempt sample : UInt32,
      checkedRetryDelay attempt.toNat sample.toNat =
          some (retryDelay attempt.toNat sample.toNat) ∧
        retryCeilingMs attempt.toNat * nanosPerMilli ≤
          2 * retryDelay attempt.toNat sample.toNat ∧
        retryDelay attempt.toNat sample.toNat ≤ retryCeilingMs attempt.toNat * nanosPerMilli) ∧
    (∀ attempt attempt' sample sample' : UInt32, attempt ≤ attempt' → sample ≤ sample' →
      retryDelay attempt.toNat sample.toNat ≤ retryDelay attempt'.toNat sample'.toNat) ∧
    ∀ (start : ℕ) (history : List (ℕ × PeerCall)) (now : ℕ) (call : PeerCall),
      let peer := (Peer.new start).run history
      let peer' := call.apply peer now
      (call.isLost ∨ call.isFailed → ∀ due, peer'.due = some due →
          now + 500 * nanosPerMilli ≤ due ∧ due ≤ now + 60000 * nanosPerMilli) ∧
        peer.attempt ≤ u32Max ∧
        (Resets history now call → peer'.attempt = if peer.suspended then 0 else 1) ∧
        (Raises history peer now call → peer'.attempt = min (peer.attempt + 1) u32Max) ∧
        (¬ Resets history now call → ¬ Raises history peer now call →
          peer'.attempt = peer.attempt) := by
  refine ⟨fun attempt sample => ?_, fun attempt attempt' sample sample' ha hs => ?_,
    fun start history now call => ?_⟩
  · have hsample := toNat_le_u32Max sample
    exact ⟨checkedRetryDelay_eq _ hsample, retryDelay_bounds _ hsample⟩
  · exact retryDelay_mono (UInt32.le_iff_toNat_le.mp ha) (UInt32.le_iff_toNat_le.mp hs)
  · exact ⟨fun hcall due hdue => armed_bounds hcall hdue, attempt_le start history,
      apply_attempt start history now call⟩

end Rift.Daemon
