import Rift.Daemon.Runs

/-! # No reconnect is lost

A managed peer that is `connecting` has a live dial whose result moves it on, as long as the retry
timer takes no peer to which a cancelled dial or one that is to pair is on record. It does not look: it
marks the peer as being dialled before the dial is known to start, and work that is in the way then
ends without touching the peer.

The main results are `Handled.settled`, `reconnect_is_not_lost` and `held_up_retry_is_lost`. -/

namespace Rift.Daemon

open Rift.Lib Rift.Lib.Interference Rift.Core Rift.Ipc Rift.Session Std Std.Do
open Rift.Trust hiding Event

set_option mvcgen.warning false

variable {blake3 : Blake3} {B : Bounds} {hand : Hand} {σ σ' : Daemon}
  {d d' : DeviceId}

/-! ### What a handled event leaves -/

theorem Settled.erase (h : Settled σ d) (tasks : ExtTreeMap ℕ Task)
    (hd : d' = d → ∀ record, σ.outbound[d']? = some record →
      record.cancelled = true ∨ record.pairing = true) :
    Settled { σ with tasks, outbound := σ.outbound.erase d' } d := by
  intro p hp hs
  obtain ⟨record, hr, hc, hpairing⟩ := h p hp hs
  refine ⟨record, Map.erase_eq_some.mpr ⟨fun heq => ?_, hr⟩, hc, hpairing⟩
  subst heq
  rcases hd rfl record hr with hcancelled | hpairs
  · rw [hc] at hcancelled
    cases hcancelled
  · rw [hpairing] at hpairs
    cases hpairs

theorem Settled.cancelOutbound (h : Settled σ d) (result : OperationResult DialResult)
    (hp : ∀ p, σ.connectivity.peers[d']? = some p → p.state ≠ .connecting) :
    Settled (σ.cancelOutbound d' result) d := by
  by_cases heq : d' = d
  · subst heq
    exact fun p hpeer hs => absurd hs (hp p hpeer)
  · intro p hpeer hs
    obtain ⟨record, hr, hlive⟩ := h p hpeer hs
    exact ⟨record, (Map.modify_ne heq).trans hr, hlive⟩

theorem Opening.settled {s : Step} (ho : Opening σ s hand σ') (h : ∀ d, Settled σ d)
    (hd : ∀ waiting, hand ≠ .dial d false waiting) : Settled σ' d := by
  cases ho with
  | cancelledJoined _ hr hc =>
    refine (h d).erase _ fun _ record hr' => Or.inl ?_
    cases hr.symm.trans hr'
    exact hc
  | dialJoined _ hr hc =>
    refine (h d).erase _ fun heq record hr' => Or.inr ?_
    cases hr.symm.trans hr'
    subst heq
    by_contra hp
    rw [Bool.not_eq_true] at hp
    exact hd _ (by rw [hp])
  | sessionJoined =>
    refine (h d).modify (fun p hs => ?_) (fun hl => hl) rfl
    exact absurd hs (Peer.ended_state_ne _ _ _ _)
  | due htake =>
    obtain ⟨-, hpeers⟩ := Scheduler.takeDue_eq_some htake
    intro p hp hs
    rw [show ({ σ with connectivity := _ } : Daemon).connectivity.peers = _ from hpeers] at hp
    rcases Map.modify_eq_some.mp hp with ⟨rfl, -⟩ | ⟨-, hp⟩
    · exact absurd rfl (hd [])
    · exact h d p hp hs
  | idle | accepted | command | workerJoined | clientJoined | staleJoined | pairingJoined => exact h d

theorem Answering.settled (ha : Answering blake3 B σ σ') (h : Settled σ d) : Settled σ' d := by
  cases ha with
  | yield _ _ hp hc =>
    refine h.cancelOutbound _ fun q hq => ?_
    cases hp.symm.trans hq
    rw [hc]
    simp
  | @disconnect s r _ =>
    have hsuspended : Settled (σ.changePeer r.info.deviceId fun peer =>
        peer.suspend.lost σ.shared.clock 0) d := by
      refine h.modify (fun p hs => ?_) (fun hl => hl) rfl
      exact absurd hs (Peer.lost_state_ne ..).1
    refine hsuspended.cancelOutbound (.error (operationError .connectionFailed
      "local outbound reconnect suspended")) fun p hp => ?_
    rcases Map.modify_eq_some.mp hp with ⟨-, q, -, rfl⟩ | ⟨hne, -⟩
    · exact (Peer.lost_state_ne ..).1
    · exact absurd rfl hne
  | @invalidate τ m _ _ _ he reason _ =>
    have hev := evolves_spec he
    have hτ : Settled τ d := by
      unfold Settled Live
      rw [hev.connectivity, hev.outbound]
      exact h
    intro p hp hs
    obtain ⟨hp, hne⟩ := (Sound.invalidatePeer_peers reason).mp hp
    obtain ⟨record, hr, hlive⟩ := hτ p hp hs
    exact ⟨record, (Map.modify_ne hne).trans hr, hlive⟩

theorem Settled.addWaiter (h : Settled σ d) (waiting : List OutboundReply) :
    Settled (σ.addWaiter d' waiting) d := by
  intro p hp hs
  obtain ⟨record, hr, hlive⟩ := h p hp hs
  by_cases heq : d' = d
  · subst heq
    exact ⟨_, Map.modify_eq_some.mpr (Or.inl ⟨rfl, record, hr, rfl⟩), hlive⟩
  · exact ⟨record, (Map.modify_ne heq).trans hr, hlive⟩

theorem Closing.settled (hc : Closing blake3 B hand σ σ') (hb : ¬ B.blocked d)
    (h : (∀ waiting, hand ≠ .dial d false waiting) → Settled σ d) : Settled σ' d := by
  cases hc with
  | @answered _ d₀ pairing _ _ hs _ waiting =>
    by_cases heq : d₀ = d ∧ pairing = false
    · obtain ⟨rfl, rfl⟩ := heq
      exact (hs rfl).resolve_right hb
    · refine h fun waiting' heq' => heq ?_
      cases heq'
      exact ⟨rfl, rfl⟩
  | @waits _ d₀ record waiting hr hcancelled _ _ =>
    by_cases heq : d₀ = d ∧ record.pairing = false
    · obtain ⟨rfl, hp⟩ := heq
      exact fun _ _ _ =>
        ⟨_, Map.modify_eq_some.mpr (Or.inl ⟨rfl, record, hr, rfl⟩), hcancelled, hp⟩
    · refine (h fun waiting' heq' => heq ?_).addWaiter waiting
      injection heq' with hd hp
      exact ⟨hd, hp⟩
  | delivered _ _ _ he =>
    have hev := Settled.evolved (σ := σ.setPending _ _) (h nofun) (evolves_spec he)
    exact hev
  | abandoned _ _ he =>
    have hev := Settled.evolved (σ := σ.setPending _ _) (h nofun) (evolves_spec he)
    exact hev
  | @resolved _ _ registered _ _ reply _ =>
    unfold resolvePairing
    cases registered <;> cases reply <;> exact h nofun
  | none | respawned | request | refused => exact h nofun

/-- **No handled event leaves a peer `connecting` without a dial**, unless one is held up. -/
theorem Handled.settled {s : Step} (hh : Handled blake3 B σ s σ') (hb : ∀ d, ¬ B.blocked d)
    (h : ∀ d, Settled σ d) (d : DeviceId) : Settled σ' d :=
  hh.keep (P := fun hand σ => ∀ d, (∀ waiting, hand ≠ .dial d false waiting) → Settled σ d)
    (fun hm h d hd => hm.settled (h d hd)) (fun ho h _ hd => ho.settled (fun d => h d nofun) hd)
    (fun ha h d hd => ha.settled (h d hd)) (fun hc h d _ => hc.settled (hb d) (h d))
    (fun d _ => h d) d nofun

/-! ### Runs -/

/-- The peer that the retry timer takes, if it takes one. -/
def taken (blake3 : Blake3) (σ : Daemon) (script : List (List TaskStep)) :
    Option DeviceId :=
  let w := World.acted (taskStep blake3) ⟨σ, script⟩
  (w.state.connectivity.takeDue w.state.shared.clock).map Prod.fst

/-- The retry timer takes no peer to which a cancelled dial or one that is to pair is on record. -/
def Unhindered (blake3 : Blake3) (σ : Daemon) : Step → Prop
  | .timer script => ∀ d, taken blake3 σ script = some d → ∀ record, σ.outbound[d]? = some record →
    record.cancelled = false ∧ record.pairing = false
  | _ => True

/-- The bounds within which no dial is held up. -/
def unhindered : Bounds := { unbounded with blocked := fun _ => False }

theorem within_unhindered {s : Step} (h : ∀ d, Settled σ d) (hu : Unhindered blake3 σ s) :
    Within blake3 unhindered σ s where
  acts _ _ := trivial
  timer script hs := by
    subst hs
    refine ⟨fun d connectivity htake hblocks => ?_, fun _ _ _ hu => absurd trivial hu⟩
    obtain ⟨record, hr, hheld⟩ := hblocks
    obtain ⟨hc, hp⟩ := hu d (by simp [taken, htake]) record hr
    simp [hc, hp] at hheld
  command _ _ _ := ⟨fun d _ _ => Or.inl (h d), fun _ _ _ hu => absurd trivial hu,
    fun _ _ _ _ _ => trivial, fun _ _ => trivial⟩
  join _ _ _ := ⟨fun _ _ _ _ => trivial, fun _ _ _ _ _ => trivial,
    fun _ _ _ _ _ _ _ _ => trivial, fun _ _ _ _ => trivial, fun _ _ _ _ => Or.inr trivial⟩

theorem settled_step (hs : Sound σ) {s : Step} (hu : Unhindered blake3 σ s)
    (h : ∀ d, Settled σ d) (d : DeviceId) : Settled (step blake3 σ s) d :=
  (step_handled hs (within_unhindered h hu)).settled (fun _ => id) h d

theorem Beginning.settled {localId : DeviceId} {now : ℕ} (h : Beginning localId now σ)
    (d : DeviceId) : Settled σ d := by
  intro p hp hs
  rw [h.peers d] at hp
  split_ifs at hp
  cases hp
  cases hs

theorem outbound_joined (hs : Sound σ) {id : ℕ} {pairs : Bool}
    {result : OperationResult ConnectionCandidate} {record : OutboundRecord}
    (ht : σ.tasks[id]? = some (.outbound d record.token pairs (.done result)))
    (hr : σ.outbound[d]? = some record) (hc : record.cancelled = false)
    (script : List (List TaskStep)) : (step blake3 σ (.join id script)).outbound[d]? = none := by
  have hjoined : Sound { σ with tasks := σ.tasks.erase id, outbound := σ.outbound.erase d } :=
    hs.dialJoined ht
  have hdialled := dialled_of_coherent (hs.tasked.coherent id _ ht)
  rw [← (hs.tasked.token id _ d record.token pairs ht rfl).2 record hr rfl] at hdialled
  have hallowed : World.Allowed (unbounded : Bounds).acts
      ⟨{ σ with tasks := σ.tasks.erase id, outbound := σ.outbound.erase d }, script⟩ :=
    fun _ _ _ _ => trivial
  have hfinish : ∀ r w', (finishDial blake3 d record result).run _ = (r, w') → _ :=
    finishDial_outbound hjoined hallowed hdialled fun _ _ _ => trivial
  have hrun : ∀ r w', (handleTaskOutput blake3 (.outbound d record.token result)).run
      ⟨{ σ with tasks := σ.tasks.erase id }, script⟩ = (r, w') → w'.state.outbound[d]? = none := by
    refine run_of_triple ?_
    mvcgen [handleTaskOutput]
    case vc1.h_1 w heq hnone =>
      subst heq
      exact absurd (hr.symm.trans hnone) (by simp)
    case vc2.h_2.isTrue w heq record' hr' hne =>
      subst heq
      cases hr.symm.trans hr'
      exact absurd rfl hne
    case vc3.h_2.isFalse.isTrue w heq record' hr' _ hc' =>
      subst heq
      cases hr.symm.trans hr'
      rw [hc] at hc'
      cases hc'
    case vc4.h_2.isFalse.isFalse w heq record' hr' _ _ =>
      subst heq
      cases hr.symm.trans hr'
      exact (congrArg (fun m : ExtTreeMap DeviceId OutboundRecord => m[d]?) (hfinish _ _ rfl)).trans
        ExtTreeMap.getElem?_erase_self
  rw [step, ht]
  exact hrun _ _ rfl

/-- **No reconnect is lost** in a run in which the retry timer takes no peer whose dial is held up.
Every managed peer that is `connecting` has a live dial for a session, with its task, and once that is
joined the peer is not `connecting` any more. So a managed peer that is neither suspended nor connected,
`unresolved` or `blocked` has a deadline or such a dial. -/
theorem reconnect_is_not_lost {σ₀ : Daemon} (hbegin : Begins blake3 σ₀) {steps : List Step}
    (hmeets : Meets blake3 (Unhindered blake3) σ₀ steps) :
    let σ := run blake3 σ₀ steps
    (∀ (d : DeviceId) (p : Peer), σ.connectivity.peers[d]? = some p → p.state = .connecting →
      ∃ record, σ.outbound[d]? = some record ∧ record.cancelled = false ∧ record.pairing = false ∧
        ∃ (id : ℕ) (task : Task), σ.tasks[id]? = some task ∧
          task.kind = .outbound d record.token false) ∧
    (∀ (d : DeviceId) (p : Peer), σ.connectivity.peers[d]? = some p → p.suspended = false →
      p.sessionId = none → p.state ≠ .unresolved → p.state ≠ .blocked →
      p.due.isSome ∨ Live σ d) ∧
    ∀ (d : DeviceId) (record : OutboundRecord) (id : ℕ) (pairs : Bool)
      (result : OperationResult ConnectionCandidate) (script : List (List TaskStep)) (p : Peer),
      σ.outbound[d]? = some record → record.cancelled = false → record.pairing = false →
      σ.tasks[id]? = some (.outbound d record.token pairs (.done result)) →
      (step blake3 σ (.join id script)).connectivity.peers[d]? = some p → p.state ≠ .connecting := by
  intro σ
  obtain ⟨localId, now, hfirst⟩ := hbegin.beginning
  obtain ⟨hs, hsettled⟩ : Sound σ ∧ ∀ d, Settled σ d :=
    hmeets.keep (fun _ _ hs hu h => settled_step hs hu h) hfirst.sound hfirst.settled
  refine ⟨fun d p hp hstate => ?_, fun d p hp hsusp hnone hu hb => ?_,
    fun d record id pairs result script p hr hc hpairing ht hp hstate => ?_⟩
  · obtain ⟨record, hr, hc, hpairing⟩ := hsettled d p hp hstate
    obtain ⟨id, task, ht, hk⟩ := hs.tasked.dialled d record hr
    exact ⟨record, hr, hc, hpairing, id, task, ht, hpairing ▸ hk⟩
  · have hw := hs.registered.wellFormed d p hp
    cases hstate : p.state with
    | disconnected => exact Or.inl (hw.due_iff.mpr (Or.inl hstate))
    | backoff => exact Or.inl (hw.due_iff.mpr (Or.inr hstate))
    | connecting => exact Or.inr (hsettled d p hp hstate)
    | connected =>
      have hsome := hw.connected hstate
      rw [hnone] at hsome
      cases hsome
    | suspended =>
      have hsuspended := (hw.suspended hstate).1
      rw [hsusp] at hsuspended
      cases hsuspended
    | unresolved => exact absurd hstate hu
    | blocked => exact absurd hstate hb
  · have hunhindered : Unhindered blake3 σ (.join id script) := trivial
    obtain ⟨record', hr', -⟩ := settled_step hs hunhindered hsettled d p hp hstate
    rw [outbound_joined hs ht hr hc script] at hr'
    cases hr'

/-- The retry timer dials a peer that is due, and nothing is in the way. -/
theorem sample_retry_is_live : ∃ σ₀, Begins sampleBlake3 σ₀ ∧ ∃ record,
    (run sampleBlake3 σ₀ [.timer []]).outbound[samplePeer.deviceId]? = some record ∧
      record.cancelled = false ∧ record.pairing = false := by
  obtain ⟨σ₀, hbegin, hstate⟩ := exists_sampleBegin (.repeated 1) (some sampleJournal)
    (fun σ => ((run sampleBlake3 σ [.timer []]).connectivity.peers[samplePeer.deviceId]?).any
      fun p => p.state = .connecting) (by decide +kernel)
  obtain ⟨p, hp, hconnecting⟩ := (Option.any_eq_true _ _).mp hstate
  obtain ⟨_, _, hfirst⟩ := hbegin.beginning
  have hunhindered : Unhindered sampleBlake3 σ₀ (.timer []) := by
    intro d _ record hr
    rw [hfirst.outbound] at hr
    simp at hr
  have hmeets : Meets sampleBlake3 (Unhindered sampleBlake3) σ₀ [.timer []] := ⟨hunhindered, trivial⟩
  obtain ⟨record, hr, hc, hpairing, -⟩ :=
    (reconnect_is_not_lost hbegin hmeets).1 _ p hp (of_decide_eq_true hconnecting)
  exact ⟨σ₀, hbegin, record, hr, hc, hpairing⟩

/-- **A reconnect that is lost.** While this device dials another one to pair, that one pairs with it
and connects. Its session ends, the retry timer takes the peer, and the dial that is to pair is in the
way; once that has failed, the peer is `connecting` without a deadline, a session or a dial. -/
theorem held_up_retry_is_lost : ∃ σ, Reachable sampleBlake3 σ ∧ ∃ p,
    σ.connectivity.peers[samplePeer.deviceId]? = some p ∧ p.state = .connecting ∧ p.due = none ∧
      p.suspended = false ∧ p.sessionId = none ∧ σ.outbound.size = 0 := by
  let steps : List Step :=
    .command (.request (.beginPairing samplePeer.deviceId) 1 .ok) [] ::
      samplePairingRequest 0 ++ sampleConfirmed 1 3 ++ taskDoes 5 [.ended (.ok ())] ++
      [.join 5 [], .task (.elapses (2000 * nanosPerMilli)), .timer []] ++
      taskDoes 2 [.bootstrap (.error .retryable)] ++ [.join 2 []]
  obtain ⟨σ, hreach, hσ⟩ := exists_sampleRun (.repeated 1) none steps
    (fun σ => σ.outbound.size = 0 ∧ σ.connectivity.peers[samplePeer.deviceId]?.any fun p =>
      p.state = .connecting ∧ p.due = none ∧ p.suspended = false ∧ p.sessionId = none)
    (by decide +kernel)
  obtain ⟨hempty, hpeer⟩ := of_decide_eq_true hσ
  obtain ⟨p, hp, hlost⟩ := (Option.any_eq_true _ _).mp hpeer
  obtain ⟨hstate, hdue, hsusp, hnone⟩ := of_decide_eq_true hlost
  exact ⟨σ, hreach, p, hp, hstate, hdue, hsusp, hnone, hempty⟩

end Rift.Daemon
