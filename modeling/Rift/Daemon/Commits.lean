import Rift.Daemon.Attempts

/-! # Which pairings may still commit

A pairing is registered at the trust generation of its peer. Whatever takes its record out while its
task has not ended, a revocation or a forget, leaves that generation behind a fence, so that its task
cannot commit any more. The decision that a task has, or finds in its channel, is the
one noted in the record.

The main definition is `Fitting`, the main results `Fitting.grants` and `Fitting.trusted_acted`. -/

namespace Rift.Daemon

open Rift.Lib Rift.Lib.Interference Rift.Core Rift.Ipc Rift.Session Std
open Rift.Trust hiding Event

variable {blake3 : Blake3} {B : Bounds} {hand : Hand} {σ σ' : Daemon}
  {out : DeviceId → Prop}

/-! ### One pairing -/

/-- What holds of a pairing task and the record of its pairing, if there is one; `out` says that trust
in the peer has just been withdrawn, and the record is to go. -/
structure PairingFits (store : StoreInner) (record : Option PendingRecord) (out : Prop)
    (pending : Pending) (commands : List PairingCommand) (phase : PairingTaskPhase) : Prop where
  device : ∀ r, record = some r → pending.remoteDeviceId = r.info.deviceId
  current : record.isSome → ¬ out →
    store.currentGeneration pending.remoteDeviceId = pending.trustGeneration
  outdated : record = none ∨ out → phase.isDone = false →
    Fenced store pending.remoteDeviceId pending.trustGeneration
  decided : ∀ r, record = some r → ∀ accepted, (∃ reply, .confirm accepted reply ∈ commands) ∨
    (∃ reply, phase = .confirming accepted reply) → r.resolving = some accepted

namespace PairingFits

variable {store store' : StoreInner} {record : Option PendingRecord} {withdrawn : Prop}
  {pending : Pending} {commands commands' : List PairingCommand} {phase phase' : PairingTaskPhase}

theorem grows (h : PairingFits store record withdrawn pending commands phase)
    (hg : Grows store store') : PairingFits store' record withdrawn pending commands phase where
  device := h.device
  current hr ho := (hg.generation _).trans (h.current hr ho)
  outdated hr hd := (h.outdated hr hd).grows hg
  decided := h.decided

theorem stepped {sh sh' : Shared} {event : TaskEvent}
    (h : PairingFits sh.store record withdrawn pending commands phase)
    (hs : PairingTaskPhase.Stepped blake3 pending commands sh event phase commands' phase' sh') :
    PairingFits sh'.store record withdrawn pending commands' phase' := by
  have hgrown := h.grows hs.grows
  refine ⟨hgrown.device, hgrown.current, fun hr hd => hgrown.outdated hr ?_,
    fun r hr accepted hdecided => ?_⟩
  · cases hs with
    | confirms | commits => rfl
    | refused | ends | completes => cases hd
  · refine h.decided r hr accepted ?_
    cases hs with
    | confirms accepted' reply rest heq =>
      subst heq
      rcases hdecided with ⟨reply', hmem⟩ | ⟨reply', heq⟩
      · exact Or.inl ⟨reply', List.mem_cons_of_mem _ hmem⟩
      · cases heq
        exact Or.inl ⟨_, List.mem_cons_self⟩
    | commits =>
      rcases hdecided with hmem | ⟨_, heq⟩
      · exact Or.inl hmem
      · cases heq
    | refused | ends | completes =>
      rcases hdecided with ⟨_, hmem⟩ | ⟨_, heq⟩
      · cases hmem
      · cases heq

theorem accepted {reply : ReplyId}
    (h : PairingFits store record withdrawn pending commands (.confirming true reply))
    (hfence : ¬ Fenced store pending.remoteDeviceId pending.trustGeneration) :
    ¬ withdrawn ∧
      ∃ r, record = some r ∧ r.info.deviceId = pending.remoteDeviceId ∧ r.resolving = some true := by
  refine ⟨fun hout => hfence (h.outdated (Or.inr hout) rfl), ?_⟩
  cases hr : record with
  | none => exact absurd (h.outdated (Or.inl hr) rfl) hfence
  | some r =>
    exact ⟨r, rfl, (h.device r hr).symm, h.decided r hr true (Or.inr ⟨reply, rfl⟩)⟩

end PairingFits

theorem Acted.store {s : TaskStep} (ha : Acted blake3 σ s σ') :
    σ'.shared.store = σ.shared.store ∨
      ∃ (id : ℕ) (a : PairingAttemptId) (pending : Pending) (commands : List PairingCommand)
        (reply : ReplyId) (io : IoOutcome),
        σ.tasks[id]? = some (.pairing a pending commands (.confirming true reply)) ∧
        σ'.shared.store = (commit blake3 σ.shared.store (.trust pending.pairing.peer)
          (some (pending.remoteDeviceId, pending.trustGeneration)) io).2 := by
  have hcommit (pending : Pending) (io : IoOutcome) :
      trustIfGeneration blake3 σ.shared.store pending.pairing.peer pending.trustGeneration io =
        commit blake3 σ.shared.store (.trust pending.pairing.peer)
          (some (pending.remoteDeviceId, pending.trustGeneration)) io :=
    (Call.trustIfGeneration pending.pairing.peer pending.trustGeneration).run_eq_commit _ io
  cases ha with
  | outside _ hstore => exact Or.inl hstore
  | task ht hs =>
    cases hs with
    | incoming h => exact Or.inl h.store
    | outbound h => exact Or.inl h.store
    | session | ipcClient => exact Or.inl rfl
    | @pairing a pending commands _ _ _ _ h =>
      cases h with
      | confirms | ends | completes => exact Or.inl rfl
      | commits reply io =>
        exact Or.inr ⟨_, a, pending, commands, reply, io, ht, congrArg Prod.snd (hcommit pending io)⟩
      | refused reply io =>
        exact Or.inr ⟨_, a, pending, commands, reply, io, ht, congrArg Prod.snd (hcommit pending io)⟩

/-! ### What the tasks see of the records -/

section Records

variable {records : ExtTreeMap PairingAttemptId PendingRecord}

theorem Task.step_records (hc : ∀ a, records.contains a = σ.pendingPairings.contains a) (task : Task)
    (event : TaskEvent) :
    task.step blake3 { σ with pendingPairings := records } event = task.step blake3 σ event := by
  unfold Task.step cancelSignalled
  simp only [hc]

theorem taskStep_records (hc : ∀ a, records.contains a = σ.pendingPairings.contains a)
    (s : TaskStep) :
    taskStep blake3 { σ with pendingPairings := records } s =
      { taskStep blake3 σ s with pendingPairings := records } := by
  cases s with
  | task id event =>
    simp only [taskStep, Task.step_records hc]
    cases σ.tasks[id]?.bind fun task => task.step blake3 σ event <;> rfl
  | closes | elapses | entropy | lookup => rfl

/-- **The tasks see no more of the records than which pairings have one.** -/
theorem evolves_records {P : TaskStep → Prop}
    (he : Evolves (taskStep blake3) P { σ with pendingPairings := records } σ')
    (hc : ∀ a, records.contains a = σ.pendingPairings.contains a) :
    ∃ τ, Evolves (taskStep blake3) P σ τ ∧ σ' = { τ with pendingPairings := records } := by
  obtain ⟨actions, hall, rfl⟩ := he
  induction actions generalizing σ with
  | nil => exact ⟨σ, .refl σ, rfl⟩
  | cons s actions ih =>
    obtain ⟨hs, hall⟩ := List.forall_mem_cons.mp hall
    have hacted : Acted blake3 σ s (taskStep blake3 σ s) := taskStep_spec σ s
    have hsame := hacted.evolved.pendingPairings
    obtain ⟨τ, hτ, heq⟩ := ih (σ := taskStep blake3 σ s) (by rw [hsame]; exact hc) hall
    refine ⟨τ, (Evolves.step hs σ).trans hτ, ?_⟩
    rw [← heq, List.foldl_cons, taskStep_records hc]

end Records

/-- A registered pairing with the device was accepted. -/
def Accepted (records : ExtTreeMap PairingAttemptId PendingRecord) (d : DeviceId) : Prop :=
  ∃ (a : PairingAttemptId) (record : PendingRecord), records[a]? = some record ∧
    record.info.deviceId = d ∧ record.resolving = some true

/-! ### All pairings -/

/-- Every pairing task fits the record of its pairing; from the peers in `out` trust has just been
withdrawn. -/
def Fitting (out : DeviceId → Prop) (σ : Daemon) : Prop :=
  ∀ (id : ℕ) a pending commands phase, σ.tasks[id]? = some (.pairing a pending commands phase) →
    PairingFits σ.shared.store σ.pendingPairings[a]? (out pending.remoteDeviceId) pending commands
      phase

/-- From no peer. -/
abbrev nobody : DeviceId → Prop := fun _ => False

namespace Fitting

theorem mono (h : Fitting out σ) (hg : Grows σ.shared.store σ'.shared.store)
    (hp : σ'.pendingPairings = σ.pendingPairings)
    (ht : ∀ (id : ℕ) a pending commands phase,
      σ'.tasks[id]? = some (.pairing a pending commands phase) →
      σ.tasks[id]? = some (.pairing a pending commands phase)) : Fitting out σ' := by
  intro id a pending commands phase hid
  rw [hp]
  exact (h id a pending commands phase (ht id a pending commands phase hid)).grows hg

theorem spawn (h : Fitting out σ) (task : Task) (hk : ∀ a pending, task.kind ≠ .pairing a pending)
    (hg : Grows σ.shared.store σ'.shared.store) (hp : σ'.pendingPairings = σ.pendingPairings)
    (ht : σ'.tasks = σ.tasks.insert σ.nextTask task) : Fitting out σ' := by
  refine h.mono hg hp fun id a pending commands phase hid => ?_
  rw [ht] at hid
  rcases Map.insert_eq_some.mp hid with ⟨-, rfl⟩ | ⟨-, hid⟩
  · exact absurd rfl (hk a pending)
  · exact hid

theorem erase (h : Fitting out σ) {id : ℕ} (hg : Grows σ.shared.store σ'.shared.store)
    (hp : σ'.pendingPairings = σ.pendingPairings) (ht : σ'.tasks = σ.tasks.erase id) :
    Fitting out σ' := by
  refine h.mono hg hp fun id' a pending commands phase hid => ?_
  rw [ht] at hid
  exact (Map.erase_eq_some.mp hid).2

theorem acted {s : TaskStep} (h : Fitting out σ) (ha : Acted blake3 σ s σ') : Fitting out σ' := by
  have hgrown : Grows σ.shared.store σ'.shared.store := ha.grows
  cases ha with
  | outside => exact h.mono hgrown rfl fun _ _ _ _ _ hid => hid
  | @task id event t t' sh' ht hs =>
    intro id' a pending commands phase hid
    rcases Map.insert_eq_some.mp hid with ⟨rfl, rfl⟩ | ⟨-, hid⟩
    · cases hs with
      | pairing hs => exact (h id a pending _ _ ht).stepped hs
    · exact (h id' a pending commands phase hid).grows hgrown

theorem evolves {P : TaskStep → Prop} (h : Fitting out σ) (he : Evolves (taskStep blake3) P σ σ') :
    Fitting out σ' :=
  he.stable (fun σ s _ h => h.acted (taskStep_spec σ s)) h

/-- **A pairing that may commit** is registered and was accepted, and trust in its peer has not been
withdrawn. -/
theorem grants (h : Fitting out σ) {id : ℕ} {a : PairingAttemptId} {pending : Pending}
    {commands : List PairingCommand} {reply : ReplyId} {record : Bytes}
    (ht : σ.tasks[id]? = some (.pairing a pending commands (.confirming true reply)))
    (hc : commitChecks blake3 σ.shared.store (.trust pending.pairing.peer)
      (some (pending.remoteDeviceId, pending.trustGeneration)) = .ok record) :
    ¬ out pending.remoteDeviceId ∧ Accepted σ.pendingPairings pending.remoteDeviceId := by
  obtain ⟨-, -, hstale, hvalid, -⟩ := commitChecks_ok_iff.mp hc
  refine ((h id a pending commands _ ht).accepted ?_).imp_right fun hr => ⟨a, hr⟩
  rintro (hlt | ⟨hrevoked, -⟩)
  · simp only [StoreInner.isStale, decide_eq_false_iff_not, not_not] at hstale
    exact Nat.ne_of_gt hlt hstale
  · have hdecision := state_eq_revoked_iff.mp hrevoked
    have hpeer : pending.pairing.peer.deviceId = pending.remoteDeviceId := rfl
    simp [validateTransition, hpeer, hdecision] at hvalid

/-- **A peer becomes trusted** by a pairing that was accepted. -/
theorem trusted_acted (h : Fitting out σ) {s : TaskStep} (ha : Acted blake3 σ s σ') {d : DeviceId}
    (ht : σ'.shared.store.state d = some .trusted) :
    σ.shared.store.state d = some .trusted ∨ ¬ out d ∧ Accepted σ.pendingPairings d := by
  rcases ha.store with hstore | ⟨id, a, pending, commands, reply, io, hid, hstore⟩
  · rw [hstore] at ht
    exact Or.inl ht
  rw [hstore] at ht
  rcases commit_cases blake3 σ.shared.store (.trust pending.pairing.peer)
    (some (pending.remoteDeviceId, pending.trustGeneration)) io with
    ⟨_, -, he⟩ | ⟨record, hc, -, he⟩ | ⟨_, _, _, _, -, -, he, -⟩
  · rw [he] at ht
    exact Or.inl ht
  · rw [he] at ht
    obtain ⟨peer, hpeer⟩ := state_eq_trusted_iff.mp ht
    rcases Map.insert_eq_some.mp hpeer with ⟨rfl, -⟩ | ⟨-, hpeer⟩
    · exact Or.inr (h.grants hid hc)
    · exact Or.inl (state_eq_trusted_iff.mpr ⟨peer, hpeer⟩)
  · rw [he] at ht
    exact Or.inl ht

theorem untrusted {P : TaskStep → Prop} {d : DeviceId} (h : Fitting out σ) (hout : out d)
    (hd : σ.shared.store.state d ≠ some .trusted) (he : Evolves (taskStep blake3) P σ σ') :
    σ'.shared.store.state d ≠ some .trusted :=
  (he.stable (I := fun σ => Fitting out σ ∧ σ.shared.store.state d ≠ some .trusted)
    (fun σ s _ h => ⟨h.1.acted (taskStep_spec σ s), fun ht =>
      (h.1.trusted_acted (taskStep_spec σ s) ht).elim h.2 fun hgranted => hgranted.1 hout⟩)
    ⟨h, hd⟩).2

theorem receive (h : Fitting out σ) (attempts : List PairingAttemptId) (command : PairingCommand)
    (hg : Grows σ.shared.store σ'.shared.store) (hp : σ'.pendingPairings = σ.pendingPairings)
    (ht : σ'.tasks = σ.tasks.map fun _ task => task.receive attempts command)
    (hc : ∀ a ∈ attempts, ∀ r, σ.pendingPairings[a]? = some r → ∀ accepted reply,
      command = .confirm accepted reply → r.resolving = some accepted) : Fitting out σ' := by
  intro id a pending commands phase hid
  rw [ht] at hid
  obtain ⟨u, hu, heq⟩ := Map.map_eq_some.mp hid
  cases u with
  | pairing a' pending' commands' phase' =>
    cases heq
    have hfits := (h id a pending commands' phase hu).grows hg
    rw [hp]
    refine ⟨hfits.device, hfits.current, hfits.outdated, fun r hr accepted hdecided => ?_⟩
    rcases hdecided with ⟨reply, hmem⟩ | hphase
    · split_ifs at hmem with hlistens
      · rcases List.mem_append.mp hmem with hmem | hmem
        · exact hfits.decided r hr accepted (Or.inl ⟨reply, hmem⟩)
        · exact hc a hlistens.1 r hr accepted reply (List.mem_singleton.mp hmem).symm
      · exact hfits.decided r hr accepted (Or.inl ⟨reply, hmem⟩)
    · exact hfits.decided r hr accepted (Or.inr hphase)
  | incoming | outbound | session | ipcClient => cases heq

theorem remove (h : Fitting nobody σ) {a₀ : PairingAttemptId}
    (hg : Grows σ.shared.store σ'.shared.store)
    (hp : σ'.pendingPairings = σ.pendingPairings.erase a₀)
    (ht : ∀ (id : ℕ) a pending commands phase,
      σ'.tasks[id]? = some (.pairing a pending commands phase) →
      σ.tasks[id]? = some (.pairing a pending commands phase) ∧ (a = a₀ → phase.isDone = true)) :
    Fitting nobody σ' := by
  intro id a pending commands phase hid
  obtain ⟨hid, hdone⟩ := ht id a pending commands phase hid
  have hfits := (h id a pending commands phase hid).grows hg
  rw [hp]
  by_cases ha : a₀ = a
  · subst ha
    rw [ExtTreeMap.getElem?_erase_self]
    refine ⟨nofun, nofun, fun _ hd => ?_, nofun⟩
    rw [hdone rfl] at hd
    cases hd
  · rw [Map.erase_ne ha]
    exact hfits

end Fitting

/-! ### Moves, answers, openings and closings -/

theorem Move.fitting (hm : Move blake3 B hand σ σ') (hat : Attempted σ) (h : Fitting nobody σ) :
    Fitting nobody σ' := by
  cases hm with
  | act => exact h.acted (taskStep_spec _ _)
  | manage hi =>
    obtain ⟨-, peers, rfl⟩ := mem_of_insertPeer hi
    exact h.mono (.refl _) rfl fun _ _ _ _ _ hid => hid
  | dial => exact h.spawn (.outbound ..) nofun (.refl _) rfl rfl
  | @pend _ _ pending _ hg _ _ _ origin =>
    intro id a p commands phase hid
    rcases Map.insert_eq_some.mp hid with ⟨-, heq⟩ | ⟨-, hid⟩
    · cases heq
      have hrecord : (σ.addPending pending origin).pendingPairings[σ.nextPairingId]? = some _ :=
        ExtTreeMap.getElem?_insert_self
      rw [hrecord]
      refine ⟨fun r hr => ?_, fun _ _ => hg, fun ho => ?_, fun r hr accepted hdecided => ?_⟩
      · cases hr
        rfl
      · rcases ho with ho | ho
        · cases ho
        · exact ho.elim
      · rcases hdecided with ⟨_, hmem⟩ | ⟨_, heq⟩
        · cases hmem
        · cases heq
    · have hne : σ.nextPairingId ≠ a := (hat.queue id a p commands phase hid).1.ne'
      have hrecord : (σ.addPending pending origin).pendingPairings[a]? = _ := Map.insert_ne hne
      rw [hrecord]
      exact h id a p commands phase hid
  | @openSession _ _ existing =>
    rcases existing with _ | ⟨s, r, closed⟩ <;>
      exact h.spawn (.session ..) nofun (.refl _) rfl rfl
  | commitFails _ he => exact h.mono (grows_commit_error he) rfl fun _ _ _ _ _ hid => hid
  | hint | close | drop | resume | resolved | fail | coalesce =>
    exact h.mono (.refl _) rfl fun _ _ _ _ _ hid => hid

theorem Opening.fitting {s : Step} (ho : Opening σ s hand σ') (hat : Attempted σ)
    (h : Fitting nobody σ) : Fitting nobody σ' := by
  cases ho with
  | accepted => exact h.spawn (.ipcClient false) nofun (.refl _) rfl rfl
  | workerJoined | clientJoined | staleJoined | cancelledJoined | dialJoined | sessionJoined =>
    exact h.erase (.refl _) rfl rfl
  | @pairingJoined id _ a pending _ _ _ ht =>
    refine h.remove (.refl _) rfl fun id' b p commands phase hid => ?_
    obtain ⟨hne, hother⟩ := Map.erase_eq_some.mp hid
    refine ⟨hother, ?_⟩
    rintro rfl
    have hsame := hat.unique _ _ _ _ b pending p ht hother
    exact absurd (hsame rfl rfl) hne
  | idle | command | due => exact h.mono (.refl _) rfl fun _ _ _ _ _ hid => hid

/-- Trust is withdrawn from a peer: behind the fence are then all its pairings, until their records are
taken out. -/
theorem Fitting.withdrawn (h : Fitting nobody σ) (hs : Sound σ) {m : TrustMutation} {io : IoOutcome}
    (hm : ∀ peer, m ≠ .trust peer) (hok : (commit blake3 σ.shared.store m none io).1 = .ok ()) :
    Fitting (fun d => m.deviceId = d) (σ.setStore (commit blake3 σ.shared.store m none io).2) := by
  obtain ⟨-, hgen⟩ := hs.bounded.commit blake3 m none io
  intro id a pending commands phase hid
  have hfits := h id a pending commands phase hid
  refine ⟨hfits.device, fun hr hout => ?_, fun hr hphase => ?_, hfits.decided⟩
  · refine (hgen _).trans ?_
    rw [if_neg]
    · exact hfits.current hr not_false
    · rintro ⟨rfl, -⟩
      exact hout rfl
  · by_cases hd : m.deviceId = pending.remoteDeviceId
    · rw [← hd]
      refine fenced_commit hs.bounded hm hok ?_
      rw [hd]
      exact hs.tasked.captured id _ _ _ hid rfl
    · exact (hfits.outdated (Or.inl (hr.resolve_right hd)) hphase).commit hs.bounded hm

theorem Fitting.invalidatePeer {d : DeviceId} (h : Fitting (fun d' => d = d') σ)
    (reason : SessionCloseReason) : Fitting nobody (σ.invalidatePeer d reason) := by
  let attempts := (σ.pendingPairings.toList.filter fun entry => entry.2.info.deviceId = d).map Prod.fst
  have hcancelled : Fitting (fun d' => d = d')
      { σ with tasks := σ.tasks.map fun _ task => task.receive attempts .cancel } :=
    h.receive attempts .cancel (.refl _) rfl rfl fun _ _ _ _ _ _ => nofun
  intro id a pending commands phase hid
  have hfits := hcancelled id a pending commands phase hid
  have hrecord (r : PendingRecord) : (σ.invalidatePeer d reason).pendingPairings[a]? = some r ↔
      σ.pendingPairings[a]? = some r ∧ r.info.deviceId ≠ d := by
    refine Map.filter_eq_some.trans (and_congr_right fun _ => ?_)
    rw [decide_eq_true_eq]
  refine ⟨fun r hr => hfits.device r ((hrecord r).mp hr).1, fun hr _ => ?_, fun hr hphase => ?_,
    fun r hr => hfits.decided r ((hrecord r).mp hr).1⟩
  · obtain ⟨r, hr⟩ := Option.isSome_iff_exists.mp hr
    obtain ⟨hr, hne⟩ := (hrecord r).mp hr
    refine hfits.current (Option.isSome_iff_exists.mpr ⟨r, hr⟩) fun hd => hne ?_
    rw [hd]
    exact (hfits.device r hr).symm
  · refine hfits.outdated ?_ hphase
    by_cases hd : d = pending.remoteDeviceId
    · exact Or.inr hd
    · refine Or.inl ?_
      by_contra hsome
      obtain ⟨r, hr'⟩ := Option.ne_none_iff_exists'.mp hsome
      have hkept := (hrecord r).mpr ⟨hr', fun heq => hd (heq.symm.trans (hfits.device r hr').symm)⟩
      rcases hr with hr | hr
      · rw [hkept] at hr
        cases hr
      · exact hr

theorem Answering.fitting (ha : Answering blake3 B σ σ') (hs : Sound σ) (h : Fitting nobody σ) :
    Fitting nobody σ' := by
  cases ha with
  | yield | disconnect => exact h.mono (.refl _) rfl fun _ _ _ _ _ hid => hid
  | @invalidate τ m io hm hok he reason _ =>
    have hτ := (h.withdrawn hs hm hok).evolves he
    exact (hτ.invalidatePeer reason).mono (.refl _) rfl fun _ _ _ _ _ hid => hid

theorem Fitting.setPending (h : Fitting out σ) {a : PairingAttemptId} {record : PendingRecord}
    (ha : σ.pendingPairings[a]? = some record) (hr : record.resolving = none) (accepted : Bool) :
    Fitting out (σ.setPending a { record with resolving := some accepted }) := by
  intro id b pending commands phase hid
  have hfits := h id b pending commands phase hid
  by_cases hab : a = b
  · subst hab
    have hrecord : (σ.setPending a { record with resolving := some accepted }).pendingPairings[a]? =
        some { record with resolving := some accepted } := ExtTreeMap.getElem?_insert_self
    rw [ha] at hfits
    rw [hrecord]
    refine ⟨fun r hr' => ?_, fun _ => hfits.current rfl, fun ho => hfits.outdated (ho.imp_left nofun),
      fun r hr' accepted' hdecided => ?_⟩
    · cases hr'
      exact hfits.device record rfl
    · have hsome := hfits.decided record rfl accepted' hdecided
      rw [hr] at hsome
      cases hsome
  · have hrecord : (σ.setPending a { record with resolving := some accepted }).pendingPairings[b]? =
        σ.pendingPairings[b]? := Map.insert_ne hab
    rw [hrecord]
    exact hfits

theorem Closing.fitting (hc : Closing blake3 B hand σ σ') (h : Fitting nobody σ) :
    Fitting nobody σ' := by
  cases hc with
  | respawned => exact h.spawn (.incoming .connecting) nofun (.refl _) rfl rfl
  | @delivered _ τ a record accepted ha hr _ he _ reply =>
    have hτ := (h.setPending ha hr accepted).evolves he
    refine hτ.receive [a] (.confirm accepted reply) (.refl _) rfl rfl fun b hb r hrecord acc rep heq => ?_
    obtain rfl := List.mem_singleton.mp hb
    cases heq
    rw [(evolves_spec he).pendingPairings] at hrecord
    have hself : (σ.setPending b { record with resolving := some accepted }).pendingPairings[b]? =
        some { record with resolving := some accepted } := ExtTreeMap.getElem?_insert_self
    rw [hself] at hrecord
    cases hrecord
    rfl
  | @abandoned _ τ a record accepted ha hr he hl =>
    have hτ := (h.setPending ha hr accepted).evolves he
    refine hτ.remove (.refl _) rfl fun id b pending commands phase hid => ⟨hid, ?_⟩
    rintro rfl
    have hnone := List.any_eq_false.mp hl (id, .pairing b pending commands phase)
    rw [ExtTreeMap.mem_toList_iff_getElem?_eq_some] at hnone
    simpa [Task.listensFor] using hnone hid
  | @resolved _ _ registered _ _ reply _ =>
    unfold resolvePairing
    cases registered <;> cases reply <;> exact h.mono (.refl _) rfl fun _ _ _ _ _ hid => hid
  | none | request | answered | waits | refused =>
    exact h.mono (.refl _) rfl fun _ _ _ _ _ hid => hid

theorem Beginning.fitting {localId : DeviceId} {now : ℕ} (h : Beginning localId now σ) :
    Fitting nobody σ :=
  fun id _ _ _ _ hid => nomatch h.workers id _ hid

/-- **No handled event breaks it.** -/
theorem Handled.fitting {s : Step} (hh : Handled blake3 B σ s σ') (hr : Regular .none σ)
    (h : Fitting nobody σ) : Fitting nobody σ' :=
  (hh.keep (P := fun hand σ => Regular hand σ ∧ Fitting nobody σ)
    (fun hm h => ⟨hm.regular h.1, hm.fitting h.1.attempted h.2⟩)
    (fun ho h => ⟨ho.regular h.1, ho.fitting h.1.attempted h.2⟩)
    (fun ha h => ⟨ha.regular h.1, ha.fitting h.1.orderly.sound h.2⟩)
    (fun hc h => ⟨hc.regular h.1, hc.fitting h.2⟩) ⟨hr, h⟩).2

theorem Reachable.fitting (h : Reachable blake3 σ) : Fitting nobody σ :=
  (h.keep (P := fun σ => Regular .none σ ∧ Fitting nobody σ) (fun _ _ _ hb => ⟨hb.regular, hb.fitting⟩)
    fun _ s hs h => ⟨(hs.handled s).regular h.1, (hs.handled s).fitting h.1 h.2⟩).2

end Rift.Daemon
