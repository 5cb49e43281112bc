import Rift.Daemon.Supervisor
import Rift.Lib.Interference

/-! # What the tasks can change

The steps of the tasks, seen from the supervisor: connections only close, decisions only change by the
commit of a pairing, generations do not move, and a task keeps what it was spawned for.

The main definitions are `Grows` and `Evolved`, the main results `SetupPhase.step_spec`,
`PairingTaskPhase.step_spec`, `taskStep_spec` and `evolves_spec`. -/

namespace Rift.Daemon

open Rift.Lib Rift.Lib.Interference Rift.Core Rift.Ipc Rift.Protocol Rift.Session Std
open Rift.Trust hiding Event

variable {blake3 : Blake3}

/-! ### The trust store -/

/-- What a pairing's commit keeps: trust and revocations stay, and no generation moves. -/
structure Grows (s s' : StoreInner) : Prop where
  trusted : ∀ d, s.state d = some .trusted → s'.state d = some .trusted
  revoked : ∀ d, s'.state d = some .revoked ↔ s.state d = some .revoked
  generation : ∀ d, s'.currentGeneration d = s.currentGeneration d
  keyed : Keyed s.decisions → Keyed s'.decisions
  bounded : GenerationsBounded s → GenerationsBounded s'

theorem Grows.refl (s : StoreInner) : Grows s s :=
  ⟨fun _ h => h, fun _ => Iff.rfl, fun _ => rfl, id, id⟩

theorem Grows.trans {s s' s'' : StoreInner} (h : Grows s s') (h' : Grows s' s'') : Grows s s'' where
  trusted d hd := h'.trusted d (h.trusted d hd)
  revoked d := (h'.revoked d).trans (h.revoked d)
  generation d := (h'.generation d).trans (h.generation d)
  keyed hk := h'.keyed (h.keyed hk)
  bounded hb := h'.bounded (h.bounded hb)

theorem grows_trustIfGeneration (s : StoreInner) (peer : TrustedPeer) (generation : ℕ)
    (io : IoOutcome) : Grows s (trustIfGeneration blake3 s peer generation io).2 := by
  have hr : trustIfGeneration blake3 s peer generation io =
      commit blake3 s (.trust peer) (some (peer.deviceId, generation)) io :=
    (Call.trustIfGeneration peer generation).run_eq_commit s io
  have hk : Keyed s.decisions → Keyed (trustIfGeneration blake3 s peer generation io).2.decisions :=
    fun h => by rw [hr]; exact h.commit _ _ _
  have hb : GenerationsBounded s →
      GenerationsBounded (trustIfGeneration blake3 s peer generation io).2 :=
    fun h => by rw [hr]; exact (h.commit blake3 _ _ _).1
  obtain ⟨hg, ⟨-, -, hrev, hd⟩ | ⟨-, hd⟩⟩ :=
    @trustIfGeneration_cases blake3 s peer generation io
  · have hself : (trustIfGeneration blake3 s peer generation io).2.state peer.deviceId =
        some .trusted := state_eq_trusted_iff.mpr ⟨peer, by rw [hd]; simp⟩
    have hne : ∀ d, peer.deviceId ≠ d →
        (trustIfGeneration blake3 s peer generation io).2.state d = s.state d :=
      fun d h => state_congr (by rw [hd, Map.insert_ne h])
    refine ⟨fun d h => ?_, fun d => ?_, currentGeneration_congr hg, hk, hb⟩
    · by_cases heq : peer.deviceId = d
      · rw [← heq]; exact hself
      · rw [hne d heq]; exact h
    · by_cases heq : peer.deviceId = d
      · rw [← heq, hself]
        exact ⟨fun h => by simp at h, fun h => absurd h hrev⟩
      · rw [hne d heq]
  · have hs : ∀ d, (trustIfGeneration blake3 s peer generation io).2.state d = s.state d :=
      fun d => state_congr (by rw [hd])
    exact ⟨fun d h => by rw [hs]; exact h, fun d => by rw [hs], currentGeneration_congr hg, hk, hb⟩

theorem grows_commit_error {s : StoreInner} {m : TrustMutation} {expected : Option (DeviceId × ℕ)}
    {io : IoOutcome} {e : TrustStoreError} (h : (commit blake3 s m expected io).1 = .error e) :
    Grows s (commit blake3 s m expected io).2 := by
  obtain ⟨hd, hg⟩ := commit_error h
  have hs : ∀ d, (commit blake3 s m expected io).2.state d = s.state d :=
    fun d => state_congr (by rw [hd])
  exact ⟨fun d h => by rw [hs]; exact h, fun d => by rw [hs], currentGeneration_congr hg,
    fun hk => hk.commit _ _ _, fun hb => (hb.commit blake3 _ _ _).1⟩

/-! ### Setting up a connection -/

/-- The identity that an event authenticates. -/
def TaskEvent.authenticates : TaskEvent → Option DeviceId
  | .bootstrap (.ok hello) => some hello.deviceId
  | _ => none

theorem connectionError_code (e : TransportFailure) : (connectionError e).code ≠ .internal := by
  cases e <;> exact nofun

theorem sessionError_code (e : SessionError) : (sessionError e).code ≠ .internal := by
  cases e with
  | intent e => exact connectionError_code e
  | purposeNotAllowed => exact nofun
  | peerRevoked => exact nofun

theorem pairingError_code (e : PairingError) : (pairingError e).code ≠ .internal := by
  cases e with
  | transport _ source => exact connectionError_code _
  | _ => exact nofun

theorem dialPurpose_eq_authorizedSession {pairs : Bool} :
    dialPurpose pairs = .authorizedSession ↔ pairs = false := by
  cases pairs <;> simp [dialPurpose]

theorem dialPurpose_eq_pairing {pairs : Bool} : dialPurpose pairs = .pairing ↔ pairs = true := by
  cases pairs <;> simp [dialPurpose]

def ConnectionCandidate.remoteDeviceId : ConnectionCandidate → DeviceId
  | .authorized c => c.remoteDeviceId
  | .pending p => p.remoteDeviceId

def ConnectionCandidate.trustGeneration : ConnectionCandidate → ℕ
  | .authorized c => c.trustGeneration
  | .pending p => p.trustGeneration

namespace SetupPhase

/-- The identity that a setup has authenticated, with the generation it has captured for it. -/
def captured : SetupPhase → Option (DeviceId × ℕ)
  | .connecting => none
  | .capturing _ => none
  | .receivingIntent b g => some (b.remoteDeviceId, g)
  | .checking b g _ => some (b.remoteDeviceId, g)
  | .exchanging b g _ _ => some (b.remoteDeviceId, g)
  | .admitting b g _ => some (b.remoteDeviceId, g)
  | .deciding b g _ => some (b.remoteDeviceId, g)
  | .pairable b g => some (b.remoteDeviceId, g)
  | .pairing b g => some (b.remoteDeviceId, g)
  | .done (.ok candidate) => some (candidate.remoteDeviceId, candidate.trustGeneration)
  | .done (.error _) => none

/-- The identity that a setup has authenticated. -/
def identity : SetupPhase → Option DeviceId
  | .capturing b => some b.remoteDeviceId
  | phase => phase.captured.map Prod.fst

/-- The phase is one of a dial with this purpose; no error says that an invariant failed. -/
def Fits (pairs : Bool) : SetupPhase → Prop
  | .connecting => True
  | .capturing _ => True
  | .receivingIntent _ _ => False
  | .checking _ _ purpose => purpose = dialPurpose pairs
  | .exchanging _ _ purpose _ => purpose = dialPurpose pairs
  | .admitting _ _ purpose => purpose = dialPurpose pairs
  | .deciding _ _ purpose => purpose = dialPurpose pairs
  | .pairable _ _ => pairs = true
  | .pairing _ _ => pairs = true
  | .done (.ok (.pending _)) => pairs = true
  | .done (.ok (.authorized _)) => pairs = false
  | .done (.error e) => e.code ≠ .internal

theorem dropped_spec (sh : Shared) (phase : SetupPhase) :
    (phase.dropped sh).store = sh.store ∧ sh.closed ⊆ (phase.dropped sh).closed := by
  cases phase <;> simp [dropped, Shared.close, Shared.release]

/-- What one step of a setup keeps, and where it gets what it holds from. -/
structure Stepped (dial : Option (DeviceId × Bool)) (sh : Shared) (event : TaskEvent)
    (phase phase' : SetupPhase) (sh' : Shared) : Prop where
  store : sh'.store = sh.store
  closed : sh.closed ⊆ sh'.closed
  captured : ∀ d g, phase'.captured = some (d, g) → Keyed sh.store.decisions →
    phase.captured = some (d, g) ∨ g = sh.store.currentGeneration d
  identity : ∀ d, phase'.identity = some d → Keyed sh.store.decisions →
    phase.identity = some d ∨ (dial.all fun dial => dial.1 = d) ∧ event.authenticates = some d
  fits : ∀ d pairs, dial = some (d, pairs) → phase.Fits pairs → phase'.Fits pairs

theorem stepped_failed (dial : Option (DeviceId × Bool)) (sh : Shared) (event : TaskEvent)
    (phase : SetupPhase) {e : ErrorResponse} (he : e.code ≠ .internal) :
    Stepped dial sh event phase (phase.failed sh e).1 (phase.failed sh e).2 where
  store := (phase.dropped_spec sh).1
  closed := (phase.dropped_spec sh).2
  captured d g h := by simp [failed, SetupPhase.captured] at h
  identity d h := by simp [failed, SetupPhase.identity, SetupPhase.captured] at h
  fits _ _ _ _ := he

theorem stepped_of_captured {dial : Option (DeviceId × Bool)} {sh : Shared} {event : TaskEvent}
    {phase phase' : SetupPhase} {sh' : Shared} {d : DeviceId} {g : ℕ} (hs : sh'.store = sh.store)
    (hc : sh'.closed = sh.closed) (h : phase.captured = some (d, g))
    (h' : Keyed sh.store.decisions → phase'.captured = some (d, g)) (hi : phase.identity = some d)
    (hi' : Keyed sh.store.decisions → phase'.identity = some d)
    (hf : ∀ d pairs, dial = some (d, pairs) → phase.Fits pairs → phase'.Fits pairs) :
    Stepped dial sh event phase phase' sh' where
  store := hs
  closed := hc ▸ Finset.Subset.refl _
  captured d' g' hd hk := by rw [h' hk] at hd; exact Or.inl (h.trans hd)
  identity d' hd hk := by rw [hi' hk] at hd; exact Or.inl (hi.trans hd)
  fits := hf

/-- **One step of a setup.** -/
theorem step_spec {dial : Option (DeviceId × Bool)} {sh sh' : Shared} {phase phase' : SetupPhase}
    {event : TaskEvent} (h : phase.step dial sh event = some (phase', sh')) :
    Stepped dial sh event phase phase' sh' := by
  unfold SetupPhase.step at h
  split at h
  · -- connecting, bootstrapped
    split_ifs at h with hd
    cases h
    refine ⟨rfl, Finset.Subset.refl _, fun d g h => by simp [SetupPhase.captured] at h,
      fun d h _ => Or.inr ?_, fun _ _ _ _ => trivial⟩
    cases h
    exact ⟨hd, rfl⟩
  · cases h; exact stepped_failed _ _ _ _ (connectionError_code _)
  · -- capturing
    split at h <;> cases h
    · refine ⟨rfl, Finset.Subset.refl _, fun d g h _ => Or.inr ?_, fun d h _ => Or.inl h,
        fun _ _ hd => nomatch hd⟩
      cases h
      rfl
    · refine ⟨rfl, Finset.Subset.refl _, fun d g h _ => Or.inr ?_, fun d h _ => Or.inl h,
        fun _ _ hd _ => ?_⟩
      · cases h
        rfl
      · cases hd
        rfl
  · cases h
    exact stepped_of_captured rfl rfl rfl (fun _ => rfl) rfl (fun _ => rfl) fun _ _ _ hf => nomatch hf
  · cases h; exact stepped_failed _ _ _ _ (sessionError_code _)
  · -- checking
    simp only at h
    split_ifs at h <;> cases h
    · exact stepped_failed _ _ _ _ (sessionError_code _)
    · exact stepped_of_captured rfl rfl rfl (fun _ => rfl) rfl (fun _ => rfl) fun _ _ _ hf => hf
  · split_ifs at h <;> cases h
    · exact stepped_of_captured rfl rfl rfl (fun _ => rfl) rfl (fun _ => rfl) fun _ _ _ hf => hf
    · exact stepped_failed _ _ _ _ (sessionError_code _)
  · cases h; exact stepped_failed _ _ _ _ (sessionError_code _)
  · split_ifs at h <;> cases h
    · exact stepped_of_captured rfl rfl rfl (fun _ => rfl) rfl (fun _ => rfl) fun _ _ _ hf => hf
    · exact stepped_failed _ _ _ _ (sessionError_code _)
  · -- deciding
    next b generation purpose =>
    split at h
    · cases h; exact stepped_failed _ _ _ _ (sessionError_code _)
    · next c hc =>
      cases h
      obtain ⟨hg, he⟩ := admitEntry_eq_authorized hc
      have hd : Keyed sh.store.decisions → c.peer.deviceId = b.remoteDeviceId := by
        intro hk
        obtain ⟨decision, hdec, htr⟩ := Option.map_eq_some_iff.mp he
        cases decision with
        | revoked => cases htr
        | trusted peer => cases htr; exact hk _ _ hdec
      have hcap : Keyed sh.store.decisions → captured (.done (.ok (.authorized ⟨b.connection, c⟩))) =
          some (b.remoteDeviceId, generation) := by
        intro hk
        simp only [SetupPhase.captured, ConnectionCandidate.remoteDeviceId,
          ConnectionCandidate.trustGeneration, Authorized.remoteDeviceId,
          Authorized.trustGeneration, hd hk, hg]
      refine stepped_of_captured rfl rfl rfl hcap rfl
        (fun hk => congrArg (Option.map Prod.fst) (hcap hk)) fun _ pairs _ hf => ?_
      exact dialPurpose_eq_authorizedSession.mp (hf.symm.trans (admitEntry_purpose hc))
    · next hc =>
      split_ifs at h <;> cases h
      · refine stepped_of_captured rfl rfl rfl (fun _ => rfl) rfl (fun _ => rfl) fun _ pairs _ hf => ?_
        exact dialPurpose_eq_pairing.mp (hf.symm.trans (admitEntry_purpose hc))
      · exact stepped_failed _ _ _ _ nofun
  · split_ifs at h <;> cases h
    · exact stepped_failed _ _ _ _ nofun
    · exact stepped_of_captured rfl rfl rfl (fun _ => rfl) rfl (fun _ => rfl) fun _ _ _ hf => hf
  · cases h
    exact stepped_of_captured rfl rfl rfl (fun _ => rfl) rfl (fun _ => rfl) fun _ _ _ hf => hf
  · cases h; exact stepped_failed _ _ _ _ (pairingError_code _)
  · cases h

end SetupPhase

/-! ### Carrying out a pairing -/

namespace PairingTaskPhase

/-- The caller that waits for the pairing, once the task has its decision. -/
def reply : PairingTaskPhase → Option ReplyId
  | .waiting => none
  | .confirming _ reply => some reply
  | .committed reply => some reply
  | .done _ reply => reply

/-- What one step of a pairing task does: it takes a command, commits trust, or ends. It ends without
its decision by a command, or because it has expired or lost its connection. -/
inductive Stepped (blake3 : Blake3) (pending : Pending)
    (commands : List PairingCommand) (sh : Shared) :
    TaskEvent → PairingTaskPhase → List PairingCommand → PairingTaskPhase → Shared → Prop
  | confirms (accepted : Bool) (reply : ReplyId) (rest : List PairingCommand)
      (h : commands = .confirm accepted reply :: rest) :
      Stepped blake3 pending commands sh .command .waiting rest (.confirming accepted reply) sh
  | commits (reply : ReplyId) (io : IoOutcome)
      (h : (trustIfGeneration blake3 sh.store pending.pairing.peer pending.trustGeneration io).1 =
        .ok ()) :
      Stepped blake3 pending commands sh (.commit io) (.confirming true reply) commands
        (.committed reply)
        { sh with store :=
            (trustIfGeneration blake3 sh.store pending.pairing.peer pending.trustGeneration io).2 }
  | refused (reply : ReplyId) (io : IoOutcome) (e : TrustStoreError) (result : PairingTaskResult)
      (h : (trustIfGeneration blake3 sh.store pending.pairing.peer pending.trustGeneration io).1 =
        .error e) (hr : ∀ c, result ≠ .authorized c) :
      Stepped blake3 pending commands sh (.commit io) (.confirming true reply) []
        (.done result (some reply))
        (({ sh with store :=
            (trustIfGeneration blake3 sh.store pending.pairing.peer pending.trustGeneration
              io).2 }).close pending.connection).release
  | ends (event : TaskEvent) (phase : PairingTaskPhase) (hphase : phase.isDone = false)
      (result : PairingTaskResult) (hr : ∀ c, result ≠ .authorized c)
      (hw : phase = .waiting → event = .expired ∨ event = .lost ∨ commands = [] ∨
        ∃ rest, commands = .cancel :: rest) :
      Stepped blake3 pending commands sh event phase [] (.done result phase.reply)
        ((sh.close pending.connection).release)
  | completes (reply : ReplyId) :
      Stepped blake3 pending commands sh .completes (.committed reply) []
        (.done (.authorized ⟨pending.connection, ⟨pending.trustGeneration, pending.pairing.peer⟩⟩)
          (some reply)) sh.release

theorem pairingTaskResult_ne (e : PairingError) (c : Authorized) :
    pairingTaskResult e ≠ .authorized c := by
  cases e <;> simp [pairingTaskResult]

/-- **One step of a pairing task.** -/
theorem step_spec {channelOpen : Bool} {pending : Pending} {commands commands' : List PairingCommand}
    {sh sh' : Shared} {phase phase' : PairingTaskPhase} {event : TaskEvent}
    (h : phase.step blake3 channelOpen pending commands sh event = some (commands', phase', sh')) :
    Stepped blake3 pending commands sh event phase commands' phase' sh' := by
  unfold PairingTaskPhase.step at h
  split at h
  · -- waiting, a command or a closed channel
    split at h
    · cases h; exact .confirms _ _ _ rfl
    · cases h; exact .ends _ _ rfl _ nofun fun _ => Or.inr (Or.inr (Or.inr ⟨_, rfl⟩))
    · split_ifs at h
      cases h
      exact .ends _ _ rfl _ nofun fun _ => Or.inr (Or.inr (Or.inl rfl))
  · split_ifs at h
    cases h
    exact .ends _ _ rfl _ nofun fun _ => Or.inl rfl
  · split_ifs at h
    cases h
    exact .ends _ _ rfl _ nofun fun _ => Or.inr (Or.inl rfl)
  · -- the commit
    next reply io =>
    split at h
    · next store hc =>
      cases h
      have := @Stepped.commits blake3 pending commands sh reply io (by rw [hc])
      rwa [hc] at this
    · next e store hc =>
      cases h
      have := @Stepped.refused blake3 pending commands sh reply io e _ (by rw [hc])
        (pairingTaskResult_ne (.trust e))
      rwa [hc] at this
  · cases h; exact .ends _ _ rfl _ (pairingTaskResult_ne _) nofun
  · split_ifs at h
    cases h
    exact .ends _ _ rfl _ nofun nofun
  · cases h; exact .ends _ _ rfl _ (pairingTaskResult_ne _) nofun
  · split_ifs at h
    cases h
    exact .ends _ _ rfl _ nofun nofun
  · cases h; exact .completes _
  · cases h

section Stepped

variable {pending : Pending} {commands commands' : List PairingCommand} {sh sh' : Shared}
  {event : TaskEvent} {phase phase' : PairingTaskPhase}
  (h : Stepped blake3 pending commands sh event phase commands' phase' sh')
include h

theorem Stepped.grows : Grows sh.store sh'.store := by
  cases h with
  | confirms => exact .refl _
  | commits => exact grows_trustIfGeneration ..
  | refused => exact grows_trustIfGeneration ..
  | ends => exact .refl _
  | completes => exact .refl _

theorem Stepped.closed : sh.closed ⊆ sh'.closed := by
  cases h with
  | confirms => exact Finset.Subset.refl _
  | commits => exact Finset.Subset.refl _
  | refused => exact Finset.subset_insert _ _
  | ends => exact Finset.subset_insert _ _
  | completes => exact Finset.Subset.refl _

end Stepped

end PairingTaskPhase

/-! ### All tasks -/

/-- What one step of a task does: it stays the task it was spawned as. -/
inductive Task.Stepped (blake3 : Blake3) (sh : Shared) (event : TaskEvent) :
    Task → Task → Shared → Prop
  | incoming {phase phase' : SetupPhase} {sh' : Shared}
      (h : SetupPhase.Stepped none sh event phase phase' sh') :
      Stepped blake3 sh event (.incoming phase) (.incoming phase') sh'
  | outbound {deviceId : DeviceId} {token : ℕ} {pairs : Bool} {phase phase' : SetupPhase}
      {sh' : Shared} (h : SetupPhase.Stepped (some (deviceId, pairs)) sh event phase phase' sh') :
      Stepped blake3 sh event (.outbound deviceId token pairs phase)
        (.outbound deviceId token pairs phase') sh'
  | pairing {attemptId : PairingAttemptId} {pending : Pending}
      {commands commands' : List PairingCommand} {phase phase' : PairingTaskPhase} {sh' : Shared}
      (h : PairingTaskPhase.Stepped blake3 pending commands sh event phase commands' phase' sh') :
      Stepped blake3 sh event (.pairing attemptId pending commands phase)
        (.pairing attemptId pending commands' phase') sh'
  | session {sessionId : SessionId} {connection : Authorized} (failure : ConnectivityFailure) :
      Stepped blake3 sh event (.session sessionId connection none)
        (.session sessionId connection (some failure)) (sh.close connection.connection)
  | ipcClient : Stepped blake3 sh event (.ipcClient false) (.ipcClient true) sh

theorem Task.step_spec {σ : Daemon} {task task' : Task} {event : TaskEvent} {sh' : Shared}
    (h : task.step blake3 σ event = some (task', sh')) :
    Task.Stepped blake3 σ.shared event task task' sh' := by
  unfold Task.step at h
  split at h
  · obtain ⟨⟨phase', _⟩, hs, heq⟩ := Option.map_eq_some_iff.mp h
    cases heq
    exact .incoming (SetupPhase.step_spec hs)
  · cases h
  · -- the cancel signal
    split_ifs at h
    cases h
    exact .outbound (SetupPhase.stepped_failed _ _ _ _ nofun)
  · obtain ⟨⟨phase', _⟩, hs, heq⟩ := Option.map_eq_some_iff.mp h
    cases heq
    exact .outbound (SetupPhase.step_spec hs)
  · obtain ⟨⟨commands', phase', _⟩, hs, heq⟩ := Option.map_eq_some_iff.mp h
    cases heq
    exact .pairing (PairingTaskPhase.step_spec hs)
  · cases h; exact .session _
  · cases h; exact .ipcClient
  · cases h

section Stepped

variable {sh sh' : Shared} {event : TaskEvent} {task task' : Task}
  (h : Task.Stepped blake3 sh event task task' sh')
include h

theorem Task.Stepped.grows : Grows sh.store sh'.store := by
  cases h with
  | incoming h => rw [h.store]; exact .refl _
  | outbound h => rw [h.store]; exact .refl _
  | pairing h => exact h.grows
  | session => exact .refl _
  | ipcClient => exact .refl _

theorem Task.Stepped.closed : sh.closed ⊆ sh'.closed := by
  cases h with
  | incoming h => exact h.closed
  | outbound h => exact h.closed
  | pairing h => exact h.closed
  | session => exact Finset.subset_insert _ _
  | ipcClient => exact Finset.Subset.refl _

end Stepped

/-- What one step outside the supervisor does. -/
inductive Acted (blake3 : Blake3) (σ : Daemon) : TaskStep → Daemon → Prop
  | task {id : ℕ} {event : TaskEvent} {task task' : Task} {sh' : Shared}
      (h : σ.tasks[id]? = some task) (hs : Task.Stepped blake3 σ.shared event task task' sh') :
      Acted blake3 σ (.task id event) { σ with tasks := σ.tasks.insert id task', shared := sh' }
  | outside (s : TaskStep) {sh' : Shared} (hstore : sh'.store = σ.shared.store)
      (hclosed : σ.shared.closed ⊆ sh'.closed) : Acted blake3 σ s { σ with shared := sh' }

/-- **One step outside the supervisor.** -/
theorem taskStep_spec (σ : Daemon) (s : TaskStep) : Acted blake3 σ s (taskStep blake3 σ s) := by
  cases s with
  | task id event =>
    rw [taskStep]
    split
    · next task' sh' h =>
      obtain ⟨task, ht, hs⟩ := Option.bind_eq_some_iff.mp h
      exact .task ht (Task.step_spec hs)
    · exact .outside _ rfl (Finset.Subset.refl _)
  | closes c => exact .outside _ rfl (Finset.subset_insert _ _)
  | elapses nanos => exact .outside _ rfl (Finset.Subset.refl _)
  | entropy value => exact .outside _ rfl (Finset.Subset.refl _)
  | lookup lookup => exact .outside _ rfl (Finset.Subset.refl _)

theorem Acted.grows {σ σ' : Daemon} {s : TaskStep} (h : Acted blake3 σ s σ') :
    Grows σ.shared.store σ'.shared.store := by
  cases h with
  | task _ hs => exact hs.grows
  | outside _ hstore => exact hstore ▸ .refl _

theorem Acted.closed {σ σ' : Daemon} {s : TaskStep} (h : Acted blake3 σ s σ') :
    σ.shared.closed ⊆ σ'.shared.closed := by
  cases h with
  | task _ hs => exact hs.closed
  | outside _ _ hclosed => exact hclosed

/-- **What the tasks can do to the supervisor's state** while it looks away: what it owns stays, no
task comes or goes, the store grows and connections close. -/
structure Evolved (σ σ' : Daemon) : Prop where
  owned : ∃ tasks shared, σ' = { σ with tasks, shared }
  tasks : ∀ id, id ∈ σ'.tasks ↔ id ∈ σ.tasks
  grows : Grows σ.shared.store σ'.shared.store
  closed : σ.shared.closed ⊆ σ'.shared.closed

namespace Evolved

variable {σ σ' : Daemon} (h : Evolved σ σ')
include h

theorem deviceId : σ'.deviceId = σ.deviceId := by
  obtain ⟨_, _, rfl⟩ := h.owned
  rfl

theorem sessions : σ'.sessions = σ.sessions := by
  obtain ⟨_, _, rfl⟩ := h.owned
  rfl

theorem nextSessionId : σ'.nextSessionId = σ.nextSessionId := by
  obtain ⟨_, _, rfl⟩ := h.owned
  rfl

theorem connectivity : σ'.connectivity = σ.connectivity := by
  obtain ⟨_, _, rfl⟩ := h.owned
  rfl

theorem outbound : σ'.outbound = σ.outbound := by
  obtain ⟨_, _, rfl⟩ := h.owned
  rfl

theorem pendingPairings : σ'.pendingPairings = σ.pendingPairings := by
  obtain ⟨_, _, rfl⟩ := h.owned
  rfl

theorem config : σ'.config = σ.config := by
  obtain ⟨_, _, rfl⟩ := h.owned
  rfl

theorem tasks_size : σ'.tasks.size = σ.tasks.size := by
  have hkeys : Map.keySet σ'.tasks = Map.keySet σ.tasks := by
    ext id
    rw [Map.mem_keySet, Map.mem_keySet, ← Map.mem_iff_exists, ← Map.mem_iff_exists]
    exact h.tasks id
  rw [← Map.card_keySet, hkeys, Map.card_keySet]

end Evolved

theorem Acted.evolved {σ σ' : Daemon} {s : TaskStep} (h : Acted blake3 σ s σ') : Evolved σ σ' := by
  refine ⟨?_, fun id => ?_, h.grows, h.closed⟩
  · cases h with
    | task => exact ⟨_, _, rfl⟩
    | outside => exact ⟨_, _, rfl⟩
  · cases h with
    | @task id' _ _ _ _ ht _ =>
      have hmem := Map.mem_iff_exists.mpr ⟨_, ht⟩
      refine ExtTreeMap.mem_insert.trans ⟨?_, Or.inr⟩
      rintro (heq | hid)
      · rw [← LawfulEqOrd.eq_of_compare heq]
        exact hmem
      · exact hid
    | outside => exact Iff.rfl

theorem Evolved.refl (σ : Daemon) : Evolved σ σ :=
  ⟨⟨_, _, rfl⟩, fun _ => Iff.rfl, .refl _, Finset.Subset.refl _⟩

theorem Evolved.trans {σ σ' σ'' : Daemon} (h : Evolved σ σ') (h' : Evolved σ' σ'') :
    Evolved σ σ'' := by
  refine ⟨?_, fun id => (h'.tasks id).trans (h.tasks id), h.grows.trans h'.grows,
    h.closed.trans h'.closed⟩
  obtain ⟨tasks, shared, rfl⟩ := h.owned
  obtain ⟨tasks', shared', rfl⟩ := h'.owned
  exact ⟨tasks', shared', rfl⟩

theorem evolves_spec {P : TaskStep → Prop} {σ σ' : Daemon} (h : Evolves (taskStep blake3) P σ σ') :
    Evolved σ σ' :=
  h.stable (fun σ₁ s _ h₁ => h₁.trans (taskStep_spec σ₁ s).evolved) (Evolved.refl σ)

end Rift.Daemon
