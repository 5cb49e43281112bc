import Rift.Daemon.Runs
import Rift.Daemon.Shutdown

/-! # The limits hold

How many tasks, dials, callers of a dial, pairings and commands to a pairing there may be, in every
state that a running daemon passes through.

The main definitions are `Limited` and `Channelled`, the main result `runtime_bounds_hold`. -/

namespace Rift.Daemon

open Rift.Lib Rift.Lib.Interference Rift.Core Rift.Ipc Rift.Session Std
open Rift.Trust hiding Event

variable {blake3 : Blake3} {B : Bounds} {hand : Hand} {σ σ' : Daemon}

/-! ### Incoming workers -/

/-- The task sets up an incoming connection. -/
def Task.isIncoming : Task → Bool
  | .incoming _ => true
  | _ => false

/-- The incoming workers among the tasks. -/
def workers (tasks : ExtTreeMap ℕ Task) : Finset ℕ :=
  (Map.keySet tasks).filter fun id => tasks[id]?.any Task.isIncoming

section Workers

variable {tasks : ExtTreeMap ℕ Task} {id : ℕ} {t t' : Task}

theorem mem_workers {id : ℕ} :
    id ∈ workers tasks ↔ ∃ t, tasks[id]? = some t ∧ t.isIncoming = true := by
  rw [workers, Finset.mem_filter, Map.mem_keySet, Option.any_eq_true]
  constructor
  · exact fun h => h.2
  · rintro ⟨t, ht, hi⟩
    exact ⟨⟨t, ht⟩, t, ht, hi⟩

theorem workers_congr {tasks' : ExtTreeMap ℕ Task}
    (h : ∀ id : ℕ, tasks'[id]?.map Task.isIncoming = tasks[id]?.map Task.isIncoming) :
    workers tasks' = workers tasks := by
  ext id
  have hid := h id
  simp only [mem_workers]
  cases ht : tasks[id]? <;> cases ht' : tasks'[id]? <;> simp_all

theorem workers_step (ht : tasks[id]? = some t) (h : t'.isIncoming = t.isIncoming) :
    workers (tasks.insert id t') = workers tasks := by
  refine workers_congr fun k => ?_
  by_cases heq : id = k
  · subst heq
    simp [ht, h]
  · rw [Map.insert_ne heq]

theorem card_workers_spawn (hid : id ∉ tasks) (t : Task) :
    (workers (tasks.insert id t)).card = (workers tasks).card + if t.isIncoming then 1 else 0 := by
  have hnot : id ∉ workers tasks := fun hmem => by
    obtain ⟨u, hu, -⟩ := mem_workers.mp hmem
    exact hid (Map.mem_iff_exists.mpr ⟨u, hu⟩)
  have hset : workers (tasks.insert id t) =
      if t.isIncoming then insert id (workers tasks) else workers tasks := by
    ext k
    by_cases heq : id = k
    · subst heq
      cases hi : t.isIncoming <;> simp [mem_workers, hi, hnot]
    · cases hi : t.isIncoming <;> simp [mem_workers, Map.insert_ne heq, Ne.symm heq]
  rw [hset]
  cases t.isIncoming
  · simp
  · simp [Finset.card_insert_of_notMem hnot]

theorem card_workers_erase (ht : tasks[id]? = some t) :
    (workers (tasks.erase id)).card + (if t.isIncoming then 1 else 0) = (workers tasks).card := by
  have hset : workers (tasks.erase id) = (workers tasks).erase id := by
    ext k
    simp only [mem_workers, Finset.mem_erase, Map.erase_eq_some]
    constructor
    · rintro ⟨u, ⟨hne, hu⟩, hi⟩
      exact ⟨Ne.symm hne, u, hu, hi⟩
    · rintro ⟨hne, u, hu, hi⟩
      exact ⟨u, ⟨Ne.symm hne, hu⟩, hi⟩
  rw [hset]
  cases hi : t.isIncoming with
  | true => exact Finset.card_erase_add_one (mem_workers.mpr ⟨t, ht, hi⟩)
  | false =>
    rw [Finset.erase_eq_of_notMem]
    · rfl
    · intro hmem
      obtain ⟨u, hu, hiu⟩ := mem_workers.mp hmem
      cases ht.symm.trans hu
      rw [hi] at hiu
      cases hiu

end Workers

/-! ### The registries -/

/-- The workers that are to be respawned. -/
def Hand.owed : Hand → ℕ
  | .incoming => 1
  | _ => 0

theorem Hand.owed_le (hand : Hand) : hand.owed ≤ 1 := by
  cases hand <;> simp [owed]

/-- A dial has no more callers than may wait for it, and none once it is cancelled. -/
structure OutboundRecord.Limited (record : OutboundRecord) : Prop where
  replies : record.replies.length ≤ maxDialWaiters
  cancelled : record.cancelled = true → record.replies = []

/-- The limits of the registries, with what is in hand. -/
structure Limited (hand : Hand) (σ : Daemon) : Prop where
  tasks : σ.tasks.size + hand.owed ≤ hardMaxOwnedTasks
  workers : (workers σ.tasks).card + hand.owed = σ.config.maxInflightConnections
  outbound : σ.outbound.size ≤ σ.config.maxOutboundConnects
  dials : ∀ (d : DeviceId) (record : OutboundRecord), σ.outbound[d]? = some record → record.Limited
  pairings : σ.pendingPairings.size ≤ σ.config.maxPendingPairings

namespace Limited

theorem spawn (h : Limited hand σ) (hs : Sound σ) {task : Task} (ht : task.isIncoming = false)
    (hroom : σ.tasks.size + hand.owed < hardMaxOwnedTasks)
    (heq : σ'.tasks = σ.tasks.insert σ.nextTask task) (hc : σ'.config = σ.config)
    (ho : σ'.outbound.size ≤ σ.config.maxOutboundConnects)
    (hd : ∀ (d : DeviceId) (record : OutboundRecord), σ'.outbound[d]? = some record → record.Limited)
    (hp : σ'.pendingPairings.size ≤ σ.config.maxPendingPairings) : Limited hand σ' := by
  have hnew : σ.nextTask ∉ σ.tasks := hs.nextTask_not_mem
  refine ⟨?_, ?_, hc ▸ ho, hd, hc ▸ hp⟩
  · rw [heq, Map.size_insert_of_not_mem hnew]
    omega
  · rw [heq, card_workers_spawn hnew, ht, hc]
    exact h.workers

theorem acted {s : TaskStep} (h : Limited hand σ) (ha : Acted blake3 σ s σ') : Limited hand σ' := by
  have hev := ha.evolved
  refine ⟨?_, ?_, ?_, ?_, ?_⟩
  · rw [hev.tasks_size]
    exact h.tasks
  · rw [hev.config, ← h.workers]
    cases ha with
    | task ht hs =>
      rw [workers_step ht]
      cases hs <;> rfl
    | outside => rfl
  · rw [hev.outbound, hev.config]
    exact h.outbound
  · rw [hev.outbound]
    exact h.dials
  · rw [hev.pendingPairings, hev.config]
    exact h.pairings

theorem evolves {P : TaskStep → Prop} (h : Limited hand σ) (he : Evolves (taskStep blake3) P σ σ') :
    Limited hand σ' :=
  he.stable (fun σ s _ h => h.acted (taskStep_spec σ s)) h

end Limited

/-- **No move exceeds a limit.** -/
theorem Move.limited (hm : Move blake3 B hand σ σ') (hs : Sound σ) (h : Limited hand σ) :
    Limited hand σ' := by
  cases hm with
  | act => exact h.acted (taskStep_spec _ _)
  | manage hi =>
    obtain ⟨-, peers, rfl⟩ := mem_of_insertPeer hi
    exact ⟨h.tasks, h.workers, h.outbound, h.dials, h.pairings⟩
  | @dial _ d pairing hn _ _ _ ho ht waiting =>
    have hnew : d ∉ σ.outbound := by
      rw [Map.mem_iff_exists, hn]
      simp
    refine h.spawn hs rfl ht rfl rfl ?_ (fun d' record hr => ?_) h.pairings
    · exact (Map.size_insert_of_not_mem hnew).trans_le ho
    · rcases Map.insert_eq_some.mp hr with ⟨-, rfl⟩ | ⟨-, hr⟩
      · exact ⟨Nat.zero_le _, fun _ => rfl⟩
      · exact h.dials d' record hr
  | pend _ _ _ hp hroom =>
    have howed := hand.owed_le
    exact h.spawn hs rfl (by omega) rfl rfl h.outbound h.dials
      (ExtTreeMap.size_insert_le.trans hp)
  | @openSession _ _ existing _ _ _ _ _ hroom =>
    have howed := hand.owed_le
    rcases existing with _ | ⟨s, r, closed⟩ <;>
      exact h.spawn hs rfl (by omega) rfl rfl h.outbound h.dials h.pairings
  | hint | close | drop | resume | resolved | fail | coalesce | commitFails =>
    exact ⟨h.tasks, h.workers, h.outbound, h.dials, h.pairings⟩

theorem Limited.erase (h : Limited .none σ) {id : ℕ} {task : Task} (ht : σ.tasks[id]? = some task)
    (hhand : hand.owed = if task.isIncoming then 1 else 0) (heq : σ'.tasks = σ.tasks.erase id)
    (hc : σ'.config = σ.config) (ho : σ'.outbound.size ≤ σ.outbound.size)
    (hd : ∀ (d : DeviceId) (record : OutboundRecord), σ'.outbound[d]? = some record → record.Limited)
    (hp : σ'.pendingPairings.size ≤ σ.pendingPairings.size) : Limited hand σ' := by
  have hsize := Map.size_erase_of_mem (Map.mem_iff_exists.mpr ⟨task, ht⟩)
  have hworkers := card_workers_erase ht
  have hle := hand.owed_le
  refine ⟨?_, ?_, hc ▸ ho.trans h.outbound, hd, hc ▸ hp.trans h.pairings⟩
  · have htasks := h.tasks
    rw [heq]
    simp only [Hand.owed] at htasks
    omega
  · rw [heq, hc, hhand, hworkers]
    exact h.workers

theorem Opening.limited {s : Step} (ho : Opening σ s hand σ') (hs : Sound σ) (h : Limited .none σ) :
    Limited hand σ' := by
  cases ho with
  | accepted _ ht => exact h.spawn hs rfl ht rfl rfl h.outbound h.dials h.pairings
  | command command script =>
    have howed : command.hand.owed = 0 := by
      unfold Command.hand
      split <;> rfl
    refine ⟨?_, ?_, h.outbound, h.dials, h.pairings⟩
    · rw [howed]
      exact h.tasks
    · rw [howed]
      exact h.workers
  | workerJoined ht => exact h.erase ht rfl rfl rfl (Nat.le_refl _) h.dials (Nat.le_refl _)
  | clientJoined ht => exact h.erase ht rfl rfl rfl (Nat.le_refl _) h.dials (Nat.le_refl _)
  | @staleJoined _ _ task ht hu =>
    refine h.erase ht ?_ rfl rfl (Nat.le_refl _) h.dials (Nat.le_refl _)
    cases task with
    | incoming => exact hu.elim
    | _ => rfl
  | cancelledJoined ht =>
    exact h.erase ht rfl rfl rfl ExtTreeMap.size_erase_le
      (fun d record hr => h.dials d record (Map.erase_eq_some.mp hr).2) (Nat.le_refl _)
  | dialJoined ht =>
    exact h.erase ht rfl rfl rfl ExtTreeMap.size_erase_le
      (fun d record hr => h.dials d record (Map.erase_eq_some.mp hr).2) (Nat.le_refl _)
  | pairingJoined ht =>
    exact h.erase ht rfl rfl rfl (Nat.le_refl _) h.dials ExtTreeMap.size_erase_le
  | sessionJoined ht => exact h.erase ht rfl rfl rfl (Nat.le_refl _) h.dials (Nat.le_refl _)
  | idle | due => exact ⟨h.tasks, h.workers, h.outbound, h.dials, h.pairings⟩

theorem Limited.cancelled {d : DeviceId} (h : Limited hand σ) (d' : DeviceId)
    (record : OutboundRecord)
    (hr : (σ.outbound.modify d fun record => { record with cancelled := true, replies := [] })[d']? =
      some record) : record.Limited := by
  rcases Map.modify_eq_some.mp hr with ⟨-, q, -, rfl⟩ | ⟨-, hr⟩
  · exact ⟨Nat.zero_le _, fun _ => rfl⟩
  · exact h.dials d' record hr

@[simp] theorem Task.isIncoming_receive (attempts : List PairingAttemptId) (command : PairingCommand)
    (task : Task) : (task.receive attempts command).isIncoming = task.isIncoming := by
  cases task <;> rfl

theorem Limited.receive (h : Limited hand σ) (attempts : List PairingAttemptId)
    (command : PairingCommand)
    (heq : σ'.tasks = σ.tasks.map fun _ task => task.receive attempts command)
    (hc : σ'.config = σ.config) (ho : σ'.outbound.size ≤ σ.outbound.size)
    (hd : ∀ (d : DeviceId) (record : OutboundRecord), σ'.outbound[d]? = some record → record.Limited)
    (hp : σ'.pendingPairings.size ≤ σ.pendingPairings.size) : Limited hand σ' := by
  have hworkers : Daemon.workers σ'.tasks = Daemon.workers σ.tasks := by
    refine workers_congr fun id => ?_
    rw [heq, ExtTreeMap.getElem?_map, Option.map_map]
    exact congrFun (congrArg _ (funext fun task => task.isIncoming_receive attempts command)) _
  refine ⟨?_, ?_, hc ▸ ho.trans h.outbound, hd, hc ▸ hp.trans h.pairings⟩
  · rw [heq, ExtTreeMap.size_map]
    exact h.tasks
  · rw [hworkers, hc]
    exact h.workers

theorem Limited.setStore (h : Limited hand σ) (store : StoreInner) : Limited hand (σ.setStore store) :=
  ⟨h.tasks, h.workers, h.outbound, h.dials, h.pairings⟩

theorem Answering.limited (ha : Answering blake3 B σ σ') (h : Limited hand σ) : Limited hand σ' := by
  cases ha with
  | yield =>
    exact ⟨h.tasks, h.workers, ExtTreeMap.size_modify.trans_le h.outbound, h.cancelled, h.pairings⟩
  | disconnect =>
    exact ⟨h.tasks, h.workers, ExtTreeMap.size_modify.trans_le h.outbound, h.cancelled, h.pairings⟩
  | @invalidate τ m io _ _ he reason _ =>
    have hτ : Limited hand τ := (h.setStore _).evolves he
    exact hτ.receive _ _ rfl rfl ExtTreeMap.size_modify.le hτ.cancelled
      ExtTreeMap.size_filter_le_size

theorem Limited.setPending (h : Limited hand σ) {a : PairingAttemptId} {record : PendingRecord}
    (ha : σ.pendingPairings[a]? = some record) (record' : PendingRecord) :
    Limited hand (σ.setPending a record') := by
  refine ⟨h.tasks, h.workers, h.outbound, h.dials, ?_⟩
  have hmem := ExtTreeMap.contains_iff_mem.mpr (Map.mem_iff_exists.mpr ⟨record, ha⟩)
  exact (ExtTreeMap.size_insert.trans (if_pos hmem)).trans_le h.pairings

theorem Closing.limited (hc : Closing blake3 B hand σ σ') (hs : Sound σ) (h : Limited hand σ) :
    Limited .none σ' := by
  cases hc with
  | respawned =>
    have hnew : σ.nextTask ∉ σ.tasks := hs.nextTask_not_mem
    refine ⟨?_, ?_, h.outbound, h.dials, h.pairings⟩
    · exact (Map.size_insert_of_not_mem hnew).trans_le h.tasks
    · exact (card_workers_spawn hnew _).trans h.workers
  | @waits _ d record waiting hr hcancelled hw _ =>
    refine ⟨h.tasks, h.workers, ExtTreeMap.size_modify.trans_le h.outbound, fun d' record' hr' => ?_,
      h.pairings⟩
    rcases Map.modify_eq_some.mp hr' with ⟨-, q, hq, rfl⟩ | ⟨-, hr'⟩
    · cases hr.symm.trans hq
      refine ⟨?_, fun hc => ?_⟩
      · rw [List.length_append]
        exact hw
      · rw [hcancelled] at hc
        cases hc
    · exact h.dials d' record' hr'
  | @delivered _ τ a _ accepted ha _ _ he _ reply =>
    have hev := (h.setPending ha _).evolves he
    have hsent : Limited (.decision a accepted reply) (τ.deliver a (.confirm accepted reply)) :=
      hev.receive _ _ rfl rfl (Nat.le_refl _) hev.dials (Nat.le_refl _)
    exact ⟨hsent.tasks, hsent.workers, hsent.outbound, hsent.dials, hsent.pairings⟩
  | abandoned ha _ he =>
    have hev := (h.setPending ha _).evolves he
    exact ⟨hev.tasks, hev.workers, hev.outbound, hev.dials,
      ExtTreeMap.size_erase_le.trans hev.pairings⟩
  | @resolved _ _ registered _ _ reply _ =>
    unfold resolvePairing
    cases registered <;> cases reply <;>
      exact ⟨h.tasks, h.workers, h.outbound, h.dials, h.pairings⟩
  | none | request | answered | refused =>
    exact ⟨h.tasks, h.workers, h.outbound, h.dials, h.pairings⟩

/-! ### The channels of the pairings -/

/-- How many commands were sent to a pairing. -/
def sentTo (σ : Daemon) (a : PairingAttemptId) : ℕ := σ.sent.countP fun entry => entry.1 = a

/-- What was sent to the pairings: to one that waits for its decision nothing, to one that is resolving
at most the decision, and to none more than two commands. What is in a channel was sent. -/
structure Channelled (σ : Daemon) : Prop where
  fresh : ∀ a, σ.nextPairingId ≤ a → sentTo σ a = 0
  pending : ∀ (a : PairingAttemptId) (record : PendingRecord), σ.pendingPairings[a]? = some record →
    a < σ.nextPairingId ∧ sentTo σ a ≤ if record.resolving = none then 0 else 1
  most : ∀ a, sentTo σ a ≤ 2
  queued : ∀ (id : ℕ) a pending commands phase,
    σ.tasks[id]? = some (.pairing a pending commands phase) →
    commands.length ≤ sentTo σ a

theorem sentTo_append {attempts : List PairingAttemptId} {command : PairingCommand}
    (hnodup : attempts.Nodup) (hs : σ'.sent = σ.sent ++ attempts.map fun a => (a, command))
    (a : PairingAttemptId) : sentTo σ' a = sentTo σ a + if a ∈ attempts then 1 else 0 := by
  have hcount : (attempts.map fun a => (a, command)).countP (fun entry => entry.1 = a) =
      attempts.count a := by
    rw [List.countP_map, List.count_eq_countP]
    exact List.countP_congr fun b _ => by simp
  unfold sentTo
  rw [hs, List.countP_append, hcount, hnodup.count]

namespace Channelled

theorem mono (h : Channelled σ) (hs : σ'.sent = σ.sent) (hn : σ'.nextPairingId = σ.nextPairingId)
    (hp : ∀ (a : PairingAttemptId) (record : PendingRecord), σ'.pendingPairings[a]? = some record →
      σ.pendingPairings[a]? = some record)
    (ht : ∀ (id : ℕ) (task : Task), σ'.tasks[id]? = some task →
      σ.tasks[id]? = some task ∨ ∀ a pending, task.kind ≠ .pairing a pending) : Channelled σ' := by
  have hsent (a : PairingAttemptId) : sentTo σ' a = sentTo σ a := by
    unfold sentTo
    rw [hs]
  refine ⟨fun a ha => ?_, fun a record hr => ?_, fun a => ?_, fun id a pending commands phase hid => ?_⟩
  · rw [hsent]
    exact h.fresh a (hn ▸ ha)
  · rw [hsent, hn]
    exact h.pending a record (hp a record hr)
  · rw [hsent]
    exact h.most a
  · rw [hsent]
    rcases ht id _ hid with hid | hkind
    · exact h.queued id a pending commands phase hid
    · exact absurd rfl (hkind a pending)

theorem spawn (h : Channelled σ) (task : Task) (hk : ∀ a pending, task.kind ≠ .pairing a pending)
    (ht : σ'.tasks = σ.tasks.insert σ.nextTask task) (hs : σ'.sent = σ.sent)
    (hn : σ'.nextPairingId = σ.nextPairingId) (hp : σ'.pendingPairings = σ.pendingPairings) :
    Channelled σ' := by
  refine h.mono hs hn (fun a record hr => hp ▸ hr) fun id t hid => ?_
  rw [ht] at hid
  rcases Map.insert_eq_some.mp hid with ⟨-, rfl⟩ | ⟨-, hid⟩
  · exact Or.inr hk
  · exact Or.inl hid

theorem acted {s : TaskStep} (h : Channelled σ) (ha : Acted blake3 σ s σ') : Channelled σ' := by
  cases ha with
  | outside => exact ⟨h.fresh, h.pending, h.most, h.queued⟩
  | @task id event t t' sh' ht hs =>
    refine ⟨h.fresh, h.pending, h.most, fun id' a pending commands phase hid => ?_⟩
    rcases Map.insert_eq_some.mp hid with ⟨rfl, rfl⟩ | ⟨-, hid⟩
    · cases hs with
      | pairing hs =>
        refine Nat.le_trans ?_ (h.queued id a pending _ _ ht)
        cases hs with
        | confirms accepted reply rest heq =>
          rw [heq, List.length_cons]
          exact Nat.le_succ _
        | commits => exact Nat.le_refl _
        | refused | ends | completes => exact Nat.zero_le _
    · exact h.queued id' a pending commands phase hid

theorem evolves {P : TaskStep → Prop} (h : Channelled σ) (he : Evolves (taskStep blake3) P σ σ') :
    Channelled σ' :=
  he.stable (fun σ s _ h => h.acted (taskStep_spec σ s)) h

/-- **A command is sent to some of the pairings.** Each of them has room for it. -/
theorem receive (h : Channelled σ) (attempts : List PairingAttemptId) (command : PairingCommand)
    (hnodup : attempts.Nodup)
    (ht : σ'.tasks = σ.tasks.map fun _ task => task.receive attempts command)
    (hs : σ'.sent = σ.sent ++ attempts.map fun a => (a, command))
    (hn : σ'.nextPairingId = σ.nextPairingId)
    (hmem : ∀ a ∈ attempts, ∃ record, σ.pendingPairings[a]? = some record)
    (hp : ∀ (a : PairingAttemptId) (record : PendingRecord), σ'.pendingPairings[a]? = some record →
      a < σ.nextPairingId ∧
        sentTo σ a + (if a ∈ attempts then 1 else 0) ≤ if record.resolving = none then 0 else 1) :
    Channelled σ' := by
  have hsent := sentTo_append hnodup hs
  refine ⟨fun a ha => ?_, fun a record hr => ?_, fun a => ?_, fun id a pending commands phase hid => ?_⟩
  · rw [hn] at ha
    have hnot : a ∉ attempts := fun hin => by
      obtain ⟨record, hr⟩ := hmem a hin
      exact absurd (h.pending a record hr).1 (Nat.not_lt.mpr ha)
    rw [hsent, if_neg hnot]
    exact h.fresh a ha
  · rw [hsent, hn]
    exact hp a record hr
  · rw [hsent]
    by_cases hin : a ∈ attempts
    · obtain ⟨record, hr⟩ := hmem a hin
      have hle := (h.pending a record hr).2
      rw [if_pos hin]
      split_ifs at hle <;> omega
    · rw [if_neg hin]
      exact h.most a
  · rw [ht] at hid
    obtain ⟨task, htask, heq⟩ := Map.map_eq_some.mp hid
    cases task with
    | pairing a' pending' commands' phase' =>
      cases heq
      have hle := h.queued id a pending commands' phase htask
      rw [hsent]
      by_cases hin : a ∈ attempts
      · rw [if_pos hin]
        split_ifs
        · rw [List.length_append, List.length_singleton]
          omega
        · omega
      · rw [if_neg (fun hboth => hin hboth.1)]
        omega
    | _ => cases heq

theorem setStore (h : Channelled σ) (store : StoreInner) : Channelled (σ.setStore store) :=
  ⟨h.fresh, h.pending, h.most, h.queued⟩

theorem setPending (h : Channelled σ) {a : PairingAttemptId} {record : PendingRecord}
    (ha : σ.pendingPairings[a]? = some record) (hr : record.resolving = none)
    (record' : PendingRecord) : Channelled (σ.setPending a record') ∧ sentTo σ a = 0 := by
  obtain ⟨hlt, hsent⟩ := h.pending a record ha
  rw [if_pos hr, Nat.le_zero] at hsent
  refine ⟨⟨h.fresh, fun b r hb => ?_, h.most, h.queued⟩, hsent⟩
  rcases Map.insert_eq_some.mp hb with ⟨rfl, -⟩ | ⟨-, hb⟩
  · exact ⟨hlt, hsent.trans_le (Nat.zero_le _)⟩
  · exact h.pending b r hb

end Channelled

theorem Move.channelled (hm : Move blake3 B hand σ σ') (h : Channelled σ) : Channelled σ' := by
  cases hm with
  | act => exact h.acted (taskStep_spec _ _)
  | manage hi =>
    obtain ⟨-, peers, rfl⟩ := mem_of_insertPeer hi
    exact ⟨h.fresh, h.pending, h.most, h.queued⟩
  | dial => exact h.spawn (.outbound ..) nofun rfl rfl rfl rfl
  | pend =>
    refine ⟨fun a ha => h.fresh a (Nat.le_of_succ_le ha), fun a record hr => ?_, h.most,
      fun id a pending commands phase hid => ?_⟩
    · rcases Map.insert_eq_some.mp hr with ⟨rfl, rfl⟩ | ⟨-, hr⟩
      · exact ⟨Nat.lt_succ_self _, (h.fresh _ (Nat.le_refl _)).le⟩
      · obtain ⟨hlt, hle⟩ := h.pending a record hr
        exact ⟨Nat.lt_succ_of_lt hlt, hle⟩
    · rcases Map.insert_eq_some.mp hid with ⟨-, heq⟩ | ⟨-, hid⟩
      · cases heq
        exact Nat.zero_le _
      · exact h.queued id a pending commands phase hid
  | @openSession _ _ existing =>
    rcases existing with _ | ⟨s, r, closed⟩ <;>
      exact h.spawn (.session ..) nofun rfl rfl rfl rfl
  | hint | close | drop | resume | resolved | fail | coalesce | commitFails =>
    exact ⟨h.fresh, h.pending, h.most, h.queued⟩

theorem Opening.channelled {s : Step} (ho : Opening σ s hand σ') (h : Channelled σ) :
    Channelled σ' := by
  have herase (id : ℕ) (σ' : Daemon) (ht : σ'.tasks = σ.tasks.erase id) (hs : σ'.sent = σ.sent)
      (hn : σ'.nextPairingId = σ.nextPairingId)
      (hp : ∀ (a : PairingAttemptId) (record : PendingRecord),
        σ'.pendingPairings[a]? = some record → σ.pendingPairings[a]? = some record) :
      Channelled σ' :=
    h.mono hs hn hp fun id' task hid => Or.inl (Map.erase_eq_some.mp (ht ▸ hid)).2
  cases ho with
  | accepted => exact h.spawn (.ipcClient false) nofun rfl rfl rfl rfl
  | pairingJoined =>
    exact herase _ _ rfl rfl rfl fun a record hr => (Map.erase_eq_some.mp hr).2
  | workerJoined | clientJoined | staleJoined | cancelledJoined | dialJoined | sessionJoined =>
    exact herase _ _ rfl rfl rfl fun _ _ hr => hr
  | idle | command | due => exact ⟨h.fresh, h.pending, h.most, h.queued⟩

theorem Answering.channelled (ha : Answering blake3 B σ σ') (h : Channelled σ) : Channelled σ' := by
  cases ha with
  | yield | disconnect => exact ⟨h.fresh, h.pending, h.most, h.queued⟩
  | @invalidate τ m io _ _ he reason _ =>
    have hτ : Channelled τ := (h.setStore _).evolves he
    refine hτ.receive ((τ.pendingPairings.toList.filter fun entry =>
      entry.2.info.deviceId = m.deviceId).map Prod.fst) .cancel (Map.nodup_keys_filter _) rfl ?_ rfl
      (fun a hin => ?_) fun a record hr => ?_
    · rw [List.map_map]
      rfl
    · obtain ⟨entry, hentry, rfl⟩ := List.mem_map.mp hin
      exact ⟨entry.2, (Map.mem_toList_filter.mp hentry).1⟩
    · obtain ⟨hr, hne⟩ := Map.filter_eq_some.mp hr
      rw [if_neg]
      · exact hτ.pending a record hr
      · intro hin
        obtain ⟨entry, hentry, rfl⟩ := List.mem_map.mp hin
        obtain ⟨hr', hd⟩ := Map.mem_toList_filter.mp hentry
        cases hr.symm.trans hr'
        exact of_decide_eq_true hne (of_decide_eq_true hd)

theorem Closing.channelled (hc : Closing blake3 B hand σ σ') (h : Channelled σ) : Channelled σ' := by
  cases hc with
  | respawned => exact h.spawn (.incoming .connecting) nofun rfl rfl rfl rfl
  | @delivered _ τ a record accepted ha hr _ he _ reply =>
    obtain ⟨hset, hzero⟩ := h.setPending ha hr { record with resolving := some accepted }
    have hev := hset.evolves he
    have hevolved := evolves_spec he
    have hsame : sentTo τ a = 0 := by
      obtain ⟨tasks, shared, rfl⟩ := hevolved.owned
      exact hzero
    have hpending : τ.pendingPairings[a]? = some { record with resolving := some accepted } := by
      rw [hevolved.pendingPairings]
      exact ExtTreeMap.getElem?_insert_self
    refine hev.receive [a] _ (List.nodup_singleton a) rfl rfl rfl (fun b hb => ?_) fun b r hb => ?_
    · rw [List.mem_singleton.mp hb]
      exact ⟨_, hpending⟩
    · by_cases heq : b = a
      · subst heq
        cases hpending.symm.trans hb
        exact ⟨(hev.pending _ _ hpending).1, by simp [hsame]⟩
      · rw [if_neg (by simpa using heq)]
        exact hev.pending b r hb
  | abandoned ha hr he =>
    have hev := (h.setPending ha hr _).1.evolves he
    exact hev.mono rfl rfl (fun _ _ hb => (Map.erase_eq_some.mp hb).2) fun _ _ ht => Or.inl ht
  | @resolved _ _ registered _ _ reply _ =>
    unfold resolvePairing
    cases registered <;> cases reply <;> exact ⟨h.fresh, h.pending, h.most, h.queued⟩
  | none | request | answered | waits | refused => exact ⟨h.fresh, h.pending, h.most, h.queued⟩

/-! ### Every moment -/

/-- A state that a daemon which stops passes through. -/
inductive Stopping (blake3 : Blake3) (σ : Daemon) : Daemon → Prop
  | cancelled : Stopping blake3 σ (stopDials σ)
  | announced {τ : Daemon} (h : Evolves (taskStep blake3) (fun _ => True)
      ((stopDials σ).emit .daemonShuttingDown) τ) : Stopping blake3 σ τ
  | closed {σ₁ τ : Daemon} (h₁ : Evolves (taskStep blake3) (fun _ => True)
      ((stopDials σ).emit .daemonShuttingDown) σ₁)
      (h : Evolves (taskStep blake3) (fun _ => True) (closeRegistries σ₁) τ) : Stopping blake3 σ τ
  | stopped (script : List (List TaskStep)) : Stopping blake3 σ (stop blake3 σ script)

/-- **The limits.** The channel of a pairing has room for two commands. -/
structure Bounded (σ : Daemon) : Prop where
  tasks : σ.tasks.size ≤ hardMaxOwnedTasks
  outbound : σ.outbound.size ≤ σ.config.maxOutboundConnects
  replies : ∀ (d : DeviceId) (record : OutboundRecord), σ.outbound[d]? = some record →
    record.replies.length ≤ maxDialWaiters
  cancelled : ∀ (d : DeviceId) (record : OutboundRecord), σ.outbound[d]? = some record →
    record.cancelled = true → record.replies = []
  pairings : σ.pendingPairings.size ≤ σ.config.maxPendingPairings
  sent : ∀ a, sentTo σ a ≤ 2
  queued : ∀ (id : ℕ) a pending commands phase,
    σ.tasks[id]? = some (.pairing a pending commands phase) →
    commands.length ≤ sentTo σ a

/-- All of it together, with what is in hand. -/
structure Orderly (hand : Hand) (σ : Daemon) : Prop where
  sound : Sound σ
  limited : Limited hand σ
  channelled : Channelled σ

theorem Limited.bounded (h : Limited hand σ) (hc : Channelled σ) : Bounded σ where
  tasks := Nat.le_trans (Nat.le_add_right _ _) h.tasks
  outbound := h.outbound
  replies d record hr := (h.dials d record hr).replies
  cancelled d record hr := (h.dials d record hr).cancelled
  pairings := h.pairings
  sent := hc.most
  queued := hc.queued

theorem Orderly.bounded (h : Orderly hand σ) : Bounded σ := h.limited.bounded h.channelled

theorem Move.orderly (hm : Move blake3 B hand σ σ') (h : Orderly hand σ) : Orderly hand σ' :=
  ⟨hm.sound h.sound, hm.limited h.sound h.limited, hm.channelled h.channelled⟩

theorem Opening.orderly {s : Step} (ho : Opening σ s hand σ') (h : Orderly .none σ) :
    Orderly hand σ' :=
  ⟨ho.sound h.sound, ho.limited h.sound h.limited, ho.channelled h.channelled⟩

theorem Answering.orderly (ha : Answering blake3 B σ σ') (h : Orderly hand σ) : Orderly hand σ' :=
  ⟨ha.sound h.sound, ha.limited h.limited, ha.channelled h.channelled⟩

theorem Closing.orderly (hc : Closing blake3 B hand σ σ') (h : Orderly hand σ) :
    Orderly .none σ' :=
  ⟨hc.sound h.sound, hc.limited h.sound h.limited, hc.channelled h.channelled⟩

theorem Handled.orderly {s : Step} (hh : Handled blake3 B σ s σ') (h : Orderly .none σ) :
    Orderly .none σ' :=
  hh.keep (P := Orderly) Move.orderly Opening.orderly Answering.orderly Closing.orderly h

theorem Looked.bounded (hl : Looked blake3 B hand σ σ') (h : Orderly hand σ) : Bounded σ' := by
  cases hl with
  | moved hm => exact (hm.keep Move.orderly h).bounded
  | deciding hm ha hr he =>
    have hσ := hm.keep Move.orderly h
    have hsent := (hσ.channelled.setPending ha hr _).1.evolves he
    exact ((hσ.limited.setPending ha _).evolves he).bounded hsent
  | committed hm _ he =>
    have hσ := hm.keep Move.orderly h
    exact ((hσ.limited.setStore _).evolves he).bounded ((hσ.channelled.setStore _).evolves he)

theorem Passes.bounded {s : Step} (hp : Passes blake3 B σ s σ') (h : Orderly .none σ) :
    Bounded σ' := by
  cases hp with
  | before hm => exact (hm.keep Move.orderly h).bounded
  | opened hm ho hl => exact hl.bounded (ho.orderly (hm.keep Move.orderly h))
  | answered hm ho hm' ha =>
    exact (ha.orderly (hm'.keep Move.orderly (ho.orderly (hm.keep Move.orderly h)))).bounded
  | handled hh => exact (hh.orderly h).bounded

/-! ### Stopping -/

theorem Limited.stopDials (h : Limited hand σ) : Limited hand (stopDials σ) := by
  refine ⟨h.tasks, h.workers, ExtTreeMap.size_map.trans_le h.outbound, fun d record hr => ?_,
    h.pairings⟩
  obtain ⟨record', -, rfl⟩ := Map.map_eq_some.mp hr
  exact ⟨Nat.zero_le _, fun _ => rfl⟩

theorem Limited.closeRegistries (h : Limited hand σ) : Limited hand (closeRegistries σ) :=
  h.receive _ _ rfl rfl (Nat.le_refl _) h.dials (Nat.zero_le _)

theorem Channelled.closeRegistries (h : Channelled σ) : Channelled (closeRegistries σ) := by
  refine h.receive (σ.pendingPairings.toList.map Prod.fst) .cancel ?_ rfl ?_ rfl (fun a hin => ?_)
    fun a record hr => ?_
  · rw [ExtTreeMap.map_fst_toList_eq_keys]
    exact ExtTreeMap.nodup_keys
  · rw [List.map_map]
    rfl
  · rw [ExtTreeMap.map_fst_toList_eq_keys, ExtTreeMap.mem_keys] at hin
    exact Map.mem_iff_exists.mp hin
  · simp [Daemon.closeRegistries] at hr

theorem Stopping.bounded (hs : Stopping blake3 σ σ') (h : Orderly .none σ) : Bounded σ' := by
  have hdials : Limited .none ((Daemon.stopDials σ).emit .daemonShuttingDown) := by
    have hstop := h.limited.stopDials
    exact ⟨hstop.tasks, hstop.workers, hstop.outbound, hstop.dials, hstop.pairings⟩
  have hsent : Channelled ((Daemon.stopDials σ).emit .daemonShuttingDown) :=
    ⟨h.channelled.fresh, h.channelled.pending, h.channelled.most, h.channelled.queued⟩
  cases hs with
  | cancelled =>
    exact h.limited.stopDials.bounded ⟨hsent.fresh, hsent.pending, hsent.most, hsent.queued⟩
  | announced he => exact (hdials.evolves he).bounded (hsent.evolves he)
  | closed h₁ he =>
    exact ((hdials.evolves h₁).closeRegistries.evolves he).bounded
      ((hsent.evolves h₁).closeRegistries.evolves he)
  | stopped script =>
    obtain ⟨σ₁, σ₂, h₁, h₂, heq⟩ := stop_eq blake3 σ script
    have hl := (hdials.evolves h₁).closeRegistries.evolves h₂
    have hc := (hsent.evolves h₁).closeRegistries.evolves h₂
    have hbounded := hl.bounded hc
    rw [heq]
    exact ⟨Nat.zero_le _, hbounded.outbound, hbounded.replies, hbounded.cancelled, hbounded.pairings,
      hbounded.sent, by simp⟩

/-- **A daemon that stops passes through what it looks at.** -/
theorem stop_passes (blake3 : Blake3) (σ : Daemon) (script : List (List TaskStep)) :
    ∀ τ ∈ stop blake3 σ script :: looks (shutdownRuntime blake3) σ script, Stopping blake3 σ τ := by
  refine List.forall_mem_cons.mpr ⟨.stopped script, fun τ hτ => ?_⟩
  have hall (w : World Daemon TaskStep) : w.Allowed fun _ => True := fun _ _ _ _ => trivial
  let w : World Daemon TaskStep := ⟨(stopDials σ).emit .daemonShuttingDown, script⟩
  let w' := w.acted (taskStep blake3)
  rcases (hall ⟨closeRegistries w'.state, w'.script⟩).evolves_of_mem hτ with hτ | he
  · rcases (hall w).evolves_of_mem hτ with hτ | he
    · cases hτ
    · exact .announced he
  · exact .closed (hall w).evolves he

/-! ### Runs -/

theorem validateCount_ok {value maximum : ℕ} {name : String}
    (h : validateCount value maximum name = .ok ()) : value ≤ maximum := by
  unfold validateCount at h
  split_ifs at h with hbad
  omega

theorem validate_ok {config : DaemonConfig} (h : config.validate = .ok ()) :
    config.maxInflightConnections ≤ hardMaxInflightConnections := by
  have hbind {a : Except DaemonError Unit} {f : Unit → Except DaemonError Unit}
      (h : a >>= f = .ok ()) : a = .ok () ∧ f () = .ok () := by
    cases a with
    | error e => cases h
    | ok u => exact ⟨rfl, h⟩
  unfold DaemonConfig.validate at h
  obtain ⟨-, h⟩ := hbind h
  obtain ⟨-, h⟩ := hbind h
  obtain ⟨-, h⟩ := hbind h
  obtain ⟨-, h⟩ := hbind h
  exact validateCount_ok (hbind h).1

theorem Beginning.orderly {localId : DeviceId} {now : ℕ} (h : Beginning localId now σ) :
    Orderly .none σ := by
  have hworkers : Daemon.workers σ.tasks = Map.keySet σ.tasks := by
    ext id
    rw [mem_workers, Map.mem_keySet]
    constructor
    · exact fun ⟨t, ht, _⟩ => ⟨t, ht⟩
    · rintro ⟨t, ht⟩
      exact ⟨t, ht, by rw [h.workers id t ht]; rfl⟩
  refine ⟨h.sound, ⟨?_, ?_, ?_, fun d record hr => ?_, ?_⟩, ⟨fun a _ => ?_, fun a record hr => ?_,
    fun a => ?_, fun id a pending commands phase hid => ?_⟩⟩
  · have hle := validate_ok h.valid
    have hmax : hardMaxInflightConnections ≤ hardMaxOwnedTasks := by decide
    rw [h.size]
    exact hle.trans hmax
  · rw [hworkers, Map.card_keySet]
    exact h.size
  · rw [h.outbound]
    exact Nat.zero_le _
  · rw [h.outbound] at hr
    simp at hr
  · rw [h.pairings]
    exact Nat.zero_le _
  · rw [sentTo, h.sent]
    rfl
  · rw [h.pairings] at hr
    simp at hr
  · rw [sentTo, h.sent]
    exact Nat.zero_le _
  · cases h.workers id _ hid

/-- **Runtime bounds hold in every interleaving.** In every state between two handled events, in every
state that handling one passes through, and in every state that stopping passes through, the limits
hold. Both are at least the states at which the tasks get to act meanwhile. Between two handled events
there are as many incoming workers as configured: every one that was joined is respawned. -/
theorem runtime_bounds_hold (h : Reachable blake3 σ) :
    Bounded σ ∧ (workers σ.tasks).card = σ.config.maxInflightConnections ∧
      (∀ (s : Step) (τ : Daemon), Passes blake3 unbounded σ s τ → Bounded τ) ∧
      (∀ s : Step, ∀ τ ∈ step blake3 σ s :: stepLooks blake3 σ s, Passes blake3 unbounded σ s τ) ∧
      (∀ τ, Stopping blake3 σ τ → Bounded τ) ∧
      ∀ (script : List (List TaskStep)),
        ∀ τ ∈ stop blake3 σ script :: looks (shutdownRuntime blake3) σ script, Stopping blake3 σ τ := by
  have horderly : Orderly .none σ :=
    h.keep (fun _ _ _ hb => hb.orderly) fun σ s hs ho => (hs.handled s).orderly ho
  exact ⟨horderly.bounded, horderly.limited.workers, fun s τ hp => hp.bounded horderly,
    fun s => step_passes h.sound (within_unbounded σ s), fun τ hs => hs.bounded horderly,
    stop_passes blake3 σ⟩

/-- A pairing that is confirmed and then revoked was sent two commands, and that is all. When its device
is forgotten, the tasks get to act twice, within the limits. -/
theorem sample_pairing_is_bounded : ∃ σ, Reachable sampleBlake3 σ ∧ sentTo σ 1 = 2 ∧
    σ.tasks.size ≤ hardMaxOwnedTasks ∧ (workers σ.tasks).card = 2 ∧
    let forget := Step.command (.request (.forgetPeer samplePeer.deviceId) 2 .ok) []
    (stepLooks sampleBlake3 σ forget).length = 2 ∧
      ∀ τ ∈ stepLooks sampleBlake3 σ forget, Bounded τ := by
  let steps : List Step := samplePairingRequest 0 ++
    [.command (.request (.confirmPairing 1 true) 0 .ok) [],
      .command (.request (.revokePeer samplePeer.deviceId) 1 .ok) []]
  let forget := Step.command (.request (.forgetPeer samplePeer.deviceId) 2 .ok) []
  obtain ⟨σ, hreach, hσ⟩ := exists_sampleRun (.repeated 1) none steps
    (fun σ => sentTo σ 1 = 2 ∧ σ.config.maxInflightConnections = 2 ∧
      (stepLooks sampleBlake3 σ forget).length = 2) (by decide +kernel)
  obtain ⟨hsent, hconfig, hlooks⟩ := of_decide_eq_true hσ
  obtain ⟨hbounded, hworkers, hpasses, hstep, -⟩ := runtime_bounds_hold hreach
  exact ⟨σ, hreach, hsent, hbounded.tasks, hworkers.trans hconfig, hlooks, fun τ hτ =>
    hpasses forget τ (hstep forget τ (List.mem_cons_of_mem _ hτ))⟩

end Rift.Daemon
