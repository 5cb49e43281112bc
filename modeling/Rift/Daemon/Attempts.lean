import Rift.Daemon.Limits

/-! # The tasks of the pairings

Every registered pairing has one task until that is joined, and the channel of the task holds what the
supervisor has sent and the task has not taken: the decision first, if at all, and a cancellation.

The main definitions are `Queue`, `Attempted` and `Regular`, the main result `Handled.regular`. -/

namespace Rift.Daemon

open Rift.Lib Rift.Lib.Interference Rift.Core Rift.Ipc Rift.Session Std
open Rift.Trust hiding Event

variable {blake3 : Blake3} {B : Bounds} {hand : Hand} {σ σ' : Daemon}

/-- The channel of a pairing task to which some commands were sent. The decision comes first in it, a
task that has taken the decision finds nothing but cancellations, and one that has ended finds
nothing. -/
structure Queue (sent : ℕ) (commands : List PairingCommand) (phase : PairingTaskPhase) : Prop where
  sent : commands.length + (if phase.reply.isSome then 1 else 0) ≤ sent
  later : ∀ c ∈ commands.tail, c = .cancel
  decided : phase ≠ .waiting → ∀ c ∈ commands, c = .cancel
  done : phase.isDone = true → commands = []

namespace Queue

variable {sent : ℕ} {commands commands' : List PairingCommand} {phase phase' : PairingTaskPhase}

theorem new (sent : ℕ) : Queue sent [] .waiting := ⟨Nat.zero_le _, nofun, nofun, nofun⟩

theorem ended (h : Queue sent commands phase) (result : PairingTaskResult) {reply : Option ReplyId}
    (hr : reply = phase.reply) : Queue sent [] (.done result reply) := by
  subst hr
  exact ⟨Nat.le_trans (Nat.add_le_add_right (Nat.zero_le _) _) h.sent, nofun, fun _ => nofun,
    fun _ => rfl⟩

theorem stepped {pending : Pending} {sh sh' : Shared} {event : TaskEvent}
    (h : Queue sent commands phase)
    (hs : PairingTaskPhase.Stepped blake3 pending commands sh event phase commands' phase' sh') :
    Queue sent commands' phase' := by
  cases hs with
  | confirms accepted reply rest heq =>
    subst heq
    refine ⟨h.sent, fun c hc => h.later c (List.mem_of_mem_tail hc), fun _ => h.later, nofun⟩
  | commits => exact ⟨h.sent, h.later, fun _ => h.decided nofun, nofun⟩
  | refused => exact h.ended _ rfl
  | ends => exact h.ended _ rfl
  | completes => exact h.ended _ rfl

theorem cancelled (h : Queue sent commands phase) (hphase : phase.isDone = false) :
    Queue (sent + 1) (commands ++ [.cancel]) phase := by
  refine ⟨?_, fun c hc => ?_, fun hw c hc => ?_, fun hd => ?_⟩
  · have hle := h.sent
    rw [List.length_append, List.length_singleton]
    omega
  · cases commands with
    | nil => cases hc
    | cons first rest =>
      rcases List.mem_append.mp hc with hc | hc
      · exact h.later c hc
      · exact List.mem_singleton.mp hc
  · rcases List.mem_append.mp hc with hc | hc
    · exact h.decided hw c hc
    · exact List.mem_singleton.mp hc
  · rw [hphase] at hd
    cases hd

theorem mono (h : Queue sent commands phase) {sent' : ℕ} (hs : sent ≤ sent') :
    Queue sent' commands phase :=
  ⟨h.sent.trans hs, h.later, h.decided, h.done⟩

/-- To a task that was sent nothing nothing is in the channel, and it has not taken a decision. -/
theorem of_zero (h : Queue 0 commands phase) : commands = [] ∧ phase.reply = none := by
  have hle := h.sent
  refine ⟨List.eq_nil_of_length_eq_zero (by omega), ?_⟩
  cases hr : phase.reply with
  | none => rfl
  | some r =>
    rw [hr] at hle
    simp at hle

theorem confirmed (h : Queue 0 commands phase) (hphase : phase.isDone = false) (accepted : Bool)
    (reply : ReplyId) : Queue 1 (commands ++ [.confirm accepted reply]) phase := by
  obtain ⟨rfl, hr⟩ := h.of_zero
  have hw : phase = .waiting := by
    cases phase with
    | waiting => rfl
    | done => cases hphase
    | confirming | committed => cases hr
  subst hw
  exact ⟨Nat.le_refl 1, nofun, nofun, nofun⟩

end Queue

/-- The tasks and the registry of the pairings. -/
structure Attempted (σ : Daemon) : Prop where
  queue : ∀ (id : ℕ) a pending commands phase,
    σ.tasks[id]? = some (.pairing a pending commands phase) →
    a < σ.nextPairingId ∧ Queue (sentTo σ a) commands phase
  unique : ∀ (id id' : ℕ) (t t' : Task) (a : PairingAttemptId) (pending pending' : Pending),
    σ.tasks[id]? = some t → σ.tasks[id']? = some t' → t.kind = .pairing a pending →
    t'.kind = .pairing a pending' → id = id'
  registered : ∀ (a : PairingAttemptId) (record : PendingRecord),
    σ.pendingPairings[a]? = some record → ∃ (id : ℕ) (t : Task) (pending : Pending),
      σ.tasks[id]? = some t ∧ t.kind = .pairing a pending ∧
        pending.remoteDeviceId = record.info.deviceId

namespace Attempted

theorem mono (h : Attempted σ) (hs : σ'.sent = σ.sent) (hn : σ'.nextPairingId = σ.nextPairingId)
    (hp : ∀ (a : PairingAttemptId) (record : PendingRecord), σ'.pendingPairings[a]? = some record →
      ∃ record', σ.pendingPairings[a]? = some record' ∧
        record'.info.deviceId = record.info.deviceId)
    (ht : ∀ (id : ℕ) (t : Task) (a : PairingAttemptId) (pending : Pending),
      t.kind = .pairing a pending → (σ'.tasks[id]? = some t ↔ σ.tasks[id]? = some t)) :
    Attempted σ' := by
  refine ⟨fun id a pending commands phase hid => ?_,
    fun id id' t t' a pending pending' hid hid' hk hk' => ?_, fun a record hr => ?_⟩
  · unfold sentTo
    rw [hs, hn]
    exact h.queue id a pending commands phase ((ht id _ a pending rfl).mp hid)
  · exact h.unique id id' t t' a pending pending' ((ht id t a pending hk).mp hid)
      ((ht id' t' a pending' hk').mp hid') hk hk'
  · obtain ⟨record', hr', hd⟩ := hp a record hr
    obtain ⟨id, t, pending, hid, hk, hpending⟩ := h.registered a record' hr'
    exact ⟨id, t, pending, (ht id t a pending hk).mpr hid, hk, hpending.trans hd⟩

theorem spawn (h : Attempted σ) (hfree : σ.nextTask ∉ σ.tasks) (task : Task)
    (hk : ∀ a pending, task.kind ≠ .pairing a pending)
    (ht : σ'.tasks = σ.tasks.insert σ.nextTask task) (hs : σ'.sent = σ.sent)
    (hn : σ'.nextPairingId = σ.nextPairingId) (hp : σ'.pendingPairings = σ.pendingPairings) :
    Attempted σ' := by
  refine h.mono hs hn (fun a record hr => ⟨record, hp ▸ hr, rfl⟩) fun id t a pending hkind => ?_
  rw [ht, Map.insert_eq_some]
  constructor
  · rintro (⟨-, rfl⟩ | ⟨-, hid⟩)
    · exact absurd hkind (hk a pending)
    · exact hid
  · intro hid
    refine Or.inr ⟨?_, hid⟩
    rintro rfl
    exact hfree (Map.mem_iff_exists.mpr ⟨t, hid⟩)

theorem erase (h : Attempted σ) {id : ℕ} {task : Task} (hid : σ.tasks[id]? = some task)
    (hk : ∀ a pending, task.kind ≠ .pairing a pending) (ht : σ'.tasks = σ.tasks.erase id)
    (hs : σ'.sent = σ.sent) (hn : σ'.nextPairingId = σ.nextPairingId)
    (hp : σ'.pendingPairings = σ.pendingPairings) : Attempted σ' := by
  refine h.mono hs hn (fun a record hr => ⟨record, hp ▸ hr, rfl⟩) fun id' t a pending hkind => ?_
  rw [ht, Map.erase_eq_some]
  refine ⟨And.right, fun hid' => ⟨?_, hid'⟩⟩
  rintro rfl
  cases hid.symm.trans hid'
  exact hk a pending hkind

theorem acted {s : TaskStep} (h : Attempted σ) (ha : Acted blake3 σ s σ') : Attempted σ' := by
  cases ha with
  | outside => exact ⟨h.queue, h.unique, h.registered⟩
  | @task id event t t' sh' ht hs =>
    have hkind (id' : ℕ) (u : Task) (hu : (σ.tasks.insert id t')[id']? = some u) :
        ∃ v, σ.tasks[id']? = some v ∧ v.kind = u.kind := by
      rcases Map.insert_eq_some.mp hu with ⟨rfl, rfl⟩ | ⟨-, hu⟩
      · exact ⟨t, ht, hs.kind.symm⟩
      · exact ⟨u, hu, rfl⟩
    refine ⟨fun id' a pending commands phase hid => ?_,
      fun id₁ id₂ u₁ u₂ a pending pending' hid₁ hid₂ hk₁ hk₂ => ?_, fun a record hr => ?_⟩
    · rcases Map.insert_eq_some.mp hid with ⟨rfl, rfl⟩ | ⟨-, hid⟩
      · cases hs with
        | pairing hs =>
          obtain ⟨hlt, hqueue⟩ := h.queue id a pending _ _ ht
          exact ⟨hlt, hqueue.stepped hs⟩
      · exact h.queue id' a pending commands phase hid
    · obtain ⟨v₁, hv₁, hkv₁⟩ := hkind id₁ u₁ hid₁
      obtain ⟨v₂, hv₂, hkv₂⟩ := hkind id₂ u₂ hid₂
      exact h.unique id₁ id₂ v₁ v₂ a pending pending' hv₁ hv₂ (hkv₁.trans hk₁) (hkv₂.trans hk₂)
    · obtain ⟨id', u, pending, hu, hk, hd⟩ := h.registered a record hr
      by_cases heq : id = id'
      · subst heq
        cases ht.symm.trans hu
        exact ⟨id, t', pending, ExtTreeMap.getElem?_insert_self, hs.kind.trans hk, hd⟩
      · exact ⟨id', u, pending, (Map.insert_ne heq).trans hu, hk, hd⟩

theorem evolves {P : TaskStep → Prop} (h : Attempted σ) (he : Evolves (taskStep blake3) P σ σ') :
    Attempted σ' :=
  he.stable (fun σ s _ h => h.acted (taskStep_spec σ s)) h

theorem receive (h : Attempted σ) (attempts : List PairingAttemptId) (command : PairingCommand)
    (hnodup : attempts.Nodup)
    (ht : σ'.tasks = σ.tasks.map fun _ task => task.receive attempts command)
    (hs : σ'.sent = σ.sent ++ attempts.map fun a => (a, command))
    (hn : σ'.nextPairingId = σ.nextPairingId)
    (hp : ∀ (a : PairingAttemptId) (record : PendingRecord), σ'.pendingPairings[a]? = some record →
      σ.pendingPairings[a]? = some record)
    (hroom : ∀ a ∈ attempts, ∀ commands phase, phase.isDone = false →
      Queue (sentTo σ a) commands phase → Queue (sentTo σ a + 1) (commands ++ [command]) phase) :
    Attempted σ' := by
  have hsent := sentTo_append hnodup hs
  have hkind (id : ℕ) (t : Task) (hid : σ'.tasks[id]? = some t) :
      ∃ u, σ.tasks[id]? = some u ∧ t = u.receive attempts command ∧ u.kind = t.kind := by
    rw [ht] at hid
    obtain ⟨u, hu, rfl⟩ := Map.map_eq_some.mp hid
    exact ⟨u, hu, rfl, by cases u <;> rfl⟩
  refine ⟨fun id a pending commands phase hid => ?_,
    fun id id' t t' a pending pending' hid hid' hk hk' => ?_, fun a record hr => ?_⟩
  · obtain ⟨u, hu, heq, hk⟩ := hkind id _ hid
    cases u with
    | pairing a' pending' commands' phase' =>
      cases heq
      obtain ⟨hlt, hqueue⟩ := h.queue id a pending commands' phase hu
      rw [hn, hsent]
      refine ⟨hlt, ?_⟩
      by_cases hin : a ∈ attempts
      · rw [if_pos hin]
        by_cases hphase : phase.isDone = false
        · rw [if_pos ⟨hin, hphase⟩]
          exact hroom a hin commands' phase hphase hqueue
        · rw [if_neg fun hboth => hphase hboth.2]
          exact hqueue.mono (Nat.le_succ _)
      · rw [if_neg hin, if_neg fun hboth => hin hboth.1]
        exact hqueue
    | incoming | outbound | session | ipcClient => cases heq
  · obtain ⟨u, hu, -, hku⟩ := hkind id t hid
    obtain ⟨u', hu', -, hku'⟩ := hkind id' t' hid'
    exact h.unique id id' u u' a pending pending' hu hu' (hku.trans hk) (hku'.trans hk')
  · obtain ⟨id, t, pending, hid, hk, hd⟩ := h.registered a record (hp a record hr)
    refine ⟨id, t.receive attempts command, pending, ?_, ?_, hd⟩
    · rw [ht, ExtTreeMap.getElem?_map, hid]
      rfl
    · rw [← hk]
      cases t <;> rfl

end Attempted

theorem Move.attempted (hm : Move blake3 B hand σ σ') (hs : Sound σ) (h : Attempted σ) :
    Attempted σ' := by
  have hfree := hs.nextTask_not_mem
  cases hm with
  | act => exact h.acted (taskStep_spec _ _)
  | manage hi =>
    obtain ⟨-, peers, rfl⟩ := mem_of_insertPeer hi
    exact ⟨h.queue, h.unique, h.registered⟩
  | dial => exact h.spawn hfree (.outbound ..) nofun rfl rfl rfl rfl
  | @pend _ _ pending =>
    have hold (id : ℕ) (t : Task) (a : PairingAttemptId) (p : Pending)
        (hid : σ.tasks[id]? = some t) (hk : t.kind = .pairing a p) : a < σ.nextPairingId := by
      cases t with
      | pairing =>
        cases hk
        exact (h.queue id _ _ _ _ hid).1
      | _ => cases hk
    refine ⟨fun id a p commands phase hid => ?_, fun id id' t t' a p p' hid hid' hk hk' => ?_,
      fun a record hr => ?_⟩
    · rcases Map.insert_eq_some.mp hid with ⟨-, heq⟩ | ⟨-, hid⟩
      · cases heq
        exact ⟨Nat.lt_succ_self _, .new _⟩
      · obtain ⟨hlt, hqueue⟩ := h.queue id a p commands phase hid
        exact ⟨Nat.lt_succ_of_lt hlt, hqueue⟩
    · rcases Map.insert_eq_some.mp hid with ⟨rfl, rfl⟩ | ⟨-, hid⟩
      · rcases Map.insert_eq_some.mp hid' with ⟨rfl, -⟩ | ⟨-, hid'⟩
        · rfl
        · cases hk
          exact absurd (hold id' t' _ p' hid' hk') (Nat.lt_irrefl _)
      · rcases Map.insert_eq_some.mp hid' with ⟨-, rfl⟩ | ⟨-, hid'⟩
        · cases hk'
          exact absurd (hold id t _ p hid hk) (Nat.lt_irrefl _)
        · exact h.unique id id' t t' a p p' hid hid' hk hk'
    · rcases Map.insert_eq_some.mp hr with ⟨rfl, rfl⟩ | ⟨-, hr⟩
      · exact ⟨_, _, pending, ExtTreeMap.getElem?_insert_self, rfl, rfl⟩
      · obtain ⟨id, t, p, hid, hk, hd⟩ := h.registered a record hr
        refine ⟨id, t, p, (Map.insert_ne ?_).trans hid, hk, hd⟩
        rintro rfl
        exact hfree (Map.mem_iff_exists.mpr ⟨t, hid⟩)
  | @openSession _ _ existing =>
    rcases existing with _ | ⟨s, r, closed⟩ <;>
      exact h.spawn hfree (.session ..) nofun rfl rfl rfl rfl
  | hint | close | drop | resume | resolved | fail | coalesce | commitFails =>
    exact ⟨h.queue, h.unique, h.registered⟩

theorem Opening.attempted {s : Step} (ho : Opening σ s hand σ') (hs : Sound σ) (h : Attempted σ) :
    Attempted σ' := by
  cases ho with
  | accepted => exact h.spawn hs.nextTask_not_mem (.ipcClient false) nofun rfl rfl rfl rfl
  | workerJoined ht => exact h.erase ht nofun rfl rfl rfl rfl
  | clientJoined ht => exact h.erase ht nofun rfl rfl rfl rfl
  | @staleJoined _ _ task ht hu =>
    refine h.erase ht (fun a p hk => ?_) rfl rfl rfl rfl
    cases task with
    | pairing => exact hu
    | _ => cases hk
  | cancelledJoined ht => exact h.erase ht nofun rfl rfl rfl rfl
  | dialJoined ht => exact h.erase ht nofun rfl rfl rfl rfl
  | @pairingJoined id _ a pending _ _ _ ht =>
    refine ⟨fun id' b p commands phase hid => ?_, fun id₁ id₂ t₁ t₂ b p p' h₁ h₂ => ?_,
      fun b record hr => ?_⟩
    · exact h.queue id' b p commands phase (Map.erase_eq_some.mp hid).2
    · exact h.unique id₁ id₂ t₁ t₂ b p p' (Map.erase_eq_some.mp h₁).2 (Map.erase_eq_some.mp h₂).2
    · obtain ⟨hne, hr⟩ := Map.erase_eq_some.mp hr
      obtain ⟨id', t, p, hid, hk, hd⟩ := h.registered b record hr
      refine ⟨id', t, p, Map.erase_eq_some.mpr ⟨?_, hid⟩, hk, hd⟩
      rintro rfl
      cases ht.symm.trans hid
      cases hk
      exact hne rfl
  | sessionJoined ht => exact h.erase ht nofun rfl rfl rfl rfl
  | idle | command | due => exact ⟨h.queue, h.unique, h.registered⟩

theorem Answering.attempted (ha : Answering blake3 B σ σ') (h : Attempted σ) : Attempted σ' := by
  cases ha with
  | yield | disconnect => exact ⟨h.queue, h.unique, h.registered⟩
  | @invalidate τ m io _ _ he reason _ =>
    have hstore : Attempted (σ.setStore (commit blake3 σ.shared.store m none io).2) :=
      ⟨h.queue, h.unique, h.registered⟩
    have hτ : Attempted τ := hstore.evolves he
    refine hτ.receive ((τ.pendingPairings.toList.filter fun entry =>
      entry.2.info.deviceId = m.deviceId).map Prod.fst) .cancel
      (Map.nodup_keys_filter _) rfl ?_ rfl (fun a record hr => (Map.filter_eq_some.mp hr).1)
      fun _ _ _ _ hphase hqueue => hqueue.cancelled hphase
    rw [List.map_map]
    rfl

theorem Attempted.setPending (h : Attempted σ) {a : PairingAttemptId} {record : PendingRecord}
    (ha : σ.pendingPairings[a]? = some record) (record' : PendingRecord)
    (hi : record'.info = record.info) :
    Attempted (σ.setPending a record') := by
  refine h.mono rfl rfl (fun b r hb => ?_) fun _ _ _ _ _ => Iff.rfl
  rcases Map.insert_eq_some.mp hb with ⟨rfl, rfl⟩ | ⟨-, hb⟩
  · exact ⟨record, ha, by rw [hi]⟩
  · exact ⟨r, hb, rfl⟩

theorem Closing.attempted (hc : Closing blake3 B hand σ σ') (hs : Sound σ) (hch : Channelled σ)
    (h : Attempted σ) : Attempted σ' := by
  cases hc with
  | respawned => exact h.spawn hs.nextTask_not_mem (.incoming .connecting) nofun rfl rfl rfl rfl
  | @delivered _ τ a record accepted ha hr _ he _ reply =>
    obtain ⟨-, hzero⟩ := hch.setPending ha hr { record with resolving := some accepted }
    have hτ : Attempted τ :=
      (h.setPending ha { record with resolving := some accepted } rfl).evolves he
    have hsame : sentTo τ a = 0 := by
      obtain ⟨tasks, shared, rfl⟩ := (evolves_spec he).owned
      exact hzero
    refine hτ.receive [a] _ (List.nodup_singleton a) rfl rfl rfl (fun _ _ hb => hb)
      fun b hb commands phase hphase hqueue => ?_
    obtain rfl := List.mem_singleton.mp hb
    rw [hsame] at hqueue ⊢
    exact hqueue.confirmed hphase accepted reply
  | @abandoned _ _ a record accepted ha hr he =>
    have hev := (h.setPending ha { record with resolving := some accepted } rfl).evolves he
    exact hev.mono rfl rfl (fun b r hb => ⟨r, (Map.erase_eq_some.mp hb).2, rfl⟩)
      fun _ _ _ _ _ => Iff.rfl
  | @resolved _ _ registered _ _ reply _ =>
    unfold resolvePairing
    cases registered <;> cases reply <;> exact ⟨h.queue, h.unique, h.registered⟩
  | none | request | answered | waits | refused => exact ⟨h.queue, h.unique, h.registered⟩

/-- All that holds of a daemon with something in hand. -/
structure Regular (hand : Hand) (σ : Daemon) : Prop where
  orderly : Orderly hand σ
  attempted : Attempted σ

theorem Move.regular (hm : Move blake3 B hand σ σ') (h : Regular hand σ) : Regular hand σ' :=
  ⟨hm.orderly h.orderly, hm.attempted h.orderly.sound h.attempted⟩

theorem Opening.regular {s : Step} (ho : Opening σ s hand σ') (h : Regular .none σ) :
    Regular hand σ' :=
  ⟨ho.orderly h.orderly, ho.attempted h.orderly.sound h.attempted⟩

theorem Answering.regular (ha : Answering blake3 B σ σ') (h : Regular hand σ) : Regular hand σ' :=
  ⟨ha.orderly h.orderly, ha.attempted h.attempted⟩

theorem Closing.regular (hc : Closing blake3 B hand σ σ') (h : Regular hand σ) :
    Regular .none σ' :=
  ⟨hc.orderly h.orderly, hc.attempted h.orderly.sound h.orderly.channelled h.attempted⟩

/-- **No handled event breaks it.** -/
theorem Handled.regular {s : Step} (hh : Handled blake3 B σ s σ') (h : Regular .none σ) :
    Regular .none σ' :=
  hh.keep (P := Regular) Move.regular Opening.regular Answering.regular Closing.regular h

theorem Beginning.regular {localId : DeviceId} {now : ℕ} (h : Beginning localId now σ) :
    Regular .none σ := by
  refine ⟨h.orderly, fun id a pending commands phase hid => ?_, fun id id' t t' a p p' hid _ hk _ => ?_,
    fun a record hr => ?_⟩
  · cases h.workers id _ hid
  · cases h.workers id t hid
    cases hk
  · rw [h.pairings] at hr
    simp at hr

end Rift.Daemon
