import Rift.Daemon.Attempts
import Rift.Lib.Totals

/-! # Who is owed a reply

A caller is answered, waits with a dial, or has its decision with the task of a pairing, or is in the
supervisor's hand. Adding up where a reply channel occurs tells how often a caller is answered: a
handled event moves it from one place to another, and no event but the command that brings it adds to
it. It is lost only with a decision that is in the channel of a task that ends, or that finds no
task.

The main definition is `tally`, the main results `Move.tally`, `Opening.tally`, `Answering.tally`
and `Closing.tally`. -/

namespace Rift.Daemon

open Rift.Lib Rift.Lib.Interference Rift.Core Rift.Ipc Rift.Session Std
open Rift.Trust hiding Event

variable {blake3 : Blake3} {B : Bounds} {hand : Hand} {σ σ' : Daemon}
  {r : ReplyId}

/-! ### Where a reply channel occurs -/

def OutboundReply.id : OutboundReply → ReplyId
  | .ipc reply => reply
  | .pairing reply => reply
  | .session reply => reply

/-- How often the caller waits. -/
def callers (r : ReplyId) (waiting : List OutboundReply) : ℕ := waiting.countP fun w => w.id = r

/-- How often a dial owes this reply. -/
def OutboundRecord.owes (r : ReplyId) (record : OutboundRecord) : ℕ := callers r record.replies

/-- The command carries this reply channel. -/
def PairingCommand.carries (r : ReplyId) : PairingCommand → Bool
  | .confirm _ reply => reply = r
  | .cancel => false

/-- How often a task owes this reply. -/
def Task.owes (r : ReplyId) : Task → ℕ
  | .pairing _ _ commands phase =>
    commands.countP (·.carries r) + if phase.reply = some r then 1 else 0
  | _ => 0

/-- How often what is in hand owes this reply. -/
def Hand.owes (r : ReplyId) : Hand → ℕ
  | .none => 0
  | .incoming => 0
  | .dial _ _ waiting => callers r waiting
  | .request reply => if reply = r then 1 else 0
  | .decision _ _ reply => if reply = r then 1 else 0
  | .attempt _ _ _ reply => if reply = some r then 1 else 0

/-- How often the caller was answered. -/
def answersTo (σ : Daemon) (r : ReplyId) : ℕ := σ.replies.countP fun entry => entry.1 = r

/-- How often the caller waits with a dial. -/
def awaited (σ : Daemon) (r : ReplyId) : ℕ := Map.total (OutboundRecord.owes r) σ.outbound

/-- How often the caller's decision is with the task of a pairing. -/
def held (σ : Daemon) (r : ReplyId) : ℕ := Map.total (Task.owes r) σ.tasks

/-- How often the caller occurs at all. -/
def tally (hand : Hand) (σ : Daemon) (r : ReplyId) : ℕ :=
  answersTo σ r + awaited σ r + held σ r + hand.owes r

@[simp] theorem callers_nil (r : ReplyId) : callers r [] = 0 := rfl

theorem callers_append (r : ReplyId) (a b : List OutboundReply) :
    callers r (a ++ b) = callers r a + callers r b :=
  List.countP_append

@[simp] theorem OutboundReply.message_id (result : OperationResult DialResult) (w : OutboundReply) :
    (w.message result).1 = w.id := by
  cases w <;> rfl

theorem answersTo_messages (waiting : List OutboundReply) (result : OperationResult DialResult)
    (hr : σ'.replies = σ.replies ++ waiting.map (OutboundReply.message result)) :
    answersTo σ' r = answersTo σ r + callers r waiting := by
  unfold answersTo callers
  rw [hr, List.countP_append, List.countP_map]
  congr 1
  exact List.countP_congr fun w _ => by simp

theorem answersTo_send (σ : Daemon) (reply : ReplyId) (message : Reply) :
    answersTo (σ.send reply message) r = answersTo σ r + if reply = r then 1 else 0 := by
  unfold answersTo send
  rw [List.countP_append, List.countP_singleton]
  simp

/-! ### The tasks -/

theorem Task.Stepped.owes_le {sh sh' : Shared} {event : TaskEvent} {task task' : Task}
    (h : Task.Stepped blake3 sh event task task' sh') : task'.owes r ≤ task.owes r := by
  cases h with
  | pairing h =>
    cases h with
    | confirms accepted reply rest heq =>
      subst heq
      simp only [Task.owes, List.countP_cons, PairingCommand.carries, PairingTaskPhase.reply,
        decide_eq_true_eq, Option.some.injEq, reduceCtorEq, if_false]
      omega
    | commits => exact Nat.le_refl _
    | refused | ends | completes => exact Nat.add_le_add_right (Nat.zero_le _) _
  | incoming | outbound | session | ipcClient => exact Nat.le_refl _

/-- The decision is in the channel of the task. -/
def Decided (σ : Daemon) (id : ℕ) : Prop :=
  ∃ a pending commands accepted reply, σ.tasks[id]? = some (.pairing a pending commands .waiting) ∧
    .confirm accepted reply ∈ commands

theorem countP_carries_eq_zero {commands : List PairingCommand} (h : ∀ c ∈ commands, c = .cancel) :
    commands.countP (·.carries r) = 0 := by
  refine List.countP_eq_zero.mpr fun c hc => ?_
  rw [h c hc]
  simp [PairingCommand.carries]

/-- A task loses a decision only if it expires or loses its connection with the decision in its
channel. -/
theorem PairingTaskPhase.Stepped.owes_eq {sh sh' : Shared} {event : TaskEvent} {a : PairingAttemptId}
    {pending : Pending} {sent : ℕ} {commands commands' : List PairingCommand}
    {phase phase' : PairingTaskPhase}
    (h : PairingTaskPhase.Stepped blake3 pending commands sh event phase commands' phase' sh')
    (hq : Queue sent commands phase)
    (hd : event = .expired ∨ event = .lost → phase = .waiting →
      ∀ accepted reply, .confirm accepted reply ∉ commands) :
    (Task.pairing a pending commands' phase').owes r = (Task.pairing a pending commands phase).owes r := by
  have hcancels (hc : ∀ c ∈ commands, c = .cancel) (result : PairingTaskResult) :
      (Task.pairing a pending [] (.done result phase.reply)).owes r =
        (Task.pairing a pending commands phase).owes r := by
    simp only [Task.owes, countP_carries_eq_zero hc]
    rfl
  cases h with
  | confirms accepted reply rest heq =>
    subst heq
    simp only [Task.owes, List.countP_cons, PairingCommand.carries, PairingTaskPhase.reply,
      decide_eq_true_eq, Option.some.injEq, reduceCtorEq, if_false]
    omega
  | commits => rfl
  | refused => exact hcancels (hq.decided nofun) _
  | completes => exact hcancels (hq.decided nofun) _
  | ends event _ hphase result hr hw =>
    refine hcancels (fun c hc => ?_) result
    by_cases hwaiting : phase = .waiting
    · have hcancel : event = .expired ∨ event = .lost → c = .cancel := by
        intro hevent
        cases c with
        | cancel => rfl
        | confirm accepted reply => exact absurd hc (hd hevent hwaiting accepted reply)
      rcases hw hwaiting with hevent | hevent | rfl | ⟨rest, rfl⟩
      · exact hcancel (Or.inl hevent)
      · exact hcancel (Or.inr hevent)
      · cases hc
      · rcases List.mem_cons.mp hc with rfl | hc
        · rfl
        · exact hq.later c hc
    · exact hq.decided hwaiting c hc

theorem held_le_of_acted {s : TaskStep} (h : Acted blake3 σ s σ') : held σ' r ≤ held σ r := by
  cases h with
  | @task id _ task task' _ ht hs =>
    unfold held
    rw [Map.total_insert, Map.total_of_eq_some ht]
    exact Nat.add_le_add_right hs.owes_le _
  | outside => exact Nat.le_refl _

/-- What is in the channels of the pairing tasks is in order. -/
def Queued (σ : Daemon) : Prop :=
  ∀ (id : ℕ) a pending commands phase, σ.tasks[id]? = some (.pairing a pending commands phase) →
    ∃ sent, Queue sent commands phase

theorem Attempted.queued (h : Attempted σ) : Queued σ :=
  fun id a pending commands phase ht => ⟨_, (h.queue id a pending commands phase ht).2⟩

theorem Queued.acted {s : TaskStep} (h : Queued σ) (ha : Acted blake3 σ s σ') : Queued σ' := by
  cases ha with
  | @task id event task task' _ ht hs =>
    intro id' a pending commands phase hid
    rcases Map.insert_eq_some.mp hid with ⟨rfl, heq⟩ | ⟨-, hid⟩
    · subst heq
      cases hs with
      | pairing hs =>
        obtain ⟨sent, hqueue⟩ := h id _ _ _ _ ht
        exact ⟨sent, hqueue.stepped hs⟩
    · exact h id' a pending commands phase hid
  | outside => exact h

/-- The tasks lose no decision, unless one expires or loses its connection with the decision in its
channel. -/
theorem held_eq_of_acted {s : TaskStep} (h : Acted blake3 σ s σ') (hq : Queued σ)
    (hd : ∀ id, s = .task id .expired ∨ s = .task id .lost → ¬ Decided σ id) :
    held σ' r = held σ r := by
  cases h with
  | @task id event task task' _ ht hs =>
    refine Map.total_insert_of_eq ht ?_
    cases hs with
    | pairing hs =>
      obtain ⟨_, hqueue⟩ := hq id _ _ _ _ ht
      refine hs.owes_eq hqueue fun hevent hwaiting accepted reply hmem => ?_
      subst hwaiting
      exact hd id (hevent.imp (congrArg _) (congrArg _)) ⟨_, _, _, accepted, reply, ht, hmem⟩
    | incoming | outbound | session | ipcClient => rfl
  | outside => rfl

/-- Whatever the tasks do, they lose nothing of the caller's. -/
def Calm (blake3 : Blake3) (B : Bounds) (σ : Daemon) (r : ReplyId) : Prop :=
  ∀ τ τ', τ.tasks = σ.tasks → Evolves (taskStep blake3) B.acts τ τ' → held τ' r = held σ r

theorem Calm.acted (h : Calm blake3 B σ r) {s : TaskStep} (hs : B.acts s) :
    held (taskStep blake3 σ s) r = held σ r :=
  h σ _ rfl (.step hs σ)

theorem calm_of_held (h : held σ r = 0) : Calm blake3 B σ r := by
  intro τ τ' htasks he
  have hτ : held τ r = 0 := by
    unfold held
    rw [htasks]
    exact h
  rw [h]
  refine he.stable (I := fun υ => held υ r = 0) (fun υ s _ hυ => ?_) hτ
  exact Nat.eq_zero_of_le_zero ((held_le_of_acted (taskStep_spec υ s)).trans_eq hυ)

/-! ### The supervisor -/

theorem held_spawn (hfree : σ.nextTask ∉ σ.tasks) (task : Task) (h0 : task.owes r = 0)
    (ht : σ'.tasks = σ.tasks.insert σ.nextTask task) : held σ' r = held σ r := by
  have hnone : σ.tasks[σ.nextTask]? = none := by simpa using hfree
  unfold held
  rw [ht, Map.total_insert_of_none hnone, h0, Nat.zero_add]

theorem held_erase {id : ℕ} {task : Task} (hid : σ.tasks[id]? = some task) (h0 : task.owes r = 0)
    (ht : σ'.tasks = σ.tasks.erase id) : held σ' r = held σ r := by
  unfold held
  rw [ht, Map.total_of_eq_some hid, h0, Nat.zero_add]

theorem retireExisting_ledger (existing : Existing) :
    (retireExisting σ existing).tasks = σ.tasks ∧
      (retireExisting σ existing).nextTask = σ.nextTask ∧
      (retireExisting σ existing).outbound = σ.outbound ∧
      (retireExisting σ existing).replies = σ.replies := by
  rcases existing with _ | ⟨s, r, closed⟩ <;> exact ⟨rfl, rfl, rfl, rfl⟩

theorem Move.replies_eq (hm : Move blake3 B hand σ σ') : σ'.replies = σ.replies := by
  cases hm with
  | @act _ _ s =>
    obtain ⟨tasks, shared, heq⟩ := (taskStep_spec (σ := σ) s).evolved.owned
    rw [heq]
  | manage hi =>
    obtain ⟨-, peers, rfl⟩ := mem_of_insertPeer hi
    rfl
  | @openSession _ _ existing => exact (retireExisting_ledger existing).2.2.2
  | hint | close | drop | resume | resolved | fail | coalesce | dial | pend | commitFails => rfl

theorem Move.awaited_eq (hm : Move blake3 B hand σ σ') : awaited σ' r = awaited σ r := by
  cases hm with
  | act =>
    unfold awaited
    rw [(taskStep_spec σ _).evolved.outbound]
  | manage hi =>
    obtain ⟨-, peers, rfl⟩ := mem_of_insertPeer hi
    rfl
  | dial hn => exact (Map.total_insert_of_none hn).trans (Nat.zero_add _)
  | @openSession _ _ existing =>
    exact congrArg (Map.total (OutboundRecord.owes r)) (retireExisting_ledger existing).2.2.1
  | hint | close | drop | resume | resolved | fail | coalesce | pend | commitFails => rfl

theorem Move.held_eq (hm : Move blake3 B hand σ σ') (hs : Sound σ) (hc : Calm blake3 B σ r) :
    held σ' r = held σ r := by
  have hfree := hs.nextTask_not_mem
  cases hm with
  | act _ hs => exact hc.acted hs
  | manage hi =>
    obtain ⟨-, peers, rfl⟩ := mem_of_insertPeer hi
    rfl
  | dial => exact held_spawn hfree (.outbound ..) rfl rfl
  | pend => exact held_spawn hfree (.pairing ..) rfl rfl
  | @openSession _ _ existing connection =>
    obtain ⟨htasks, hnext, -, -⟩ := @retireExisting_ledger σ existing
    refine held_spawn hfree (.session (retireExisting σ existing).nextSessionId connection none) rfl ?_
    rw [← htasks, ← hnext]
    rfl
  | hint | close | drop | resume | resolved | fail | coalesce | commitFails => rfl

/-- **A move leaves every caller where it is**, if the tasks do. -/
theorem Move.tally (hm : Move blake3 B hand σ σ') (hs : Sound σ) (hc : Calm blake3 B σ r) :
    tally hand σ' r = tally hand σ r := by
  unfold Daemon.tally answersTo
  rw [hm.replies_eq, hm.awaited_eq, hm.held_eq hs hc]

/-- What a step brings. -/
def Step.brings (r : ReplyId) : Step → ℕ
  | .command issued _ => issued.hand.owes r
  | _ => 0

theorem sum_brings {before after : List Step} {s : Step} (hs : s.brings r = 1)
    (hown : ∀ s ∈ before ++ after, s.brings r = 0) :
    ((before ++ s :: after).map (Step.brings r)).sum = 1 := by
  have hnone (part : List Step) (h : ∀ s ∈ part, s.brings r = 0) :
      (part.map (Step.brings r)).sum = 0 := by
    refine List.sum_eq_zero fun k hk => ?_
    obtain ⟨s, hs, rfl⟩ := List.mem_map.mp hk
    exact h s hs
  simp only [List.map_append, List.map_cons, List.sum_append, List.sum_cons, hs,
    hnone before fun s hs => hown s (List.mem_append_left _ hs),
    hnone after fun s hs => hown s (List.mem_append_right _ hs)]

/-- **An opening adds the caller that a command brings.** -/
theorem Opening.tally {s : Step} (ho : Opening σ s hand σ') (h : Regular .none σ) :
    tally hand σ' r = tally .none σ r + s.brings r := by
  have hfree := h.orderly.sound.nextTask_not_mem
  unfold Daemon.tally
  cases ho with
  | idle hidle =>
    have hbrings : s.brings r = 0 := by
      cases s with
      | command command script => exact absurd rfl (hidle command script)
      | _ => rfl
    rw [hbrings, Nat.add_zero]
  | accepted =>
    have hheld : held ({ σ with ipcClients := σ.ipcClients + 1 }.spawn (.ipcClient false)) r =
        held σ r := held_spawn hfree _ rfl rfl
    rw [hheld]
    rfl
  | command => rfl
  | @workerJoined id _ _ ht =>
    have hheld : held { σ with tasks := σ.tasks.erase id } r = held σ r := held_erase ht rfl rfl
    rw [hheld]
    rfl
  | @clientJoined id _ _ ht =>
    have hheld : held { σ with tasks := σ.tasks.erase id, ipcClients := σ.ipcClients - 1 } r =
        held σ r := held_erase ht rfl rfl
    rw [hheld]
    rfl
  | @staleJoined id _ task ht hu =>
    have howes : task.owes r = 0 := by
      cases task with
      | pairing => exact hu.elim
      | _ => rfl
    have hheld : held { σ with tasks := σ.tasks.erase id } r = held σ r := held_erase ht howes rfl
    rw [hheld]
    rfl
  | @cancelledJoined id _ d _ _ record ht hr hc =>
    have hheld : held { σ with tasks := σ.tasks.erase id, outbound := σ.outbound.erase d } r =
        held σ r := held_erase ht rfl rfl
    have hnone : record.owes r = 0 := by
      rw [OutboundRecord.owes, (h.orderly.limited.dials d record hr).cancelled hc, callers_nil]
    have hawaited : awaited σ r = record.owes r + Map.total (OutboundRecord.owes r)
        (σ.outbound.erase d) := Map.total_of_eq_some hr
    rw [hheld, hawaited, hnone, Nat.zero_add]
    rfl
  | @dialJoined id _ d _ _ record ht hr hc =>
    have hheld : held { σ with tasks := σ.tasks.erase id, outbound := σ.outbound.erase d } r =
        held σ r := held_erase ht rfl rfl
    have hawaited : awaited σ r = callers r record.replies + Map.total (OutboundRecord.owes r)
        (σ.outbound.erase d) := Map.total_of_eq_some hr
    have herased : awaited { σ with tasks := σ.tasks.erase id, outbound := σ.outbound.erase d } r =
        Map.total (OutboundRecord.owes r) (σ.outbound.erase d) := rfl
    rw [hheld, herased, hawaited]
    simp only [Hand.owes, Step.brings, answersTo]
    omega
  | @pairingJoined id _ a pending commands result reply ht =>
    obtain ⟨-, hqueue⟩ := h.attempted.queue id a pending commands _ ht
    obtain rfl := hqueue.done rfl
    have hheld : held σ r = (Hand.attempt a pending.remoteDeviceId false reply).owes r +
        Map.total (Task.owes r) (σ.tasks.erase id) :=
      (Map.total_of_eq_some ht).trans (congrArg (· + _) (Nat.zero_add _))
    rw [hheld]
    simp only [held, Hand.owes, Step.brings, answersTo, awaited]
    omega
  | @sessionJoined id _ s c failure ht =>
    have hheld : held ({ σ with tasks := σ.tasks.erase id }.sessionLost s c.remoteDeviceId
        .connectionClosed failure) r = held σ r := held_erase ht rfl rfl
    rw [hheld]
    rfl
  | due => rfl

theorem Opening.replies_eq {s : Step} (ho : Opening σ s hand σ') : σ'.replies = σ.replies := by
  cases ho <;> rfl

theorem Opening.held_le {s : Step} (ho : Opening σ s hand σ') (hs : Sound σ) :
    held σ' r ≤ held σ r := by
  have herase (id : ℕ) (σ' : Daemon) (ht : σ'.tasks = σ.tasks.erase id) : held σ' r ≤ held σ r := by
    unfold held
    rw [ht, Map.total_eq (Task.owes r) σ.tasks id]
    exact Nat.le_add_left _ _
  cases ho with
  | accepted => exact (held_spawn hs.nextTask_not_mem (.ipcClient false) rfl rfl).le
  | workerJoined | clientJoined | staleJoined | cancelledJoined | dialJoined | pairingJoined
  | sessionJoined => exact herase _ _ rfl
  | idle | command | due => exact Nat.le_refl _

theorem tally_cancelled {d : DeviceId} (result : OperationResult DialResult)
    (ho : σ'.outbound = σ.outbound.modify d fun record =>
      { record with cancelled := true, replies := [] })
    (hr : σ'.replies = σ.replies ++ (σ.waiters d).map (OutboundReply.message result)) :
    answersTo σ' r + awaited σ' r = answersTo σ r + awaited σ r := by
  rw [answersTo_messages _ result hr]
  unfold awaited
  rw [ho]
  cases hd : σ.outbound[d]? with
  | none => simp [Map.modify_of_none hd, waiters, hd]
  | some record =>
    have hwaiters : σ.waiters d = record.replies := by simp [waiters, hd]
    rw [Map.total_modify hd, Map.total_of_eq_some hd, hwaiters]
    simp only [OutboundRecord.owes, callers_nil]
    omega

theorem held_receive_cancel (attempts : List PairingAttemptId)
    (ht : σ'.tasks = σ.tasks.map fun _ task => task.receive attempts .cancel) :
    held σ' r = held σ r := by
  unfold held
  rw [ht, Map.total_map]
  refine Map.total_congr fun id => ?_
  congr 1
  funext task
  cases task with
  | pairing a pending commands phase =>
    simp only [Function.comp_apply, Task.receive, Task.owes]
    split_ifs <;> simp [PairingCommand.carries]
  | _ => rfl

theorem Answering.held_eq (ha : Answering blake3 B σ σ') (hc : Calm blake3 B σ r) :
    held σ' r = held σ r := by
  cases ha with
  | yield | disconnect => rfl
  | @invalidate τ m io _ _ he =>
    have hheld : held τ r = held σ r :=
      hc (σ.setStore (commit blake3 σ.shared.store m none io).2) τ rfl he
    exact (held_receive_cancel _ rfl).trans hheld

/-- **Answering moves the callers of a dial to those who were answered.** -/
theorem Answering.tally (ha : Answering blake3 B σ σ') (hc : Calm blake3 B σ r) :
    tally hand σ' r = tally hand σ r := by
  have hheld := ha.held_eq hc
  unfold Daemon.tally
  cases ha with
  | @yield d s _ _ hs hd hp hconn hy =>
    have hcancelled : answersTo (σ.cancelOutbound d (.ok (.session d s))) r +
        awaited (σ.cancelOutbound d (.ok (.session d s))) r = answersTo σ r + awaited σ r :=
      tally_cancelled _ rfl rfl
    rw [hcancelled]
    rfl
  | @disconnect s record hs =>
    have hcancelled : answersTo (σ.disconnect s record) r + awaited (σ.disconnect s record) r =
        answersTo σ r + awaited σ r := tally_cancelled _ rfl rfl
    rw [hcancelled]
    rfl
  | @invalidate τ m io hm hok he reason state hd =>
    have hsame : answersTo τ r + awaited τ r = answersTo σ r + awaited σ r := by
      obtain ⟨tasks, shared, rfl⟩ := (evolves_spec he).owned
      rfl
    have hcancelled : answersTo ((τ.invalidatePeer m.deviceId reason).emit
          (.trustChanged m.deviceId state)) r +
        awaited ((τ.invalidatePeer m.deviceId reason).emit (.trustChanged m.deviceId state)) r =
        answersTo τ r + awaited τ r := tally_cancelled _ rfl rfl
    rw [hcancelled, hsame, hheld]

theorem listens_eq_true {a : PairingAttemptId} (h : σ.listens a = true) :
    ∃ (id : ℕ), ∃ pending commands phase,
      σ.tasks[id]? = some (.pairing a pending commands phase) ∧
      phase.isDone = false := by
  obtain ⟨⟨id, task⟩, hmem, hl⟩ := List.any_eq_true.mp h
  rw [ExtTreeMap.mem_toList_iff_getElem?_eq_some] at hmem
  cases task with
  | pairing b pending commands phase =>
    obtain ⟨rfl, hphase⟩ := of_decide_eq_true hl
    exact ⟨id, pending, commands, phase, hmem, hphase⟩
  | incoming | outbound | session | ipcClient => cases hl

theorem held_deliver {a : PairingAttemptId} (h : Attempted σ) (hl : σ.listens a = true)
    (accepted : Bool) (reply : ReplyId) :
    held (σ.deliver a (.confirm accepted reply)) r = held σ r + if reply = r then 1 else 0 := by
  obtain ⟨id, pending, commands, phase, hid, hphase⟩ := listens_eq_true hl
  have hothers : Map.total (Task.owes r ∘ Task.receive [a] (.confirm accepted reply))
      (σ.tasks.erase id) = Map.total (Task.owes r) (σ.tasks.erase id) := by
    refine Map.total_congr fun id' => ?_
    cases ht : (σ.tasks.erase id)[id']? with
    | none => rfl
    | some task =>
      obtain ⟨hne, ht⟩ := Map.erase_eq_some.mp ht
      cases task with
      | pairing b p cs ph =>
        have hb : b ≠ a := by
          rintro rfl
          exact hne (h.unique id id' _ _ b pending p hid ht rfl rfl)
        simp [Task.receive, hb]
      | incoming | outbound | session | ipcClient => rfl
  have hone : (Task.owes r ∘ Task.receive [a] (.confirm accepted reply))
      (.pairing a pending commands phase) =
      (Task.pairing a pending commands phase).owes r + if reply = r then 1 else 0 := by
    simp only [Function.comp_apply, Task.receive, Task.owes, List.mem_singleton, hphase, and_self,
      if_true, List.countP_append, List.countP_singleton, PairingCommand.carries, decide_eq_true_eq]
    omega
  have htotal : held (σ.deliver a (.confirm accepted reply)) r =
      Map.total (Task.owes r ∘ Task.receive [a] (.confirm accepted reply)) σ.tasks :=
    Map.total_map ..
  have hheld : held σ r = _ := Map.total_of_eq_some hid
  rw [htotal, Map.total_of_eq_some hid, hothers, hone, hheld]
  omega

/-- **A closing disposes of the caller in hand**, unless its decision finds no task. -/
theorem Closing.tally (hc : Closing blake3 B hand σ σ') (h : Regular hand σ)
    (hcalm : Calm blake3 B σ r)
    (hb : ∀ a accepted, hand = .decision a accepted r → ¬ B.abandons a) :
    tally .none σ' r = tally hand σ r := by
  unfold Daemon.tally
  cases hc with
  | none => rfl
  | respawned =>
    have hheld : held (σ.spawn (.incoming .connecting)) r = held σ r :=
      held_spawn h.orderly.sound.nextTask_not_mem _ rfl rfl
    rw [hheld]
    rfl
  | request _ reply message =>
    rw [answersTo_send]
    simp only [send, held, awaited, Hand.owes]
    omega
  | refused _ a accepted reply message =>
    rw [answersTo_send]
    simp only [send, held, awaited, Hand.owes]
    omega
  | @answered _ d pairing result _ _ _ waiting =>
    have hanswered : answersTo (σ.answer waiting result) r = answersTo σ r +
        callers r waiting := answersTo_messages waiting result rfl
    rw [hanswered]
    simp only [answer, held, awaited, Hand.owes]
    omega
  | @waits _ d record waiting hr =>
    have hmem : d ∈ σ.outbound := Map.mem_iff_exists.mpr ⟨record, hr⟩
    have hanswered : answersTo (σ.addWaiter d waiting) r = answersTo σ r := by
      unfold answersTo addWaiter
      simp [hmem]
    have hawaited : awaited (σ.addWaiter d waiting) r = awaited σ r + callers r waiting := by
      have hone : awaited (σ.addWaiter d waiting) r = _ := Map.total_modify hr
      have hall : awaited σ r = _ := Map.total_of_eq_some hr
      rw [hone, hall, OutboundRecord.owes, callers_append, OutboundRecord.owes]
      omega
    rw [hanswered, hawaited]
    simp only [addWaiter, held, Hand.owes]
    omega
  | @delivered _ τ a record accepted ha _ _ he hl reply =>
    have hτ : Attempted τ :=
      (h.attempted.setPending ha { record with resolving := some accepted } rfl).evolves he
    have hheld : held τ r = held σ r := hcalm (σ.setPending a _) τ rfl he
    have hsame : answersTo τ r + awaited τ r = answersTo σ r + awaited σ r := by
      obtain ⟨tasks, shared, rfl⟩ := (evolves_spec he).owned
      rfl
    have hdelivered : answersTo (τ.deliver a (.confirm accepted reply)) r +
        awaited (τ.deliver a (.confirm accepted reply)) r = answersTo τ r + awaited τ r := rfl
    rw [held_deliver hτ hl, hheld, hdelivered, hsame]
    simp only [Hand.owes]
    omega
  | @abandoned _ τ a record accepted ha _ he hl hab reply =>
    have hne : reply ≠ r := by
      rintro rfl
      exact hb a accepted rfl hab
    have hheld : held τ r = held σ r := hcalm (σ.setPending a _) τ rfl he
    have hsame : answersTo (τ.removePending a) r + awaited (τ.removePending a) r =
        answersTo σ r + awaited σ r := by
      obtain ⟨tasks, shared, rfl⟩ := (evolves_spec he).owned
      rfl
    rw [hsame, show held (τ.removePending a) r = held τ r from rfl, hheld]
    simp [Hand.owes, hne]
  | @resolved _ d registered hm a reply result =>
    have hheld : held (resolvePairing σ a d registered reply result) r = held σ r := by
      unfold resolvePairing
      cases registered <;> cases reply <;> rfl
    have hawaited : awaited (resolvePairing σ a d registered reply result) r = awaited σ r := by
      unfold resolvePairing
      cases registered <;> cases reply <;> rfl
    have hanswered : answersTo (resolvePairing σ a d registered reply result) r =
        answersTo σ r + (Hand.attempt a d registered reply).owes r := by
      unfold resolvePairing
      cases reply with
      | none => cases registered <;> rfl
      | some reply =>
        simp only [answersTo_send, Hand.owes, Option.some.injEq]
        cases registered <;> rfl
    rw [hheld, hawaited, hanswered]
    simp only [Hand.owes]
    omega

theorem Closing.held_le (hc : Closing blake3 B hand σ σ') (h : Regular hand σ)
    (hcalm : Calm blake3 B σ r) (hb : ∀ a accepted, hand ≠ .decision a accepted r) :
    held σ' r ≤ held σ r := by
  cases hc with
  | respawned =>
    exact (held_spawn h.orderly.sound.nextTask_not_mem (.incoming .connecting) rfl rfl).le
  | @delivered _ τ a record accepted ha _ _ he hl reply =>
    have hτ : Attempted τ :=
      (h.attempted.setPending ha { record with resolving := some accepted } rfl).evolves he
    have hheld : held τ r = held σ r := hcalm (σ.setPending a _) τ rfl he
    have hne : reply ≠ r := by
      rintro rfl
      exact hb a accepted rfl
    rw [held_deliver hτ hl, if_neg hne, hheld]
    exact Nat.le_refl _
  | @abandoned _ τ a record accepted ha _ he =>
    have hheld : held τ r = held σ r := hcalm (σ.setPending a _) τ rfl he
    exact hheld.le
  | @resolved _ _ registered _ _ reply _ =>
    unfold resolvePairing
    cases registered <;> cases reply <;> exact Nat.le_refl _
  | none | request | answered | waits | refused => exact Nat.le_refl _

end Rift.Daemon
