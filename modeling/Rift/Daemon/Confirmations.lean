import Rift.Daemon.DialReplies
import Rift.Daemon.PairingEvents

/-! # Every pairing is resolved once, and every decision answered

The decision about a pairing goes to the task of the pairing, which takes it from its channel, carries
it out and gives back the caller that is to be answered. The task can end before that: it expires, or
loses its connection. A decision that is in its channel then is lost with its caller, and one that
comes before the task is joined makes the pairing leave the registry unreported. Where neither
happens, every pairing that was announced is resolved exactly once, and every decision answered.

The main results are `pairings_are_resolved_once`, for runs that are `Careful`, and
`late_decision_is_lost`. -/

namespace Rift.Daemon

open Rift.Lib Rift.Lib.Interference Rift.Core Rift.Ipc Rift.Session Std
open Rift.Trust hiding Event

variable {blake3 : Blake3} {B : Bounds} {hand : Hand} {σ σ' : Daemon}
  {r : ReplyId} {n : ℕ}

/-! ### Decisions in a channel -/

namespace Decided

variable {id : ℕ}

/-- Every pairing task that waits was there before, with the decision in its channel if it has it. -/
theorem mono (h : Decided σ' id)
    (ht : ∀ a pending commands, σ'.tasks[id]? = some (.pairing a pending commands .waiting) →
      (∀ c ∈ commands, c = .cancel) ∨
        ∃ commands', σ.tasks[id]? = some (.pairing a pending commands' .waiting) ∧
          ∀ c ∈ commands, c ≠ .cancel → c ∈ commands') : Decided σ id := by
  obtain ⟨a, pending, commands, accepted, reply, hid, hmem⟩ := h
  rcases ht a pending commands hid with hcancel | ⟨commands', hid', hcommands⟩
  · cases hcancel _ hmem
  · exact ⟨a, pending, commands', accepted, reply, hid', hcommands _ hmem nofun⟩

theorem congr (h : Decided σ' id) (ht : σ'.tasks = σ.tasks) : Decided σ id := by
  unfold Decided at h
  rw [ht] at h
  exact h

theorem spawned (h : Decided σ' id) (task : Task)
    (hnew : ∀ a pending commands, task = .pairing a pending commands .waiting → commands = [])
    (ht : σ'.tasks = σ.tasks.insert σ.nextTask task) : Decided σ id := by
  refine h.mono fun a pending commands hid => ?_
  rw [ht] at hid
  rcases Map.insert_eq_some.mp hid with ⟨-, rfl⟩ | ⟨-, hid⟩
  · rw [hnew a pending commands rfl]
    exact Or.inl nofun
  · exact Or.inr ⟨commands, hid, fun c hc _ => hc⟩

theorem erased (h : Decided σ' id) {joined : ℕ} (ht : σ'.tasks = σ.tasks.erase joined) :
    Decided σ id := by
  refine h.mono fun a pending commands hid => ?_
  rw [ht] at hid
  exact Or.inr ⟨commands, (Map.erase_eq_some.mp hid).2, fun c hc _ => hc⟩

theorem acted {s : TaskStep} (ha : Acted blake3 σ s σ') (h : Decided σ' id) : Decided σ id := by
  cases ha with
  | @task id' event task task' _ ht hs =>
    refine h.mono fun a pending commands hid => ?_
    rcases Map.insert_eq_some.mp hid with ⟨-, heq⟩ | ⟨-, hid⟩
    · subst heq
      cases hs with
      | pairing hs => cases hs
    · exact Or.inr ⟨commands, hid, fun c hc _ => hc⟩
  | outside => exact h

theorem evolves {P : TaskStep → Prop} (he : Evolves (taskStep blake3) P σ σ') (h : Decided σ' id) :
    Decided σ id :=
  he.stable (I := fun τ => Decided τ id → Decided σ id)
    (fun τ s _ hτ h => hτ (h.acted (taskStep_spec τ s))) (fun h => h) h

theorem cancelled (h : Decided σ' id) (attempts : List PairingAttemptId)
    (ht : σ'.tasks = σ.tasks.map fun _ task => task.receive attempts .cancel) : Decided σ id := by
  refine h.mono fun a pending commands hid => ?_
  rw [ht] at hid
  obtain ⟨task, hbefore, heq⟩ := Map.map_eq_some.mp hid
  cases task with
  | pairing a' pending' commands' phase =>
    simp only [Task.receive, Task.pairing.injEq] at heq
    obtain ⟨rfl, rfl, rfl, rfl⟩ := heq
    refine Or.inr ⟨commands', hbefore, fun c hc hne => ?_⟩
    split_ifs at hc
    · rcases List.mem_append.mp hc with hc | hc
      · exact hc
      · exact absurd (List.mem_singleton.mp hc) hne
    · exact hc
  | incoming | outbound | session | ipcClient => cases heq

end Decided

/-- **Nothing but a closing hands over a decision.** -/
theorem Move.decided (hm : Move blake3 B hand σ σ') {id : ℕ} (h : Decided σ' id) : Decided σ id := by
  cases hm with
  | act => exact h.acted (taskStep_spec σ _)
  | manage hi =>
    obtain ⟨-, peers, rfl⟩ := mem_of_insertPeer hi
    exact h
  | dial => exact h.spawned (.outbound ..) nofun rfl
  | pend => exact h.spawned (.pairing ..) (fun _ _ _ heq => by cases heq; rfl) rfl
  | @openSession _ _ existing connection =>
    obtain ⟨htasks, hnext, -, -⟩ := @retireExisting_ledger σ existing
    refine h.spawned (.session (retireExisting σ existing).nextSessionId connection none) nofun ?_
    rw [← htasks, ← hnext]
    rfl
  | hint | close | drop | resume | resolved | fail | coalesce | commitFails => exact h

theorem Opening.decided {s : Step} (ho : Opening σ s hand σ') {id : ℕ} (h : Decided σ' id) :
    Decided σ id := by
  cases ho with
  | accepted => exact h.spawned (.ipcClient false) nofun rfl
  | workerJoined | clientJoined | staleJoined | cancelledJoined | dialJoined | pairingJoined
  | sessionJoined => exact h.erased rfl
  | idle | command | due => exact h

theorem Answering.decided (ha : Answering blake3 B σ σ') {id : ℕ} (h : Decided σ' id) :
    Decided σ id := by
  cases ha with
  | yield | disconnect => exact h
  | @invalidate τ m io _ _ he =>
    have hτ : Decided τ id := h.cancelled _ rfl
    have hσ : Decided (σ.setStore (commit blake3 σ.shared.store m none io).2) id := hτ.evolves he
    exact hσ

/-! ### Runs -/

/-- No pairing task expires or loses its connection with the decision in its channel, and none that a
decision is for has ended. -/
structure Careful (blake3 : Blake3) (σ : Daemon) (s : Step) : Prop where
  tasks : ∀ id, .task id .expired ∈ s.taskSteps ∨ .task id .lost ∈ s.taskSteps → ¬ Decided σ id
  decision : ∀ a accepted reply io script,
    s = .command (.request (.confirmPairing a accepted) reply io) script →
    ¬ Abandons blake3 ⟨σ, script⟩ a accepted

/-- The bounds within which no decision is lost. -/
def careful (σ : Daemon) : Bounds :=
  { unbounded with
    acts := fun act => ∀ id, act = .task id .expired ∨ act = .task id .lost → ¬ Decided σ id
    abandons := fun _ => False }

theorem Careful.within {s : Step} (h : Careful blake3 σ s) : Within blake3 (careful σ) σ s where
  acts act hact id hevent := by
    refine h.tasks id (hevent.imp ?_ ?_) <;>
    · rintro rfl
      exact hact
  timer _ _ := ⟨fun _ _ _ _ => trivial, fun _ _ _ hu => absurd trivial hu⟩
  command command script hs := by
    refine ⟨fun _ _ _ => Or.inr trivial, fun _ _ _ hu => absurd trivial hu,
      fun a accepted reply hhand => ?_, fun _ _ => trivial⟩
    unfold Command.hand at hhand
    split at hhand <;> cases hhand
    exact h.decision _ _ _ _ script hs
  join id script hs := by
    subst hs
    refine ⟨fun point hpoint act hact id hevent => ?_, fun _ _ _ _ _ => trivial,
      fun _ _ _ _ _ _ _ _ => trivial, fun _ _ _ _ => trivial, fun _ _ _ _ => Or.inr trivial⟩
    refine h.tasks id (hevent.imp ?_ ?_) <;>
    · rintro rfl
      exact List.mem_flatten.mpr ⟨point, hpoint, hact⟩

theorem calm_of_decided {τ : Daemon} (hq : Queued τ) (hd : ∀ id, Decided τ id → Decided σ id) :
    Calm blake3 (careful σ) τ r := by
  intro υ υ' htasks he
  have hυ : Queued υ ∧ (∀ id, Decided υ id → Decided σ id) ∧ held υ r = held τ r := by
    unfold Queued held
    rw [htasks]
    exact ⟨hq, fun id h => hd id (h.congr htasks), rfl⟩
  refine (he.stable (I := fun υ => Queued υ ∧ (∀ id, Decided υ id → Decided σ id) ∧
    held υ r = held τ r) (fun υ s hs h => ?_) hυ).2.2
  have ha : Acted blake3 υ s (taskStep blake3 υ s) := taskStep_spec υ s
  exact ⟨h.1.acted ha, fun id hid => h.2.1 id (hid.acted ha),
    (held_eq_of_acted ha h.1 fun id hevent hid => hs id hevent (h.2.1 id hid)).trans h.2.2⟩

/-- The caller is not one of a dial. -/
structure Apart (r : ReplyId) (hand : Hand) (σ : Daemon) : Prop where
  awaited : awaited σ r = 0
  hand : ∀ d pairing waiting, hand = .dial d pairing waiting → callers r waiting = 0

theorem Opening.apart {s : Step} (ho : Opening σ s hand σ')
    (hs : ∀ command script, s = .command command script →
      ∀ d pairing waiting, command.hand = .dial d pairing waiting → callers r waiting = 0)
    (h : Apart r .none σ) : Apart r hand σ' := by
  have hall := h.awaited
  cases ho with
  | command command script => exact ⟨h.awaited, hs command script rfl⟩
  | @cancelledJoined id _ d _ _ record _ hr =>
    have hparts : awaited σ r = record.owes r + _ := Map.total_of_eq_some hr
    exact ⟨Nat.eq_zero_of_le_zero ((Nat.le_add_left _ _).trans (hparts ▸ hall).le), nofun⟩
  | @dialJoined id _ d _ _ record _ hr =>
    have hparts : awaited σ r = record.owes r + _ := Map.total_of_eq_some hr
    rw [hall] at hparts
    refine ⟨Nat.eq_zero_of_le_zero ((Nat.le_add_left _ _).trans hparts.ge), ?_⟩
    rintro _ _ _ ⟨⟩
    exact Nat.eq_zero_of_le_zero ((Nat.le_add_right _ _).trans hparts.ge)
  | due =>
    refine ⟨h.awaited, ?_⟩
    rintro _ _ _ ⟨⟩
    rfl
  | idle | accepted | workerJoined | clientJoined | staleJoined | pairingJoined | sessionJoined =>
    exact ⟨h.awaited, nofun⟩

theorem Answering.apart (ha : Answering blake3 B σ σ') (h : Apart r hand σ) : Apart r hand σ' := by
  have hcancelled {τ : Daemon} (d : DeviceId) (hτ : Map.total (OutboundRecord.owes r) τ.outbound = 0) :
      Map.total (OutboundRecord.owes r) (τ.outbound.modify d fun record =>
        { record with cancelled := true, replies := [] }) = 0 := by
    refine Map.total_eq_zero fun d' record hr => ?_
    rcases Map.modify_eq_some.mp hr with ⟨-, _, -, rfl⟩ | ⟨-, hr⟩
    · rfl
    · rw [Map.total_of_eq_some hr] at hτ
      omega
  refine ⟨?_, h.hand⟩
  cases ha with
  | yield => exact hcancelled _ h.awaited
  | disconnect => exact hcancelled (τ := σ) _ h.awaited
  | @invalidate τ _ _ _ _ he =>
    refine hcancelled (τ := τ) _ ?_
    rw [(evolves_spec he).outbound]
    exact h.awaited

theorem Closing.apart (hc : Closing blake3 B hand σ σ') (h : Apart r hand σ) : Apart r .none σ' := by
  refine ⟨?_, nofun⟩
  have hall := h.awaited
  cases hc with
  | @waits _ d record waiting hr =>
    have hmore : awaited (σ.addWaiter d waiting) r = _ := Map.total_modify hr
    have hparts : awaited σ r = record.owes r + _ := Map.total_of_eq_some hr
    rw [hmore, OutboundRecord.owes, callers_append, h.hand d _ waiting rfl]
    exact hparts.symm.trans hall
  | delivered _ _ _ he =>
    have houtbound := (evolves_spec he).outbound
    exact (congrArg (Map.total (OutboundRecord.owes r)) houtbound).trans hall
  | abandoned _ _ he =>
    have houtbound := (evolves_spec he).outbound
    exact (congrArg (Map.total (OutboundRecord.owes r)) houtbound).trans hall
  | @resolved _ _ registered _ _ reply _ =>
    unfold resolvePairing
    cases registered <;> cases reply <;> exact hall
  | none | respawned | request | answered | refused => exact hall

/-- The caller of a decision, which occurs so often. -/
structure Entrusted (r : ReplyId) (n : ℕ) (hand : Hand) (σ : Daemon) : Prop where
  regular : Regular hand σ
  apart : Apart r hand σ
  count : tally hand σ r = n

/-- **What a careful step does to the caller of a decision.** -/
theorem Entrusted.step {s : Step} (h : Entrusted r n .none σ) (hc : Careful blake3 σ s)
    (hs : ∀ command script, s = .command command script →
      ∀ d pairing waiting, command.hand = .dial d pairing waiting → callers r waiting = 0) :
    Entrusted r (n + s.brings r) .none (step blake3 σ s) := by
  have hh := step_handled h.regular.orderly.sound hc.within
  -- Until the closing, every decision that is in a channel was there before the step.
  have hcalm {hand : Hand} {τ : Daemon} (hreg : Regular hand τ)
      (hd : ∀ id, Decided τ id → Decided σ id) : Calm blake3 (careful σ) τ r :=
    calm_of_decided hreg.attempted.queued hd
  refine hh.stages (P := fun τ => Entrusted r n .none τ ∧ ∀ id, Decided τ id → Decided σ id)
    (Q := fun hand τ => Entrusted r (n + s.brings r) hand τ ∧ ∀ id, Decided τ id → Decided σ id)
    (A := fun hand τ => Entrusted r (n + s.brings r) hand τ ∧ ∀ id, Decided τ id → Decided σ id)
    (R := Entrusted r (n + s.brings r) .none) (fun hm h => ?_) (fun ho h => ?_) (fun hm h => ?_)
    (fun h => h) (fun ha h => ?_) (fun hc h => ?_) ⟨h, fun _ h => h⟩
  · obtain ⟨⟨hreg, hapart, hcount⟩, hd⟩ := h
    exact ⟨⟨hm.regular hreg, ⟨hm.awaited_eq.trans hapart.awaited, hapart.hand⟩,
      (hm.tally hreg.orderly.sound (hcalm hreg hd)).trans hcount⟩, fun id hid => hd id (hm.decided hid)⟩
  · obtain ⟨⟨hreg, hapart, hcount⟩, hd⟩ := h
    exact ⟨⟨ho.regular hreg, ho.apart hs hapart, (ho.tally hreg).trans (congrArg (· + _) hcount)⟩,
      fun id hid => hd id (ho.decided hid)⟩
  · obtain ⟨⟨hreg, hapart, hcount⟩, hd⟩ := h
    exact ⟨⟨hm.regular hreg, ⟨hm.awaited_eq.trans hapart.awaited, hapart.hand⟩,
      (hm.tally hreg.orderly.sound (hcalm hreg hd)).trans hcount⟩, fun id hid => hd id (hm.decided hid)⟩
  · obtain ⟨⟨hreg, hapart, hcount⟩, hd⟩ := h
    exact ⟨⟨ha.regular hreg, ha.apart hapart, (ha.tally (hcalm hreg hd)).trans hcount⟩,
      fun id hid => hd id (ha.decided hid)⟩
  · obtain ⟨⟨hreg, hapart, hcount⟩, hd⟩ := h
    exact ⟨hc.regular hreg, hc.apart hapart,
      (hc.tally hreg (hcalm hreg hd) fun _ _ _ => id).trans hcount⟩

theorem Entrusted.run {steps : List Step} (h : Entrusted r n .none σ)
    (hm : Meets blake3 (Careful blake3) σ steps)
    (hs : ∀ s ∈ steps, ∀ command script, s = .command command script →
      ∀ d pairing waiting, command.hand = .dial d pairing waiting → callers r waiting = 0) :
    Entrusted r (n + (steps.map (Step.brings r)).sum) .none (run blake3 σ steps) := by
  induction steps generalizing σ n with
  | nil => exact h
  | cons s steps ih =>
    have hnext := h.step hm.1 (hs s List.mem_cons_self)
    have hlast := ih hnext hm.2 fun s hmem => hs s (List.mem_cons_of_mem _ hmem)
    rw [List.map_cons, List.sum_cons, ← Nat.add_assoc]
    exact hlast

theorem Beginning.entrusted {localId : DeviceId} {now : ℕ} (h : Beginning localId now σ)
    (r : ReplyId) : Entrusted r 0 .none σ := by
  obtain ⟨hreg, -, hcount⟩ := h.served (.ipc r) localId false
  refine ⟨hreg, ⟨?_, nofun⟩, hcount⟩
  unfold awaited
  rw [h.outbound, Map.total_empty]

theorem Beginning.chronicled {localId : DeviceId} {now : ℕ} (h : Beginning localId now σ) :
    Chronicled .none σ := by
  refine ⟨_, rfl, ?_⟩
  rw [h.events, h.pairings]
  exact .nil _

/-- The decision of the caller is with the task of a pairing. -/
def WithTask (σ : Daemon) (r : ReplyId) : Prop :=
  ∃ (id : ℕ), ∃ a pending commands phase, σ.tasks[id]? = some (.pairing a pending commands phase) ∧
    ((∃ accepted, .confirm accepted r ∈ commands) ∨ phase.reply = some r)

theorem Task.owes_pairing {a : PairingAttemptId} {pending : Pending}
    {commands : List PairingCommand} {phase : PairingTaskPhase} :
    (Task.pairing a pending commands phase).owes r ≠ 0 ↔
      (∃ accepted, .confirm accepted r ∈ commands) ∨ phase.reply = some r := by
  have hcarries : commands.countP (·.carries r) ≠ 0 ↔ ∃ accepted, .confirm accepted r ∈ commands := by
    rw [Nat.ne_zero_iff_zero_lt, List.countP_pos_iff]
    constructor
    · rintro ⟨c, hmem, hc⟩
      cases c with
      | cancel => cases hc
      | confirm accepted reply =>
        obtain rfl : reply = r := of_decide_eq_true hc
        exact ⟨accepted, hmem⟩
    · rintro ⟨accepted, hmem⟩
      exact ⟨_, hmem, decide_eq_true rfl⟩
  rw [← hcarries, Task.owes]
  by_cases hreply : phase.reply = some r <;> simp [hreply]

theorem withTask_iff : WithTask σ r ↔ held σ r ≠ 0 := by
  constructor
  · rintro ⟨id, a, pending, commands, phase, ht, howes⟩ hnone
    have hparts : held σ r = _ := Map.total_of_eq_some ht
    have hpositive : (Task.pairing a pending commands phase).owes r ≠ 0 :=
      Task.owes_pairing.mpr howes
    omega
  · intro h
    obtain ⟨id, task, ht, howes⟩ : ∃ (id : ℕ) (task : Task), σ.tasks[id]? = some task ∧
        task.owes r ≠ 0 := by
      by_contra hnone
      push Not at hnone
      exact h (Map.total_eq_zero hnone)
    cases task with
    | pairing a pending commands phase =>
      exact ⟨id, a, pending, commands, phase, ht, Task.owes_pairing.mp howes⟩
    | incoming | outbound | session | ipcClient => exact absurd rfl howes

/-- **Pairing attempts are resolved exactly once, and decisions answered**, in a careful run. Every
pairing that was announced is registered and unresolved, or was resolved exactly once. The caller of
every decision, if no other request has its reply channel, was answered once, or its decision is with
a task that has not been joined. Once the daemon has stopped every pairing is resolved, and every
decision that was not with a task then is answered. -/
theorem pairings_are_resolved_once {σ₀ : Daemon} (hbegin : Begins blake3 σ₀) {steps : List Step}
    (hmeets : Meets blake3 (Careful blake3) σ₀ steps) :
    let σ := run blake3 σ₀ steps
    (∀ a, Announced σ.events a → a ∈ σ.pendingPairings ∧ resolutions σ.events a = 0 ∨
      a ∉ σ.pendingPairings ∧ resolutions σ.events a = 1) ∧
    (∀ before after a accepted r io script,
      steps = before ++ .command (.request (.confirmPairing a accepted) r io) script :: after →
      (∀ s ∈ before ++ after, s.brings r = 0) →
      (answersTo σ r = 1 ∧ ¬ WithTask σ r ∨ answersTo σ r = 0 ∧ WithTask σ r) ∧
      ∀ finish, ¬ WithTask σ r → answersTo (stop blake3 σ finish) r = 1) ∧
    ∀ finish a, Announced (stop blake3 σ finish).events a →
      resolutions (stop blake3 σ finish).events a = 1 := by
  intro σ
  obtain ⟨localId, now, hfirst⟩ := hbegin.beginning
  obtain ⟨-, -, hchronicled⟩ : Sound σ ∧ Regular .none σ ∧ Chronicled .none σ :=
    hmeets.keep (P := fun σ => Regular .none σ ∧ Chronicled .none σ) (fun τ s hs hc h => by
      have hh := step_handled hs hc.within
      exact ⟨hh.regular h.1, hh.chronicled (fun _ => id) h.1 h.2⟩) hfirst.sound
      ⟨hfirst.regular, hfirst.chronicled⟩
  refine ⟨fun a ha => hchronicled.resolved_once ha, ?_, fun finish a ha => ?_⟩
  · intro before after a accepted r io script hsteps hown
    have hbrought : Step.brings r (.command (.request (.confirmPairing a accepted) r io) script) =
        1 := by
      simp [Step.brings, Command.hand, Hand.owes]
    have hentrusted : Entrusted r 1 .none σ := by
      have hrun := (hfirst.entrusted r).run hmeets ?_
      · rw [hsteps, sum_brings hbrought hown, ← hsteps] at hrun
        exact hrun
      · intro s hs command script' heq d pairing waiting hhand
        rw [hsteps] at hs
        rcases List.mem_append.mp hs with hs | hs
        · have hnone := hown s (List.mem_append_left _ hs)
          rw [heq] at hnone
          simpa [Step.brings, hhand, Hand.owes] using hnone
        rcases List.mem_cons.mp hs with rfl | hs
        · cases heq
          cases hhand
        · have hnone := hown s (List.mem_append_right _ hs)
          rw [heq] at hnone
          simpa [Step.brings, hhand, Hand.owes] using hnone
    have hcount : answersTo σ r + held σ r = 1 := by
      have htally := hentrusted.count
      unfold tally at htally
      rw [hentrusted.apart.awaited] at htally
      exact htally
    refine ⟨?_, fun finish hnot => ?_⟩
    · by_cases hwith : WithTask σ r
      · have hheld := withTask_iff.mp hwith
        exact Or.inr ⟨by omega, hwith⟩
      · have hheld := not_not.mp (withTask_iff.not.mp hwith)
        exact Or.inl ⟨by omega, hwith⟩
    · have hheld := not_not.mp (withTask_iff.not.mp hnot)
      rw [answersTo_stop, hentrusted.apart.awaited]
      omega
  · obtain ⟨hstopped, hempty⟩ := hchronicled.stop blake3 finish
    rcases hstopped.resolved_once ha with ⟨hmem, -⟩ | ⟨-, honce⟩
    · rw [hempty] at hmem
      simp at hmem
    · exact honce

theorem announced_of_any {events : List Ipc.Event} {a : PairingAttemptId}
    (h : (events.any fun
      | .pairingPending info => info.attemptId = a
      | _ => false) = true) : Announced events a := by
  obtain ⟨event, hmem, hevent⟩ := List.any_eq_true.mp h
  cases event with
  | pairingPending info => exact ⟨info, hmem, of_decide_eq_true hevent⟩
  | _ => cases hevent

theorem not_withTask_of_all (h : (σ.tasks.toList.all fun entry => entry.2.owes r = 0) = true) :
    ¬ WithTask σ r := by
  rw [withTask_iff, not_not]
  refine Map.total_eq_zero fun id task ht => ?_
  have hall := List.all_eq_true.mp h (id, task)
  rw [ExtTreeMap.mem_toList_iff_getElem?_eq_some] at hall
  exact of_decide_eq_true (hall ht)

theorem careful_task {id : ℕ} {event : TaskEvent} (he : event ≠ .expired) (hl : event ≠ .lost) :
    Careful blake3 σ (.task (.task id event)) := by
  refine ⟨fun id' h => ?_, nofun⟩
  simp [Step.taskSteps, he.symm, hl.symm] at h

theorem careful_join (id : ℕ) : Careful blake3 σ (.join id []) :=
  ⟨fun id' h => by simp [Step.taskSteps] at h, nofun⟩

theorem careful_events (id : ℕ) {events : List TaskEvent}
    (h : ∀ event ∈ events, event ≠ .expired ∧ event ≠ .lost) :
    ∀ s ∈ taskDoes id events, ∀ σ, Careful blake3 σ s := by
  intro s hs σ
  obtain ⟨event, hmem, rfl⟩ := List.mem_map.mp hs
  exact careful_task (h event hmem).1 (h event hmem).2

/-- A pairing that is confirmed on both sides is resolved once, and its decision answered. -/
theorem sample_pairing_is_resolved : ∃ σ₀, Begins sampleBlake3 σ₀ ∧
    let σ := run sampleBlake3 σ₀ (samplePairingRequest 0 ++ sampleConfirmed 1 2)
    resolutions σ.events 1 = 1 ∧ answersTo σ 0 = 1 := by
  let steps : List Step := samplePairingRequest 0 ++ sampleConfirmed 1 2
  let later : List Step := taskDoes 2 [.command, .commit .ok, .completes] ++ [.join 2 []]
  obtain ⟨σ₀, hbegin, hσ⟩ := exists_sampleBegin (.repeated 1) none
    (fun σ => (run sampleBlake3 σ (samplePairingRequest 0)).listens 1 = true ∧
      ((run sampleBlake3 σ steps).events.any fun
        | .pairingPending info => info.attemptId = 1
        | _ => false) ∧ 1 ∉ (run sampleBlake3 σ steps).pendingPairings ∧
      (run sampleBlake3 σ steps).tasks.toList.all fun entry => entry.2.owes 0 = 0) (by decide +kernel)
  obtain ⟨hlistens, hannounced, hnot, htasks⟩ := of_decide_eq_true hσ
  have hrequest : ∀ s ∈ samplePairingRequest 0, ∀ σ, Careful sampleBlake3 σ s :=
    List.forall_mem_append.mpr
      ⟨careful_events 0 (by simp), List.forall_mem_singleton.mpr fun _ => careful_join 0⟩
  have hlater : ∀ s ∈ later, ∀ σ, Careful sampleBlake3 σ s :=
    List.forall_mem_append.mpr
      ⟨careful_events 2 (by simp), List.forall_mem_singleton.mpr fun _ => careful_join 2⟩
  have hdecision : Careful sampleBlake3 (run sampleBlake3 σ₀ (samplePairingRequest 0))
      (.command (.request (.confirmPairing 1 true) 0 .ok) []) := by
    refine ⟨fun id h => by simp [Step.taskSteps] at h, ?_⟩
    rintro _ _ _ _ _ ⟨⟩ ⟨record, -, -, hl⟩
    exact Bool.noConfusion (hlistens.symm.trans hl)
  have hmeets : Meets sampleBlake3 (Careful sampleBlake3) σ₀ steps :=
    (meets_of_forall hrequest).append ⟨hdecision, meets_of_forall hlater⟩
  have hown : ∀ s ∈ samplePairingRequest 0 ++ later, s.brings 0 = 0 := by
    simp [samplePairingRequest, later, taskDoes, Step.brings]
  obtain ⟨hresolved, hanswered, -⟩ := pairings_are_resolved_once hbegin hmeets
  obtain ⟨hreply, -⟩ := hanswered _ _ _ _ _ _ _ rfl hown
  refine ⟨σ₀, hbegin, ?_, ?_⟩
  · exact ((hresolved 1 (announced_of_any hannounced)).resolve_left fun h => hnot h.1).2
  · exact (hreply.resolve_right fun h => not_withTask_of_all htasks h.2).1

/-- **A decision that comes too late.** A pairing expires, and before its task is joined its user
decides. The pairing leaves the registry, nothing reports that it was resolved, and the caller is not
answered: not even once the task is joined. -/
theorem late_decision_is_lost : ∃ σ, Reachable sampleBlake3 σ ∧ Announced σ.events 1 ∧
    1 ∉ σ.pendingPairings ∧ resolutions σ.events 1 = 0 ∧ answersTo σ 7 = 0 ∧ ¬ WithTask σ 7 := by
  let steps : List Step :=
    samplePairingRequest 0 ++ [.task (.elapses (60000 * nanosPerMilli))] ++ taskDoes 2 [.expired] ++
      [.command (.request (.confirmPairing 1 true) 7 .ok) [], .join 2 []]
  obtain ⟨σ, hreach, hσ⟩ := exists_sampleRun (.repeated 1) none steps
    (fun σ => (σ.events.any fun
        | .pairingPending info => info.attemptId = 1
        | _ => false) ∧ 1 ∉ σ.pendingPairings ∧ resolutions σ.events 1 = 0 ∧ answersTo σ 7 = 0 ∧
      σ.tasks.toList.all fun entry => entry.2.owes 7 = 0) (by decide +kernel)
  obtain ⟨hannounced, hnot, hnone, hanswers, htasks⟩ := of_decide_eq_true hσ
  exact ⟨σ, hreach, announced_of_any hannounced, hnot, hnone, hanswers, not_withTask_of_all htasks⟩

end Rift.Daemon
