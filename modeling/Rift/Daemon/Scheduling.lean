import Rift.Daemon.Backoff
import Rift.Lib.Map

/-! # The reconnect scheduler

`deadline` tells the supervisor when to wake up, and `takeDue` which peer to dial then. They find out
for themselves what is due, and agree on it.

The main results are `takeDue_isSome_iff`, `drain_order` and `reconnect_scheduler_is_exact`. -/

namespace Rift.Daemon

open Rift.Lib Rift.Core Rift.Ipc Std

/-! ### Histories of calls -/

/-- The calls that are made on the scheduler and on the peers that it manages. -/
inductive SchedulerCall
  | insert (id : DeviceId)
  | remove (id : DeviceId)
  | takeDue
  | peer (id : DeviceId) (call : PeerCall)
  deriving DecidableEq

/-- The scheduler after a call. -/
def SchedulerCall.apply (scheduler : Scheduler) (now : ℕ) : SchedulerCall → Scheduler
  | .insert id => (scheduler.insert id now).getD scheduler
  | .remove id => { scheduler with peers := scheduler.peers.erase id }
  | .takeDue => ((scheduler.takeDue now).map Prod.snd).getD scheduler
  | .peer id call => { scheduler with peers := scheduler.peers.modify id (call.apply · now) }

namespace Scheduler

/-- The scheduler after some calls, each with the instant at which it is made. -/
def run (scheduler : Scheduler) (history : List (ℕ × SchedulerCall)) : Scheduler :=
  history.foldl (fun scheduler call => call.2.apply scheduler call.1) scheduler

theorem run_keep {P : Scheduler → Prop} (h : ∀ s now call, P s → P (SchedulerCall.apply s now call)) :
    ∀ (history : List (ℕ × SchedulerCall)) {s : Scheduler}, P s → P (s.run history)
  | [], _, hs => hs
  | (now, call) :: history, s, hs => run_keep h history (h s now call hs)

theorem run_append (s : Scheduler) (h h' : List (ℕ × SchedulerCall)) :
    s.run (h ++ h') = (s.run h).run h' :=
  List.foldl_append

/-! ### Deadlines -/

theorem mem_dues {s : Scheduler} {due : ℕ} :
    due ∈ s.peers.values.filterMap Peer.due ↔ ∃ id, s.Armed (id, due) := by
  simp only [Armed, List.mem_filterMap, Map.mem_values]
  constructor
  · rintro ⟨peer, ⟨id, hp⟩, hd⟩
    exact ⟨id, peer, hp, hd⟩
  · rintro ⟨id, peer, hp, hd⟩
    exact ⟨peer, ⟨id, hp⟩, hd⟩

theorem deadline_eq_some_iff {s : Scheduler} {t : ℕ} :
    s.deadline = some t ↔
      ∃ due, (∃ id, s.Armed (id, due)) ∧ (∀ entry, s.Armed entry → due ≤ entry.2) ∧
        t = max due s.nextStart := by
  unfold deadline
  simp only [Option.map_eq_some_iff, List.min?_eq_some_iff, mem_dues]
  constructor
  · rintro ⟨due, ⟨hmem, hle⟩, rfl⟩
    exact ⟨due, hmem, fun entry he => hle entry.2 ⟨entry.1, he⟩, rfl⟩
  · rintro ⟨due, hmem, hle, rfl⟩
    refine ⟨due, ⟨hmem, ?_⟩, rfl⟩
    rintro d ⟨id, hd⟩
    exact hle (id, d) hd

theorem deadline_eq_none_iff {s : Scheduler} : s.deadline = none ↔ ∀ entry, ¬s.Armed entry := by
  simp only [deadline, Option.map_eq_none_iff, List.min?_eq_none_iff, List.eq_nil_iff_forall_not_mem,
    mem_dues, not_exists, Prod.forall]
  exact forall_comm

/-- **A peer is taken exactly from the deadline on.** -/
theorem takeDue_isSome_iff {s : Scheduler} {now : ℕ} :
    (s.takeDue now).isSome ↔ ∃ t, s.deadline = some t ∧ t ≤ now := by
  constructor
  · intro h
    obtain ⟨⟨id, s'⟩, h⟩ := Option.isSome_iff_exists.mp h
    obtain ⟨hstart, ⟨due, hdue, harmed, hleast⟩, -⟩ := takeDue_eq_some_iff.mp h
    refine ⟨max due s.nextStart, deadline_eq_some_iff.mpr ⟨due, ⟨id, harmed⟩, ?_, rfl⟩, by omega⟩
    intro entry he
    rcases hleast entry he with rfl | hs
    · exact Nat.le_refl due
    · rcases hs with hs | ⟨hs, -⟩
      · exact Nat.le_of_lt hs
      · exact Nat.le_of_eq hs
  · rintro ⟨t, ht, hnow⟩
    obtain ⟨due, ⟨id, harmed⟩, -, rfl⟩ := deadline_eq_some_iff.mp ht
    have hmem := (s.mem_due now (id, due)).mpr ⟨harmed, show due ≤ now by omega⟩
    unfold takeDue
    rw [if_neg (by omega)]
    simp only at hmem ⊢
    split
    · next heq => rw [heq] at hmem; cases hmem
    · rfl

/-! ### Spacing -/

theorem insert_nextStart (s : Scheduler) (id : DeviceId) (now : ℕ) :
    ((s.insert id now).getD s).nextStart = s.nextStart := by
  unfold insert
  split_ifs <;> rfl

theorem apply_nextStart (s : Scheduler) (now : ℕ) (call : SchedulerCall) :
    s.nextStart ≤ (call.apply s now).nextStart ∧
      (call ≠ .takeDue → (call.apply s now).nextStart = s.nextStart) := by
  cases call with
  | insert id =>
    have h := insert_nextStart s id now
    exact ⟨Nat.le_of_eq h.symm, fun _ => h⟩
  | remove id => exact ⟨Nat.le_refl _, fun _ => rfl⟩
  | peer id call => exact ⟨Nat.le_refl _, fun _ => rfl⟩
  | takeDue =>
    refine ⟨?_, fun h => absurd rfl h⟩
    show s.nextStart ≤ (((s.takeDue now).map Prod.snd).getD s).nextStart
    cases h : s.takeDue now with
    | none => exact Nat.le_refl _
    | some taken =>
      obtain ⟨hstart, -, htaken⟩ := takeDue_eq_some_iff.mp (h : _ = some (taken.1, taken.2))
      simp only [Option.map_some, Option.getD_some, htaken]
      omega

theorem run_nextStart_le (history : List (ℕ × SchedulerCall)) (s : Scheduler) :
    s.nextStart ≤ (s.run history).nextStart :=
  run_keep (P := fun s' => s.nextStart ≤ s'.nextStart)
    (fun s' now call h => h.trans (apply_nextStart s' now call).1) history (Nat.le_refl _)

/-- **Two peers are taken at some distance.** -/
theorem spacing {s : Scheduler} (mid : List (ℕ × SchedulerCall)) {t₁ t₂ : ℕ}
    (h₁ : (s.takeDue t₁).isSome) (h₂ : ((s.run ((t₁, .takeDue) :: mid)).takeDue t₂).isSome) :
    t₁ + startSpacing ≤ t₂ := by
  obtain ⟨⟨id, s₁⟩, h₁⟩ := Option.isSome_iff_exists.mp h₁
  obtain ⟨⟨id₂, s₂⟩, h₂⟩ := Option.isSome_iff_exists.mp h₂
  obtain ⟨-, -, hs₁⟩ := takeDue_eq_some_iff.mp h₁
  obtain ⟨hstart, -⟩ := takeDue_eq_some_iff.mp h₂
  have hrun : s.run ((t₁, .takeDue) :: mid) = s₁.run mid := by
    show (((s.takeDue t₁).map Prod.snd).getD s).run mid = _
    rw [h₁]
    rfl
  have hle := run_nextStart_le mid s₁
  rw [hrun] at hstart
  rw [hs₁] at hle hstart
  exact hle.trans hstart

/-! ### States -/

/-- An armed peer is in a state that waits for the deadline. -/
def Waits (peer : Peer) : Prop :=
  peer.due.isSome → peer.state = .disconnected ∨ peer.state = .backoff

/-- Every managed peer does. -/
def Waiting (s : Scheduler) : Prop :=
  ∀ (id : DeviceId) (peer : Peer), s.peers[id]? = some peer → Waits peer

theorem Waits.apply {peer : Peer} (h : Waits peer) (now : ℕ) (call : PeerCall) :
    Waits (call.apply peer now) := by
  cases call with
  | connected sessionId => exact (Peer.wellFormed_connected peer sessionId now).due_iff.mp
  | lost sample => exact (Peer.wellFormed_lost peer now sample.toNat).due_iff.mp
  | failed failure sample => exact (Peer.wellFormed_failed peer failure now sample.toNat).due_iff.mp
  | resume =>
    show Waits (peer.resume now)
    unfold Peer.resume
    split_ifs
    · exact fun _ => Or.inl rfl
    · exact h
  | suspend =>
    show Waits peer.suspend
    unfold Peer.suspend
    split_ifs <;> exact nofun
  | dialling => exact nofun

theorem Waiting.modify {s : Scheduler} (h : s.Waiting) (now nextStart : ℕ) (id : DeviceId)
    (call : PeerCall) : Waiting ⟨s.peers.modify id (call.apply · now), nextStart⟩ := by
  intro id' peer hp
  rcases Map.modify_eq_some.mp hp with ⟨rfl, old, hold, rfl⟩ | ⟨-, hp⟩
  · exact (h _ old hold).apply now call
  · exact h id' peer hp

theorem waiting_apply (s : Scheduler) (now : ℕ) (call : SchedulerCall) (h : s.Waiting) :
    (call.apply s now).Waiting := by
  cases call with
  | insert id =>
    show ((s.insert id now).getD s).Waiting
    unfold insert
    split_ifs
    · exact h
    · exact h
    · intro id' peer hp
      rcases Map.insert_eq_some.mp hp with ⟨-, rfl⟩ | ⟨-, hp⟩
      · exact (Peer.wellFormed_new now).due_iff.mp
      · exact h id' peer hp
  | remove id => exact fun id' peer hp => h id' peer (Map.erase_eq_some.mp hp).2
  | peer id call => exact h.modify now s.nextStart id call
  | takeDue =>
    show (((s.takeDue now).map Prod.snd).getD s).Waiting
    cases ht : s.takeDue now with
    | none => exact h
    | some taken =>
      obtain ⟨-, -, htaken⟩ := takeDue_eq_some_iff.mp (ht : _ = some (taken.1, taken.2))
      simp only [Option.map_some, Option.getD_some, htaken]
      exact h.modify now _ taken.1 .dialling

/-! ### Draining -/

theorem exists_armed (s : Scheduler) : ∃ armed : List (DeviceId × ℕ),
    (∀ entry, entry ∈ armed ↔ s.Armed entry) ∧ (armed.map Prod.fst).Nodup := by
  refine ⟨s.peers.toList.filterMap fun p => p.2.due.map fun due => (p.1, due), ?_, ?_⟩
  · rintro ⟨id, due⟩
    have h := s.mem_due due (id, due)
    rwa [List.mem_filter, and_iff_left (decide_eq_true (Nat.le_refl due)),
      and_iff_left (Nat.le_refl due)] at h
  · refine List.pairwise_map.mpr (List.Pairwise.filterMap _ ?_ ExtTreeMap.ordered_keys_toList)
    intro a b hlt a' ha b' hb hids
    obtain ⟨due, -, rfl⟩ := Option.map_eq_some_iff.mp ha
    obtain ⟨due', -, rfl⟩ := Option.map_eq_some_iff.mp hb
    have hids : a.1 = b.1 := hids
    have hself : compare b.1 b.1 = .eq := ReflCmp.compare_self
    rw [hids, hself] at hlt
    cases hlt

theorem armed_takeDue {s s' : Scheduler} {now : ℕ} {id : DeviceId}
    (h : s.takeDue now = some (id, s')) :
    ∃ due, s.Armed (id, due) ∧ (∀ entry, s'.Armed entry ↔ s.Armed entry ∧ entry.1 ≠ id) ∧
      ∀ entry, s.Armed entry → entry = (id, due) ∨ Sooner (id, due) entry := by
  obtain ⟨-, ⟨due, -, harmed, hleast⟩, rfl⟩ := takeDue_eq_some_iff.mp h
  refine ⟨due, harmed, fun entry => ⟨?_, ?_⟩, hleast⟩
  · rintro ⟨peer, hp, hd⟩
    rcases Map.modify_eq_some.mp hp with ⟨-, old, -, rfl⟩ | ⟨hne, hp⟩
    · cases hd
    · exact ⟨⟨peer, hp, hd⟩, hne.symm⟩
  · rintro ⟨⟨peer, hp, hd⟩, hne⟩
    exact ⟨peer, Map.modify_eq_some.mpr (Or.inr ⟨hne.symm, hp⟩), hd⟩

/-- Takes a peer at the deadline, once for each of the rounds; a round is what is called before the
next deadline. -/
def drain : List (List (ℕ × SchedulerCall)) → Scheduler → List DeviceId
  | [], _ => []
  | round :: rounds, s =>
    match s.deadline.bind s.takeDue with
    | none => []
    | some (id, s') => id :: drain rounds (s'.run round)

/-- The calls between the deadlines do not arm, move or disarm the deadline of a peer. -/
def Undisturbed : List (List (ℕ × SchedulerCall)) → Scheduler → Prop
  | [], _ => True
  | round :: rounds, s => ∀ id s', s.deadline.bind s.takeDue = some (id, s') →
      (∀ id' : DeviceId,
        (s'.run round).peers[id']?.bind Peer.due = s'.peers[id']?.bind Peer.due) ∧
        Undisturbed rounds (s'.run round)

/-- **Draining** takes the armed peers in their order, as many as there are rounds. -/
theorem drain_order {rounds : List (List (ℕ × SchedulerCall))} {s : Scheduler}
    {order : List (DeviceId × ℕ)} (hmem : ∀ entry, entry ∈ order ↔ s.Armed entry)
    (hids : (order.map Prod.fst).Nodup) (hsorted : order.Pairwise Sooner)
    (h : Undisturbed rounds s) : s.drain rounds = (order.map Prod.fst).take rounds.length := by
  induction rounds generalizing s order with
  | nil => rfl
  | cons round rounds ih =>
    unfold drain
    cases hd : s.deadline with
    | none =>
      have hnil : order = [] := List.eq_nil_iff_forall_not_mem.mpr fun entry he =>
        deadline_eq_none_iff.mp hd entry ((hmem entry).mp he)
      simp [hnil]
    | some t =>
      obtain ⟨⟨id, s'⟩, ht⟩ :=
        Option.isSome_iff_exists.mp (takeDue_isSome_iff.mpr ⟨t, hd, Nat.le_refl t⟩)
      obtain ⟨hround, hrest⟩ := h id s' (by rw [hd]; exact ht)
      obtain ⟨due, harmed, harmed', hleast⟩ := armed_takeDue ht
      obtain _ | ⟨first, order⟩ := order
      · exact absurd ((hmem _).mpr harmed) List.not_mem_nil
      obtain rfl : first = (id, due) := Selection.head_of_least (fun a h => by simp [Sooner] at h)
        Sooner.trans hsorted ((hmem _).mpr harmed) fun b hb => hleast b ((hmem b).mp hb)
      obtain ⟨hfresh, hids⟩ := List.nodup_cons.mp hids
      have hkept (entry : DeviceId × ℕ) : (s'.run round).Armed entry ↔ s'.Armed entry := by
        simp only [Armed, ← Option.bind_eq_some_iff, hround]
      have hmem' (entry : DeviceId × ℕ) : entry ∈ order ↔ (s'.run round).Armed entry := by
        rw [hkept, harmed', ← hmem, List.mem_cons]
        constructor
        · intro he
          exact ⟨Or.inr he, fun hid => hfresh (List.mem_map.mpr ⟨entry, he, hid⟩)⟩
        · rintro ⟨rfl | he, hne⟩
          · exact absurd rfl hne
          · exact he
      simp only [Option.bind_some, ht, List.map_cons, List.length_cons, List.take_succ_cons]
      rw [ih hmem' hids (List.pairwise_cons.mp hsorted).2 hrest]

end Scheduler

/-- **The reconnect scheduler is exact, spaced and fair.** After any calls at any instants:

* a peer is taken exactly from the deadline on, and it is the one with the least deadline and, of
  those, the least identity;
* two peers are taken at least 100 ms apart;
* a peer with a deadline is disconnected or backs off;
* the peers with a deadline have an order in which every one of them occurs once, and taking a peer at
  each deadline takes them in this order, as long as nobody arms a deadline again. -/
theorem reconnect_scheduler_is_exact (start : ℕ) (history : List (ℕ × SchedulerCall)) :
    let s := (Scheduler.new start).run history
    (∀ now, (s.takeDue now).isSome ↔ ∃ t, s.deadline = some t ∧ t ≤ now) ∧
    (∀ now id s', s.takeDue now = some (id, s') →
      ∃ peer due, s.peers[id]? = some peer ∧ peer.due = some due ∧ due ≤ now ∧
        ∀ (id' : DeviceId) (peer' : Peer) (due' : ℕ), s.peers[id']? = some peer' →
          peer'.due = some due' → id' = id ∨ Scheduler.Sooner (id, due) (id', due')) ∧
    (∀ before after t₁ t₂, history = before ++ (t₁, .takeDue) :: after →
      (((Scheduler.new start).run before).takeDue t₁).isSome → (s.takeDue t₂).isSome →
      t₁ + 100 * nanosPerMilli ≤ t₂) ∧
    (∀ (id : DeviceId) (peer : Peer), s.peers[id]? = some peer → peer.due.isSome →
      peer.state = .disconnected ∨ peer.state = .backoff) ∧
    ∃ order : List (DeviceId × ℕ),
      (∀ id due, (id, due) ∈ order ↔ ∃ peer, s.peers[id]? = some peer ∧ peer.due = some due) ∧
      (order.map Prod.fst).Nodup ∧ order.Pairwise Scheduler.Sooner ∧
      ∀ rounds, Scheduler.Undisturbed rounds s →
        s.drain rounds = (order.map Prod.fst).take rounds.length := by
  intro s
  refine ⟨fun now => Scheduler.takeDue_isSome_iff, fun now id s' h => ?_, ?_, ?_, ?_⟩
  · obtain ⟨-, ⟨due, hle, ⟨peer, hp, hd⟩, hleast⟩, -⟩ := Scheduler.takeDue_eq_some_iff.mp h
    refine ⟨peer, due, hp, hd, hle, fun id' peer' due' hp' hd' => ?_⟩
    exact (hleast (id', due') ⟨peer', hp', hd'⟩).imp_left fun heq => congrArg Prod.fst heq
  · rintro before after t₁ t₂ rfl h₁ h₂
    refine Scheduler.spacing after h₁ ?_
    rwa [← Scheduler.run_append]
  · exact Scheduler.run_keep Scheduler.waiting_apply history fun id peer hp => by
      simp [Scheduler.new] at hp
  · obtain ⟨armed, hmem, hids⟩ := s.exists_armed
    obtain ⟨order, hperm, hsorted⟩ := Selection.exists_order Scheduler.Sooner.trans
      Scheduler.sooner_total armed hids.of_map
    have hmem' (entry : DeviceId × ℕ) : entry ∈ order ↔ s.Armed entry :=
      hperm.mem_iff.trans (hmem entry)
    have hids' : (order.map Prod.fst).Nodup := (hperm.map Prod.fst).nodup_iff.mpr hids
    exact ⟨order, fun id due => hmem' (id, due), hids', hsorted, fun rounds hrounds =>
      Scheduler.drain_order hmem' hids' hsorted hrounds⟩

/-- Three peers, of which the one inserted second fails and backs off: it is taken last. -/
theorem three_peers_are_drained :
    let id : UInt8 → DeviceId := DeviceId.repeated
    let s := (Scheduler.new 0).run [(0, .insert (id 3)), (0, .insert (id 1)), (5, .insert (id 2)),
      (6, .peer (id 1) (.failed .network 0))]
    s.drain [[], [], [], []] = [id 3, id 2, id 1] ∧
      ∃ order : List (DeviceId × ℕ), order.map Prod.fst = [id 3, id 2, id 1] ∧
        order.Pairwise Scheduler.Sooner ∧
        ∀ id due, (id, due) ∈ order ↔ ∃ peer, s.peers[id]? = some peer ∧ peer.due = some due := by
  intro id s
  have hdrain : s.drain [[], [], [], []] = [id 3, id 2, id 1] := by decide +kernel
  have hrounds (n : ℕ) (s : Scheduler) : Scheduler.Undisturbed (List.replicate n []) s := by
    induction n generalizing s with
    | zero => exact trivial
    | succ n ih => exact fun _ s' _ => ⟨fun _ => rfl, ih s'⟩
  obtain ⟨-, -, -, -, order, hmem, -, hsorted, hall⟩ := reconnect_scheduler_is_exact 0
    [(0, .insert (id 3)), (0, .insert (id 1)), (5, .insert (id 2)),
      (6, .peer (id 1) (.failed .network 0))]
  have htake : (order.map Prod.fst).take 4 = [id 3, id 2, id 1] :=
    (hall [[], [], [], []] (hrounds 4 s)).symm.trans hdrain
  have hlen : (order.map Prod.fst).length ≤ 4 := by
    have := congrArg List.length htake
    rw [List.length_take] at this
    simp only [List.length_cons, List.length_nil] at this
    omega
  exact ⟨hdrain, order, List.take_of_length_le hlen ▸ htake, hsorted, hmem⟩

end Rift.Daemon
