import Rift.Daemon.Ledger
import Rift.Daemon.Shutdown

/-! # The replies of dials

The callers of a dial wait with its record, which requests to pair and requests to connect share. A
caller is answered once, and with what it asked for, as long as no inbound connection of a device is
registered while a dial that is to pair with it is on record: such a connection ends the dial, and its
callers are told of a session.

The main results are `Served.step`, `outbound_requests_get_one_answer` and
`pairing_answered_with_a_session`. -/

namespace Rift.Daemon

open Rift.Lib Rift.Lib.Interference Rift.Core Rift.Ipc Rift.Session Std
open Rift.Trust hiding Event

variable {blake3 : Blake3} {B : Bounds} {hand : Hand} {σ σ' : Daemon}
  {w : OutboundReply} {d d' : DeviceId} {pairing : Bool} {n : ℕ}

/-! ### Where a caller may be -/

/-- What is in hand holds the caller only as one of a dial to the device with this purpose. -/
def Hand.Places (w : OutboundReply) (d : DeviceId) (pairing : Bool) : Hand → Prop
  | .none => True
  | .incoming => True
  | .dial d' pairs waiting => ∀ w' ∈ waiting, w'.id = w.id → w' = w ∧ d' = d ∧ pairs = pairing
  | .request reply => reply ≠ w.id
  | .decision _ _ reply => reply ≠ w.id
  | .attempt _ _ _ reply => reply ≠ some w.id

/-- The caller waits only for a dial to the device with this purpose. -/
structure Placed (w : OutboundReply) (d : DeviceId) (pairing : Bool) (hand : Hand) (σ : Daemon) :
    Prop where
  records : ∀ (d' : DeviceId) (record : OutboundRecord), σ.outbound[d']? = some record →
    ∀ w' ∈ record.replies, w'.id = w.id → w' = w ∧ d' = d ∧ record.pairing = pairing
  hand : hand.Places w d pairing
  tasks : held σ w.id = 0

theorem Hand.places_of_owes (h : hand.owes w.id = 0) : hand.Places w d pairing := by
  cases hand with
  | none | incoming => trivial
  | dial d' pairs waiting =>
    intro w' hmem hid
    exact absurd hid (by simpa using List.countP_eq_zero.mp h w' hmem)
  | request reply | decision a accepted reply | attempt a d' registered reply =>
    intro heq
    simp [Hand.owes, heq] at h

theorem Placed.mono (h : Placed w d pairing hand σ) {hand' : Hand} (hhand : hand'.Places w d pairing)
    (htasks : held σ' w.id ≤ held σ w.id)
    (hrecords : ∀ (d' : DeviceId) (record' : OutboundRecord), σ'.outbound[d']? = some record' →
      record'.replies = [] ∨ σ.outbound[d']? = some record') :
    Placed w d pairing hand' σ' where
  records d' record' hr w' hmem hid := by
    rcases hrecords d' record' hr with hnil | hr
    · rw [hnil] at hmem
      cases hmem
    · exact h.records d' record' hr w' hmem hid
  hand := hhand
  tasks := Nat.eq_zero_of_le_zero (htasks.trans_eq h.tasks)

theorem Placed.calm (h : Placed w d pairing hand σ) : Calm blake3 B σ w.id := calm_of_held h.tasks

theorem Move.placed (hm : Move blake3 B hand σ σ') (hs : Sound σ)
    (h : Placed w d pairing hand σ) : Placed w d pairing hand σ' := by
  refine h.mono h.hand (hm.held_eq hs h.calm).le fun d' record' hr => ?_
  cases hm with
  | act =>
    rw [(taskStep_spec σ _).evolved.outbound] at hr
    exact Or.inr hr
  | manage hi =>
    obtain ⟨-, peers, rfl⟩ := mem_of_insertPeer hi
    exact Or.inr hr
  | dial =>
    rcases Map.insert_eq_some.mp hr with ⟨-, rfl⟩ | ⟨-, hr⟩
    · exact Or.inl rfl
    · exact Or.inr hr
  | @openSession _ _ existing =>
    have hsame := (@retireExisting_ledger σ existing).2.2.1
    exact Or.inr (hsame ▸ hr)
  | hint | close | drop | resume | resolved | fail | coalesce | pend | commitFails => exact Or.inr hr

theorem Opening.placed {s : Step} (ho : Opening σ s hand σ') (hs : Sound σ)
    (hb : ∀ command script, s = .command command script → command.hand.Places w d pairing)
    (h : Placed w d pairing .none σ) : Placed w d pairing hand σ' := by
  refine h.mono ?_ (ho.held_le hs) fun d' record' hr => ?_
  · cases ho with
    | command command script => exact hb command script rfl
    | dialJoined _ hr => exact h.records _ _ hr
    | @pairingJoined id _ a pending commands result reply ht =>
      have hall : held σ w.id = (Task.pairing a pending commands (.done result reply)).owes w.id +
        Map.total (Task.owes w.id) (σ.tasks.erase id) := Map.total_of_eq_some ht
      have htask : (Task.pairing a pending commands (.done result reply)).owes w.id ≤ 0 := by
        have hnone := h.tasks
        omega
      exact Hand.places_of_owes (Nat.eq_zero_of_le_zero ((Nat.le_add_left _ _).trans htask))
    | due => exact fun w' hmem => absurd hmem (List.not_mem_nil)
    | idle | accepted | workerJoined | clientJoined | staleJoined | cancelledJoined
    | sessionJoined => trivial
  · cases ho with
    | cancelledJoined | dialJoined => exact Or.inr (Map.erase_eq_some.mp hr).2
    | idle | accepted | command | workerJoined | clientJoined | staleJoined | pairingJoined
    | sessionJoined | due => exact Or.inr hr

theorem Answering.placed (ha : Answering blake3 B σ σ') (h : Placed w d pairing hand σ) :
    Placed w d pairing hand σ' := by
  have hcancelled {τ : Daemon} {d₀ d' : DeviceId} {record' : OutboundRecord}
      (hr : (τ.outbound.modify d₀ fun record =>
        { record with cancelled := true, replies := [] })[d']? = some record') :
      record'.replies = [] ∨ τ.outbound[d']? = some record' := by
    rcases Map.modify_eq_some.mp hr with ⟨-, record, -, rfl⟩ | ⟨-, hr⟩
    · exact Or.inl rfl
    · exact Or.inr hr
  refine h.mono h.hand (ha.held_eq h.calm).le fun d' record' hr => ?_
  cases ha with
  | yield => exact hcancelled hr
  | disconnect => exact hcancelled (τ := σ) hr
  | @invalidate τ _ _ _ _ he =>
    rcases hcancelled (τ := τ) hr with hnil | hr
    · exact Or.inl hnil
    · rw [(evolves_spec he).outbound] at hr
      exact Or.inr hr

theorem Closing.placed (hc : Closing blake3 B hand σ σ') (hreg : Regular hand σ)
    (h : Placed w d pairing hand σ) : Placed w d pairing .none σ' := by
  have hheld : held σ' w.id ≤ held σ w.id := by
    refine hc.held_le hreg h.calm fun a accepted heq => ?_
    subst heq
    exact h.hand rfl
  cases hc with
  | @waits _ d₀ record waiting hr =>
    refine ⟨fun d' record' hr' w' hmem hid => ?_, trivial,
      Nat.eq_zero_of_le_zero (hheld.trans_eq h.tasks)⟩
    rcases Map.modify_eq_some.mp hr' with ⟨rfl, record₀, hr₀, rfl⟩ | ⟨-, hr'⟩
    · cases hr.symm.trans hr₀
      rcases List.mem_append.mp hmem with hmem | hmem
      · exact h.records d₀ record hr w' hmem hid
      · exact h.hand w' hmem hid
    · exact h.records d' record' hr' w' hmem hid
  | delivered _ _ _ he =>
    refine h.mono trivial hheld fun d' record' hr => Or.inr ?_
    exact (congrArg (fun m : ExtTreeMap DeviceId OutboundRecord => m[d']?)
      (evolves_spec he).outbound).symm.trans hr
  | abandoned _ _ he =>
    refine h.mono trivial hheld fun d' record' hr => Or.inr ?_
    exact (congrArg (fun m : ExtTreeMap DeviceId OutboundRecord => m[d']?)
      (evolves_spec he).outbound).symm.trans hr
  | @resolved _ _ registered _ _ reply _ =>
    refine h.mono trivial hheld fun d' record' hr => Or.inr ?_
    unfold resolvePairing at hr
    cases registered <;> cases reply <;> exact hr
  | none | respawned | request | answered | refused =>
    exact h.mono trivial hheld fun d' record' hr => Or.inr hr

/-! ### What a caller is told -/

/-- The caller waits for the dial only, and occurs so often. -/
structure Served (w : OutboundReply) (d : DeviceId) (pairing : Bool) (n : ℕ) (hand : Hand)
    (σ : Daemon) : Prop where
  regular : Regular hand σ
  placed : Placed w d pairing hand σ
  count : tally hand σ w.id = n

/-- A message to the caller that was not there before is a result for its dial. -/
def Rightly (w : OutboundReply) (d : DeviceId) (pairing : Bool) (σ₀ σ : Daemon) : Prop :=
  ∀ message, (w.id, message) ∈ σ.replies → (w.id, message) ∈ σ₀.replies ∨
    ∃ result, Answers σ d pairing result ∧ (w.id, message) = w.message result

theorem Move.served (hm : Move blake3 B hand σ σ') (h : Served w d pairing n hand σ) :
    Served w d pairing n hand σ' :=
  ⟨hm.regular h.regular, hm.placed h.regular.orderly.sound h.placed,
    (hm.tally h.regular.orderly.sound h.placed.calm).trans h.count⟩

theorem Opening.served {s : Step} (ho : Opening σ s hand σ')
    (hb : ∀ command script, s = .command command script → command.hand.Places w d pairing)
    (h : Served w d pairing n .none σ) : Served w d pairing (n + s.brings w.id) hand σ' :=
  ⟨ho.regular h.regular, ho.placed h.regular.orderly.sound hb h.placed,
    (ho.tally h.regular).trans (congrArg (· + _) h.count)⟩

theorem Answering.served (ha : Answering blake3 B σ σ') (h : Served w d pairing n hand σ) :
    Served w d pairing n hand σ' :=
  ⟨ha.regular h.regular, ha.placed h.placed, (ha.tally h.placed.calm).trans h.count⟩

theorem Closing.served (hc : Closing blake3 B hand σ σ') (h : Served w d pairing n hand σ) :
    Served w d pairing n .none σ' := by
  refine ⟨hc.regular h.regular, hc.placed h.regular h.placed, ?_⟩
  refine (hc.tally h.regular h.placed.calm fun a accepted heq => ?_).trans h.count
  subst heq
  exact absurd rfl h.placed.hand

theorem sent_of_messages {waiting : List OutboundReply} {result : OperationResult DialResult}
    {message : Reply}
    (hmem : (w.id, message) ∈ σ.replies ++ waiting.map (OutboundReply.message result)) :
    (w.id, message) ∈ σ.replies ∨
      ∃ w' ∈ waiting, w'.id = w.id ∧ (w.id, message) = w'.message result := by
  refine (List.mem_append.mp hmem).imp_right fun hmem => ?_
  obtain ⟨w', hw', heq⟩ := List.mem_map.mp hmem
  exact ⟨w', hw', (OutboundReply.message_id result w').symm.trans (congrArg Prod.fst heq), heq.symm⟩

theorem mem_waiters {w' : OutboundReply} (h : w' ∈ σ.waiters d) :
    ∃ record, σ.outbound[d]? = some record ∧ w' ∈ record.replies := by
  unfold waiters at h
  cases hd : σ.outbound[d]? with
  | none => simp [hd] at h
  | some record => exact ⟨record, rfl, by simpa [hd] using h⟩

/-- **A caller is not told of a session it did not ask for**, unless the dial yields. -/
theorem Answering.rightly (ha : Answering blake3 B σ σ') (hy : pairing = true → ¬ B.yields d)
    (h : Served w d pairing n hand σ) (message : Reply) (hmem : (w.id, message) ∈ σ'.replies) :
    (w.id, message) ∈ σ.replies ∨ ∃ result, Answers σ' d pairing result ∧
      (∀ a, result ≠ .ok (.pairing a)) ∧ (w.id, message) = w.message result := by
  have hfailed {τ : Daemon} {d₀ : DeviceId} {e : ErrorResponse} (he : e ∉ invariantFailures)
      (hr : ∀ record, τ.outbound[d₀]? = some record → ∀ w' ∈ record.replies, w'.id = w.id → w' = w)
      (hmem : (w.id, message) ∈ τ.replies ++
        (τ.waiters d₀).map (OutboundReply.message (.error e))) :
      (w.id, message) ∈ τ.replies ∨ ∃ result, Answers σ' d pairing result ∧
        (∀ a, result ≠ .ok (.pairing a)) ∧ (w.id, message) = w.message result := by
    refine (sent_of_messages hmem).imp_right ?_
    rintro ⟨w', hw', hid, heq⟩
    obtain ⟨record, hrecord, hw'⟩ := mem_waiters hw'
    obtain rfl := hr record hrecord w' hw' hid
    exact ⟨.error e, he, nofun, heq⟩
  have hplaced := h.placed.records
  cases ha with
  | @yield d₀ s r p hs hd hp hc hyields =>
    refine (sent_of_messages hmem).imp_right ?_
    rintro ⟨w', hw', hid, heq⟩
    obtain ⟨record, hrecord, hw'⟩ := mem_waiters hw'
    obtain ⟨rfl, rfl, rfl⟩ := hplaced d₀ record hrecord w' hw' hid
    have hlive : record.cancelled = false := by
      by_contra hcancelled
      rw [(h.regular.orderly.limited.dials d₀ record hrecord).cancelled
        (by simpa using hcancelled)] at hw'
      cases hw'
    have hsession : record.pairing = false := by
      by_contra hpairs
      have hpairs : record.pairing = true := by simpa using hpairs
      exact hy hpairs (hyields record hrecord hlive hpairs)
    exact ⟨.ok (.session d₀ s), ⟨hsession, rfl, r, hs, hd⟩, nofun, heq⟩
  | @disconnect s r hs =>
    exact hfailed (τ := σ) (by decide) (fun record hr w' hw' hid => (hplaced _ _ hr w' hw' hid).1) hmem
  | @invalidate τ m io _ _ he reason state _ =>
    have hev := evolves_spec he
    have hreplies : τ.replies = σ.replies := by
      obtain ⟨tasks, shared, rfl⟩ := hev.owned
      rfl
    rw [← hreplies]
    refine hfailed (τ := τ) (by decide) (fun record hr w' hw' hid => ?_) hmem
    rw [hev.outbound] at hr
    exact (hplaced _ _ hr w' hw' hid).1

theorem Closing.sessions_eq (hc : Closing blake3 B hand σ σ') : σ'.sessions = σ.sessions := by
  cases hc with
  | delivered _ _ _ he => exact (evolves_spec he).sessions
  | abandoned _ _ he => exact (evolves_spec he).sessions
  | @resolved _ _ registered _ _ reply _ =>
    unfold resolvePairing
    cases registered <;> cases reply <;> rfl
  | none | respawned | request | answered | waits | refused => rfl

theorem Closing.rightly (hc : Closing blake3 B hand σ σ') (h : Placed w d pairing hand σ)
    (message : Reply) (hmem : (w.id, message) ∈ σ'.replies) :
    (w.id, message) ∈ σ.replies ∨
      ∃ result, Answers σ' d pairing result ∧ (w.id, message) = w.message result := by
  have hother {reply : ReplyId} {sent : Reply} (hne : reply ≠ w.id)
      (hmem : (w.id, message) ∈ (σ.send reply sent).replies) : (w.id, message) ∈ σ.replies := by
    rcases List.mem_append.mp hmem with hmem | hmem
    · exact hmem
    · exact absurd (congrArg Prod.fst (List.mem_singleton.mp hmem)).symm hne
  have hplaces := h.hand
  cases hc with
  | request _ reply sent => exact Or.inl (hother hplaces hmem)
  | refused _ a accepted reply sent => exact Or.inl (hother hplaces hmem)
  | @answered _ d₀ pairs result hanswers _ _ waiting =>
    refine (sent_of_messages hmem).imp_right ?_
    rintro ⟨w', hw', hid, heq⟩
    obtain ⟨rfl, rfl, rfl⟩ := hplaces w' hw' hid
    exact ⟨result, hanswers, heq⟩
  | @waits _ d₀ record waiting hr =>
    have hmem₀ : d₀ ∈ σ.outbound := Map.mem_iff_exists.mpr ⟨record, hr⟩
    simp only [addWaiter, hmem₀] at hmem
    exact Or.inl (by simpa using hmem)
  | delivered _ _ _ he =>
    obtain ⟨tasks, shared, rfl⟩ := (evolves_spec he).owned
    exact Or.inl hmem
  | abandoned _ _ he =>
    obtain ⟨tasks, shared, rfl⟩ := (evolves_spec he).owned
    exact Or.inl hmem
  | @resolved _ d₀ registered _ a reply result =>
    refine Or.inl ?_
    unfold resolvePairing at hmem
    cases reply with
    | none => cases registered <;> exact hmem
    | some reply =>
      have hne : reply ≠ w.id := fun heq => hplaces (congrArg some heq)
      cases registered <;> exact hother hne hmem
  | none | respawned => exact Or.inl hmem

/-! ### Runs -/

/-- No inbound connection of the device is registered while a dial that is to pair with it is on record
that it would end. Callers that ask for a session need no such condition. -/
def Unclashed (d : DeviceId) (pairing : Bool) (σ : Daemon) : Step → Prop
  | .join id _ => pairing = true → ∀ task, σ.tasks[id]? = some task → task.Brings σ d → ¬ Clashes σ d
  | _ => True

/-- The bounds within which no dial that is to pair with the device yields. -/
def unclashed (d : DeviceId) (pairing : Bool) : Bounds :=
  { unbounded with yields := fun d' => d' = d → pairing = false }

theorem within_unclashed {s : Step} (hu : Unclashed d pairing σ s) :
    Within blake3 (unclashed d pairing) σ s where
  acts _ _ := trivial
  timer _ _ := ⟨fun _ _ _ _ => trivial, fun _ _ _ hu => absurd trivial hu⟩
  command _ _ _ := ⟨fun _ _ _ => Or.inr trivial, fun _ _ _ hu => absurd trivial hu,
    fun _ _ _ _ _ => trivial, fun _ _ => trivial⟩
  join id script hs := by
    subst hs
    refine ⟨fun _ _ _ _ => trivial, fun task d' ht hb hclash hd => ?_,
      fun _ _ _ _ _ _ _ _ => trivial, fun _ _ _ _ => trivial, fun _ _ _ _ => Or.inr trivial⟩
    subst hd
    exact Bool.eq_false_iff.mpr fun hpairing => hu hpairing task ht hb hclash

/-- The step brings the caller for the dial only. -/
def Step.Places (w : OutboundReply) (d : DeviceId) (pairing : Bool) (s : Step) : Prop :=
  ∀ command script, s = .command command script → command.hand.Places w d pairing

theorem Step.places_of_brings {s : Step} (h : s.brings w.id = 0) : s.Places w d pairing := by
  rintro command script rfl
  exact Hand.places_of_owes h

/-- **What a handled event does to a caller of a dial.** -/
theorem Served.step {s : Step} (h : Served w d pairing n .none σ) (hu : Unclashed d pairing σ s)
    (hp : s.Places w d pairing) :
    Served w d pairing (n + s.brings w.id) .none (step blake3 σ s) ∧
      Rightly w d pairing σ (step blake3 σ s) := by
  have hwithin : Within blake3 (unclashed d pairing) σ s := within_unclashed hu
  have hh := step_handled h.regular.orderly.sound hwithin
  refine hh.stages (P := fun τ => Served w d pairing n .none τ ∧ τ.replies = σ.replies)
    (Q := fun hand τ => Served w d pairing (n + s.brings w.id) hand τ ∧ τ.replies = σ.replies)
    (A := fun hand τ => Served w d pairing (n + s.brings w.id) hand τ ∧
      ∀ message, (w.id, message) ∈ τ.replies → (w.id, message) ∈ σ.replies ∨
        ∃ result, Answers τ d pairing result ∧ (∀ a, result ≠ .ok (.pairing a)) ∧
          (w.id, message) = w.message result)
    (R := fun τ => Served w d pairing (n + s.brings w.id) .none τ ∧ Rightly w d pairing σ τ)
    (fun hm h => ⟨hm.served h.1, hm.replies_eq.trans h.2⟩)
    (fun ho h => ⟨ho.served hp h.1, ho.replies_eq.trans h.2⟩)
    (fun hm h => ⟨hm.served h.1, hm.replies_eq.trans h.2⟩)
    (fun h => ⟨h.1, fun message hmem => Or.inl (h.2 ▸ hmem)⟩)
    (fun ha h => ⟨ha.served h.1, fun message hmem => ?_⟩) (fun hc h => ⟨hc.served h.1, ?_⟩)
    ⟨h, rfl⟩
  · rw [← h.2]
    have hy (hpairing : pairing = true) : ¬ (unclashed d pairing).yields d :=
      fun hyields => absurd (hyields rfl) (by simp [hpairing])
    exact ha.rightly hy h.1 message hmem
  · intro message hmem
    rcases hc.rightly h.1.placed message hmem with hmem | hanswered
    · refine (h.2 message hmem).imp_right ?_
      rintro ⟨result, hanswers, hne, heq⟩
      refine ⟨result, ?_, heq⟩
      match result, hanswers, hne with
      | .error e, hanswers, _ => exact hanswers
      | .ok (.pairing a), _, hne => exact absurd rfl (hne a)
      | .ok (.session d₀ s), hanswers, _ =>
        unfold Answers at hanswers ⊢
        rw [hc.sessions_eq]
        exact hanswers
    · exact Or.inr hanswered

/-- **What a run does to a caller of a dial**: it occurs as often as it was brought, and every message
to it was right after the event that sent it. -/
theorem Served.run {steps : List Step} (h : Served w d pairing n .none σ)
    (hm : Meets blake3 (Unclashed d pairing) σ steps) (hp : ∀ s ∈ steps, s.Places w d pairing) :
    Served w d pairing (n + (steps.map (Step.brings w.id)).sum) .none (run blake3 σ steps) ∧
      ∀ message, (w.id, message) ∈ (run blake3 σ steps).replies → (w.id, message) ∈ σ.replies ∨
        ∃ earlier s later result, steps = earlier ++ s :: later ∧
          (w.id, message) ∉ (run blake3 σ earlier).replies ∧
          (w.id, message) ∈ (run blake3 σ (earlier ++ [s])).replies ∧
          Answers (run blake3 σ (earlier ++ [s])) d pairing result ∧
          (w.id, message) = w.message result := by
  induction steps generalizing σ n with
  | nil => exact ⟨h, fun message hmem => Or.inl hmem⟩
  | cons s steps ih =>
    obtain ⟨hnext, hsent⟩ := h.step hm.1 (hp s List.mem_cons_self)
    obtain ⟨hlast, hlater⟩ := ih hnext hm.2 fun s hs => hp s (List.mem_cons_of_mem _ hs)
    refine ⟨?_, fun message hmem => ?_⟩
    · rw [List.map_cons, List.sum_cons, ← Nat.add_assoc]
      exact hlast
    rcases hlater message hmem with hfirst | ⟨earlier, s', later, result, rfl, hsends⟩
    · -- it was there after the first event, which sent it unless it was there before
      by_cases hbefore : (w.id, message) ∈ σ.replies
      · exact Or.inl hbefore
      obtain ⟨result, hanswers, heq⟩ := (hsent message hfirst).resolve_left hbefore
      exact Or.inr ⟨[], s, steps, result, rfl, hbefore, hfirst, hanswers, heq⟩
    · exact Or.inr ⟨s :: earlier, s', later, result, rfl, hsends⟩

theorem Beginning.served {localId : DeviceId} {now : ℕ} (h : Beginning localId now σ)
    (w : OutboundReply) (d : DeviceId) (pairing : Bool) : Served w d pairing 0 .none σ := by
  have hheld : held σ w.id = 0 := by
    refine Map.total_eq_zero fun id task ht => ?_
    rw [h.workers id task ht]
    rfl
  refine ⟨h.regular, ⟨fun d' record hr => ?_, trivial, hheld⟩, ?_⟩
  · rw [h.outbound] at hr
    simp at hr
  · unfold tally answersTo awaited
    rw [h.replies, h.outbound, hheld, Map.total_empty]
    rfl

theorem stop_replies (blake3 : Blake3) (σ : Daemon)
    (script : List (List TaskStep)) :
    (stop blake3 σ script).replies = σ.replies ++
      (σ.outbound.toList.flatMap fun entry => entry.2.replies).map (OutboundReply.message
        (.error (operationError .shuttingDown "daemon is shutting down"))) := by
  obtain ⟨σ₁, σ₂, h₁, h₂, heq⟩ := stop_eq blake3 σ script
  obtain ⟨tasks₁, shared₁, rfl⟩ := (evolves_spec h₁).owned
  obtain ⟨tasks₂, shared₂, rfl⟩ := (evolves_spec h₂).owned
  rw [heq]
  rfl

theorem answersTo_stop (script : List (List TaskStep)) (r : ReplyId) :
    answersTo (stop blake3 σ script) r = answersTo σ r + awaited σ r := by
  rw [answersTo_messages _ _ (stop_replies blake3 σ script)]
  congr 1
  unfold callers awaited
  rw [List.countP_flatMap, Map.total_eq_sum]
  rfl

theorem Served.waits (h : Served w d pairing n hand σ) (hawaited : awaited σ w.id ≠ 0) :
    ∃ record, σ.outbound[d]? = some record ∧ record.cancelled = false ∧
      record.pairing = pairing ∧ w ∈ record.replies := by
  obtain ⟨d', record, hr, howes⟩ : ∃ (d' : DeviceId) (record : OutboundRecord),
      σ.outbound[d']? = some record ∧ record.owes w.id ≠ 0 := by
    by_contra hnone
    push Not at hnone
    exact hawaited (Map.total_eq_zero hnone)
  obtain ⟨w', hmem, hid⟩ := List.countP_pos_iff.mp (Nat.pos_of_ne_zero howes)
  obtain ⟨rfl, rfl, hpairs⟩ := h.placed.records d' record hr w' hmem (of_decide_eq_true hid)
  refine ⟨record, hr, ?_, hpairs, hmem⟩
  by_contra hcancelled
  rw [(h.regular.orderly.limited.dials d' record hr).cancelled (by simpa using hcancelled)] at hmem
  cases hmem

/-- A reply that suits what its caller asked for: a pairing that is registered for the device, a session
that is, or an error that describes a failure. -/
inductive Suits (σ : Daemon) (d : DeviceId) : OutboundReply → Bool → Reply → Prop
  | pairingStarted {r : ReplyId} {a : PairingAttemptId} {record : PendingRecord}
      (h : σ.pendingPairings[a]? = some record) (hd : record.info.deviceId = d) :
      Suits σ d (.ipc r) true (.response (.ok (.pairingStarted a)))
  | pairing {r : ReplyId} {a : PairingAttemptId} {record : PendingRecord}
      (h : σ.pendingPairings[a]? = some record) (hd : record.info.deviceId = d) :
      Suits σ d (.pairing r) true (.pairing (.ok a))
  | peerConnected {r : ReplyId} {s : SessionId} {record : SessionRecord}
      (h : σ.sessions[s]? = some record) (hd : record.info.deviceId = d) :
      Suits σ d (.ipc r) false (.response (.ok (.peerConnected d s)))
  | session {r : ReplyId} {s : SessionId} {record : SessionRecord}
      (h : σ.sessions[s]? = some record) (hd : record.info.deviceId = d) :
      Suits σ d (.session r) false (.session (.ok s))
  | requestFails {r : ReplyId} {e : ErrorResponse} (pairing : Bool) (h : e ∉ invariantFailures) :
      Suits σ d (.ipc r) pairing (.response (.error e))
  | pairingFails {r : ReplyId} {e : ErrorResponse} (h : e ∉ invariantFailures) :
      Suits σ d (.pairing r) true (.pairing (.error e))
  | sessionFails {r : ReplyId} {e : ErrorResponse} (h : e ∉ invariantFailures) :
      Suits σ d (.session r) false (.session (.error e))

theorem suits_of_answers {command : Command} (hdial : command.hand = .dial d pairing [w])
    {result : OperationResult DialResult} (h : Answers σ d pairing result) :
    Suits σ d w pairing (w.message result).2 := by
  have hkind : (∃ r, w = .ipc r) ∨ (∃ r, w = .pairing r ∧ pairing = true) ∨
      ∃ r, w = .session r ∧ pairing = false := by
    unfold Command.hand at hdial
    split at hdial <;> cases hdial
    · exact Or.inl ⟨_, rfl⟩
    · exact Or.inl ⟨_, rfl⟩
    · exact Or.inr (Or.inl ⟨_, rfl, rfl⟩)
    · exact Or.inr (Or.inr ⟨_, rfl, rfl⟩)
  cases result with
  | error e =>
    obtain ⟨r, rfl⟩ | ⟨r, rfl, rfl⟩ | ⟨r, rfl, rfl⟩ := hkind
    · exact .requestFails pairing h
    · exact .pairingFails h
    · exact .sessionFails h
  | ok value =>
    cases value with
    | pairing a =>
      obtain ⟨rfl, record, hr, hd⟩ := h
      obtain ⟨r, rfl⟩ | ⟨r, rfl, -⟩ | ⟨r, -, hpairing⟩ := hkind
      · exact .pairingStarted hr hd
      · exact .pairing hr hd
      · cases hpairing
    | session d' s =>
      obtain ⟨rfl, rfl, record, hr, hd⟩ := h
      obtain ⟨r, rfl⟩ | ⟨r, -, hpairing⟩ | ⟨r, rfl, -⟩ := hkind
      · exact .peerConnected hr hd
      · cases hpairing
      · exact .session hr hd

/-- **Outbound requests get exactly one answer of the right kind**: a request for a session in every
run, and a request to pair in a run in which no inbound connection of the device is registered over a
dial that is to pair with it. The caller of a request that dials is answered once, or it waits with a
live dial for what it asked, whose task is not joined yet. Whatever it is told suits what it asked for,
in the state after the event that sends it. Once the daemon has stopped, it is answered. -/
theorem outbound_requests_get_one_answer {σ₀ : Daemon} (hbegin : Begins blake3 σ₀)
    {before after : List Step} {command : Command} {script : List (List TaskStep)}
    (hdial : command.hand = .dial d pairing [w])
    (hown : ∀ s ∈ before ++ after, s.brings w.id = 0)
    (hmeets : Meets blake3 (Unclashed d pairing) σ₀ (before ++ .command command script :: after)) :
    let steps := before ++ .command command script :: after
    let σ := run blake3 σ₀ steps
    (answersTo σ w.id = 1 ∧ awaited σ w.id = 0 ∨
      answersTo σ w.id = 0 ∧ awaited σ w.id = 1 ∧ ∃ record, σ.outbound[d]? = some record ∧
        record.cancelled = false ∧ record.pairing = pairing ∧ w ∈ record.replies ∧
        ∃ (id : ℕ) (task : Task), σ.tasks[id]? = some task ∧
          task.kind = .outbound d record.token pairing) ∧
    (∀ message, (w.id, message) ∈ σ.replies → ∃ earlier s later, steps = earlier ++ s :: later ∧
      (w.id, message) ∉ (run blake3 σ₀ earlier).replies ∧
      (w.id, message) ∈ (run blake3 σ₀ (earlier ++ [s])).replies ∧
      Suits (run blake3 σ₀ (earlier ++ [s])) d w pairing message) ∧
    ∀ finish, answersTo (stop blake3 σ finish) w.id = 1 ∧
      ∀ message, (w.id, message) ∈ (stop blake3 σ finish).replies →
        (w.id, message) ∈ σ.replies ∨ (w.id, message) = w.message
          (.error (operationError .shuttingDown "daemon is shutting down")) := by
  intro steps σ
  obtain ⟨localId, now, hfirst⟩ := hbegin.beginning
  have hbrought : Step.brings w.id (.command command script) = 1 := by
    simp [Step.brings, hdial, Hand.owes, callers]
  have honce : 0 + (steps.map (Step.brings w.id)).sum = 1 :=
    (Nat.zero_add _).trans (sum_brings hbrought hown)
  have hplaces (s : Step) (hs : s ∈ steps) : s.Places w d pairing := by
    rcases List.mem_append.mp hs with hs | hs
    · exact Step.places_of_brings (hown s (List.mem_append_left _ hs))
    rcases List.mem_cons.mp hs with rfl | hs
    · rintro _ _ ⟨⟩
      rw [hdial]
      rintro w' hw' -
      exact ⟨List.mem_singleton.mp hw', rfl, rfl⟩
    · exact Step.places_of_brings (hown s (List.mem_append_right _ hs))
  obtain ⟨hserved, hsent⟩ := (hfirst.served w d pairing).run hmeets hplaces
  rw [honce] at hserved
  have hcount : answersTo σ w.id + awaited σ w.id = 1 := by
    have htally := hserved.count
    unfold tally at htally
    rw [hserved.placed.tasks] at htally
    exact htally
  refine ⟨?_, fun message hmem => ?_, fun finish => ⟨?_, fun message hmem => ?_⟩⟩
  · by_cases hawaited : awaited σ w.id = 0
    · exact Or.inl ⟨by omega, hawaited⟩
    · obtain ⟨record, hr, hc, hpairs, hmem⟩ := hserved.waits hawaited
      obtain ⟨id, task, ht, hkind⟩ := hserved.regular.orderly.sound.tasked.dialled d record hr
      exact Or.inr ⟨by omega, by omega, record, hr, hc, hpairs, hmem, id, task, ht, hpairs ▸ hkind⟩
  · rcases hsent message hmem with
      hmem | ⟨earlier, s, later, result, heq, hunsent, hsends, hanswers, hmessage⟩
    · rw [hfirst.replies] at hmem
      cases hmem
    · refine ⟨earlier, s, later, heq, hunsent, hsends, ?_⟩
      rw [show message = (w.message result).2 from congrArg Prod.snd hmessage]
      exact suits_of_answers hdial hanswers
  · rw [answersTo_stop]
    exact hcount
  · rw [stop_replies] at hmem
    refine (sent_of_messages hmem).imp_right ?_
    rintro ⟨w', hw', hid, heq⟩
    obtain ⟨⟨d', record⟩, hr, hw'⟩ := List.mem_flatMap.mp hw'
    rw [ExtTreeMap.mem_toList_iff_getElem?_eq_some] at hr
    obtain ⟨rfl, -, -⟩ := hserved.placed.records d' record hr w' hw' hid
    exact heq

/-- The task is a dial. -/
def Task.isDial : Task → Bool
  | .outbound _ _ _ _ => true
  | _ => false

/-- A request to pair whose dial fails is answered. -/
theorem sample_failed_pairing_is_answered : ∃ σ₀, Begins sampleBlake3 σ₀ ∧
    let steps : List Step := .command (.request (.beginPairing samplePeer.deviceId) 1 .ok) [] ::
      (taskDoes 2 [.bootstrap (.error .retryable)] ++ [.join 2 []])
    answersTo (run sampleBlake3 σ₀ steps) 1 = 1 ∧ ∀ message,
      (1, message) ∈ (run sampleBlake3 σ₀ steps).replies → ∃ earlier s later,
        steps = earlier ++ s :: later ∧ (1, message) ∉ (run sampleBlake3 σ₀ earlier).replies ∧
        (1, message) ∈ (run sampleBlake3 σ₀ (earlier ++ [s])).replies ∧
        Suits (run sampleBlake3 σ₀ (earlier ++ [s])) samplePeer.deviceId (.ipc 1) true message := by
  let issued : Step := .command (.request (.beginPairing samplePeer.deviceId) 1 .ok) []
  let failed : List Step := taskDoes 2 [.bootstrap (.error .retryable)]
  obtain ⟨σ₀, hbegin, hσ⟩ := exists_sampleBegin (.repeated 1) none
    (fun σ => answersTo (run sampleBlake3 σ (issued :: (failed ++ [.join 2 []]))) 1 = 1 ∧
      (run sampleBlake3 σ (issued :: failed)).tasks[2]?.any Task.isDial) (by decide +kernel)
  obtain ⟨hanswered, htask⟩ := of_decide_eq_true hσ
  have hmeets : Meets sampleBlake3 (Unclashed samplePeer.deviceId true) σ₀
      ([] ++ issued :: (failed ++ [.join 2 []])) := by
    refine ⟨trivial, trivial, fun _ task ht hbrings => ?_, trivial⟩
    obtain ⟨task', ht', hkind⟩ := (Option.any_eq_true _ _).mp htask
    cases ht.symm.trans ht'
    cases hbrings <;> cases hkind
  have hown : ∀ s ∈ ([] ++ (failed ++ [.join 2 []]) : List Step), s.brings 1 = 0 := by
    simp [failed, taskDoes, Step.brings]
  have hdial : (Command.request (.beginPairing samplePeer.deviceId) 1 .ok).hand =
      .dial samplePeer.deviceId true [.ipc 1] := rfl
  exact ⟨σ₀, hbegin, hanswered, (outbound_requests_get_one_answer hbegin hdial hown hmeets).2.1⟩

/-- **A request to pair that is answered with a session.** This device dials another one, with a
smaller identity, to pair. That one dials too, the two pair over its connection, and the session that
results ends the dial: a client is told of the session, and a caller within the program of an internal
error. -/
theorem pairing_answered_with_a_session :
    (∃ σ, Reachable sampleBlake3 σ ∧
      (1, .response (.ok (.peerConnected samplePeer.deviceId 1))) ∈ σ.replies) ∧
    ∃ σ, Reachable sampleBlake3 σ ∧
      (1, .pairing (.error (operationError .internal "pairing result invariant failed"))) ∈
        σ.replies := by
  let steps (command : Command) : List Step :=
    .command command [] :: samplePairingRequest 0 ++ sampleConfirmed 1 3
  obtain ⟨σ, hreach, hσ⟩ := exists_sampleRun (.repeated 255) none
    (steps (.request (.beginPairing samplePeer.deviceId) 1 .ok))
    (fun σ => (1, .response (.ok (.peerConnected samplePeer.deviceId 1))) ∈ σ.replies)
    (by decide +kernel)
  obtain ⟨τ, hreach', hτ⟩ := exists_sampleRun (.repeated 255) none
    (steps (.beginPairing ⟨samplePeer.deviceId, 1⟩ 1))
    (fun σ => (1, .pairing (.error (operationError .internal "pairing result invariant failed"))) ∈
      σ.replies) (by decide +kernel)
  exact ⟨⟨σ, hreach, of_decide_eq_true hσ⟩, τ, hreach', of_decide_eq_true hτ⟩

end Rift.Daemon
