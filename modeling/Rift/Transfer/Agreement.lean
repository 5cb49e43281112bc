import Rift.Transfer.Markers

/-! # The two ends of a transfer agree

The sender's and the receiver's machine of one transfer, connected by a network that loses,
duplicates and reorders what it carries. Every message in the network speaks for a decision of the
side that sent it, and decisions are final; so an outcome that came from the other side is that
side's outcome.

The main results are `Agrees.step` and `two_party_agreement`. -/

namespace Rift.Transfer

open Rift.Lib Rift.Core Rift.Protocol LogicalTransfer

/-! ### Sides and messages -/

/-- The two ends of a transfer. -/
inductive Side
  | sender
  | receiver
  deriving DecidableEq

def Side.other : Side → Side
  | .sender => .receiver
  | .receiver => .sender

@[simp] theorem Side.other_other (side : Side) : side.other.other = side := by cases side <;> rfl

/-- The direction as this end sees it. -/
def Side.direction : Side → TransferDirection
  | .sender => .outgoing
  | .receiver => .incoming

/-- The control messages that end a transfer. -/
inductive Message
  | terminal (status : TransferTerminalStatus)
  | ack
  deriving DecidableEq

/-- A message on its way to a side. -/
structure Packet where
  dest : Side
  message : Message
  deriving DecidableEq

/-- What the delivery of a message calls. -/
def Message.call : Message → Call
  | .terminal status => .peerTerminalPersisted status
  | .ack => .terminalAckReceived

/-- What a side sends once a delivery succeeded. -/
def Packet.replies (packet : Packet) : Result → List Packet
  | .ok _ => match packet.message with
    | .terminal _ => [⟨packet.dest.other, .ack⟩]
    | .ack => []
  | .error _ => []

/-- A repeated offer of a transfer that has ended is answered with its outcome. -/
def Side.answers (side : Side) : Result → List Packet
  | .ok (.replayed (.terminal status)) => [⟨side.other, .terminal status⟩]
  | _ => []

theorem Packet.eq_of_mem_replies {packet reply : Packet} {result : Result}
    (h : reply ∈ packet.replies result) :
    reply = ⟨packet.dest.other, .ack⟩ ∧ ∃ status, packet.message = .terminal status := by
  unfold Packet.replies at h
  split at h
  · split at h
    · exact ⟨List.mem_singleton.mp h, _, by assumption⟩
    · cases h
  · cases h

theorem Side.eq_of_mem_answers {side : Side} {packet : Packet} {result : Result}
    (h : packet ∈ side.answers result) : ∃ status,
      packet = ⟨side.other, .terminal status⟩ ∧ result = .ok (.replayed (.terminal status)) := by
  unfold Side.answers at h
  split at h
  · exact ⟨_, List.mem_singleton.mp h, rfl⟩
  · cases h

/-- The calls that are made on no message of the peer's about the end of the transfer. -/
def Call.own : Call → Bool
  | .peerTerminalPersisted _ | .terminalAckReceived => false
  | _ => true

/-! ### The two ends and the network -/

/-- Both ends with their markers, and the messages on their way. -/
structure Link where
  ends : Side → LogicalTransfer × Markers
  network : List Packet

/-- A transfer of which neither end has said anything. -/
def Link.new (peers : Side → DeviceId) (id : TransferId) (metadata : TransferMetadata) : Link where
  ends side := (.new (peers side) id metadata side.direction, {})
  network := []

/-- One side makes a call; the messages are put on their way. -/
def Link.calling (link : Link) (side : Side) (c : Call) (packets : List Packet) : Link where
  ends := Function.update link.ends side (recorded c (link.ends side)).2
  network := packets ++ link.network

section Calling

variable {link : Link} {side s : Side} {c : Call} {packets : List Packet}

theorem Link.ends_calling_self :
    (link.calling side c packets).ends side = (recorded c (link.ends side)).2 :=
  Function.update_self ..

theorem Link.ends_calling_of_ne (h : s ≠ side) :
    (link.calling side c packets).ends s = link.ends s :=
  Function.update_of_ne h ..

end Calling

/-- What happens to a link. -/
inductive Action
  | call (side : Side) (c : Call)
  | sendTerminal (side : Side)
  | deliver (packet : Packet)
  | lose (packet : Packet)
  deriving DecidableEq

/-- One action of the whole. A delivered packet may be delivered again, until it is lost. -/
def act : Machine Action (Option Result) Link := fun action link =>
  match action with
  | .call side c =>
    if c.own then
      let result := (recorded c (link.ends side)).1
      (some result, link.calling side c (side.answers result))
    else (none, link)
  | .sendTerminal side =>
    match (link.ends side).1.state with
    | .terminalAwaitingAck status =>
      (none, { link with network := ⟨side.other, .terminal status⟩ :: link.network })
    | _ => (none, link)
  | .deliver packet =>
    if packet ∈ link.network then
      let result := (recorded packet.message.call (link.ends packet.dest)).1
      (some result, link.calling packet.dest packet.message.call (packet.replies result))
    else (none, link)
  | .lose packet => (none, { link with network := link.network.erase packet })

/-! ### What one call leaves -/

section Recorded

variable {t t' : LogicalTransfer} {markers : Markers} {c : Call} {y : Reply}
  {status : TransferTerminalStatus}

theorem peer_of_recorded (h : (recorded c (t, markers)).2.2.terminal = some (status, .peerSide)) :
    markers.terminal = some (status, .peerSide) ∨ c = .peerTerminalPersisted status := by
  change (markers.record t (call c t).2 c (call c t).1).terminal = _ at h
  unfold Markers.record at h
  split at h
  · exact Or.inl h
  · split_ifs at h
    · cases h
    · exact Or.inl h
  · split_ifs at h
    · cases h
      exact Or.inr rfl
    · exact Or.inl h
  · exact Or.inl h

theorem local_of_recorded (h : (recorded c (t, markers)).2.2.terminal = some (status, .localSide)) :
    markers.terminal = some (status, .localSide) ∨
      ∃ attempt, c = .terminalPersisted status attempt ∧ ∃ y, (recorded c (t, markers)).1 = .ok y := by
  change (markers.record t (call c t).2 c (call c t).1).terminal = _ at h
  unfold Markers.record at h
  split at h
  · exact Or.inl h
  · rename_i y hr
    split_ifs at h
    · cases h
      exact Or.inr ⟨_, rfl, y, hr⟩
    · exact Or.inl h
  · split_ifs at h
    · cases h
    · exact Or.inl h
  · exact Or.inl h

theorem outcome_of_replayed
    (h : (recorded c (t, markers)).1 = .ok (.replayed (.terminal status))) :
    t.state.outcome = some status := by
  change (call c t).1 = _ at h
  rcases call_cases c t with ⟨e, he⟩ | ⟨y, t', hr, ha⟩
  · rw [he] at h
    cases h
  · rw [hr] at h
    cases h
    cases ha with
    | replayTerminal _ ended => exact ended

theorem ack_ok (h : t.state.outcome = some status) : (call .terminalAckReceived t).1 = .ok .done := by
  obtain ⟨peer, id, metadata, direction, state, next⟩ := t
  cases state <;> first | rfl | cases h

end Recorded

/-! ### The invariant -/

/-- What the ends, the network and the history have to do with each other. -/
structure Agrees (h : List (Event Action (Option Result))) (link : Link) : Prop where
  direction : ∀ side, (link.ends side).1.direction = side.direction
  recorded : ∀ side, Matches (link.ends side).1 (link.ends side).2
  /-- An outcome on its way is that of the side which sent it. -/
  terminal : ∀ side status, ⟨side, .terminal status⟩ ∈ link.network →
    (link.ends side.other).1.state.outcome = some status
  /-- An acknowledgement is on its way only to a side that has ended. -/
  ack : ∀ side, ⟨side, .ack⟩ ∈ link.network →
    ∃ status, (link.ends side).1.state.outcome = some status
  /-- An outcome that came from the peer is the peer's. -/
  peer : ∀ side status, (link.ends side).2.terminal = some (status, .peerSide) →
    (link.ends side.other).1.state.outcome = some status
  /-- An outcome of the side's own was decided by a call. -/
  decided : ∀ side status, (link.ends side).2.terminal = some (status, .localSide) →
    ∃ attempt y, ⟨.call side (.terminalPersisted status attempt), some (.ok y)⟩ ∈ h

namespace Agrees

variable {h : List (Event Action (Option Result))} {link : Link}

theorem new (peers : Side → DeviceId) (id : TransferId) (metadata : TransferMetadata) :
    Agrees [] (.new peers id metadata) := by
  refine ⟨fun _ => rfl, fun side => matches_new _ _ _ _, nofun, nofun, nofun, nofun⟩

theorem carry (ha : Agrees h link) (e : Event Action (Option Result)) {network : List Packet}
    (hn : ∀ packet ∈ network, packet ∈ link.network ∨ ∃ side status,
      packet = ⟨side.other, .terminal status⟩ ∧ (link.ends side).1.state.outcome = some status) :
    Agrees (h ++ [e]) { link with network } := by
  refine ⟨ha.direction, ha.recorded, fun side status hp => ?_, fun side hp => ?_, ha.peer,
    fun side status hm => ?_⟩
  · rcases hn _ hp with hp | ⟨origin, status, heq, hs⟩
    · exact ha.terminal side status hp
    · cases heq
      rwa [Side.other_other]
  · rcases hn _ hp with hp | ⟨origin, status, heq, -⟩
    · exact ha.ack side hp
    · cases heq
  · obtain ⟨attempt, y, hmem⟩ := ha.decided side status hm
    exact ⟨attempt, y, List.mem_append_left _ hmem⟩

theorem outcome_calling {side s : Side} {c : Call} {packets : List Packet}
    {status : TransferTerminalStatus} (hs : (link.ends s).1.state.outcome = some status) :
    ((link.calling side c packets).ends s).1.state.outcome = some status := by
  by_cases heq : s = side
  · subst heq
    rw [Link.ends_calling_self]
    exact outcome_call hs c
  · rwa [Link.ends_calling_of_ne heq]

/-- One call of one side. Its messages speak for what the ends are then, what it says about the peer
is so, and a decision of its own is on the record. -/
theorem calling (ha : Agrees h link) {side : Side} {c : Call} {packets : List Packet}
    {e : Event Action (Option Result)}
    (hterminal : ∀ dest status, ⟨dest, .terminal status⟩ ∈ packets →
      (link.ends dest.other).1.state.outcome = some status)
    (hack : ∀ dest, ⟨dest, .ack⟩ ∈ packets → ∃ status, (link.ends dest).1.state.outcome = some status)
    (hpeer : ∀ status, c = .peerTerminalPersisted status →
      (link.ends side.other).1.state.outcome = some status)
    (he : ∀ status attempt, c = .terminalPersisted status attempt →
      e = ⟨.call side c, some (Transfer.recorded c (link.ends side)).1⟩) :
    Agrees (h ++ [e]) (link.calling side c packets) := by
  have hside (P : LogicalTransfer × Markers → Side → Prop)
      (hnew : P (Transfer.recorded c (link.ends side)).2 side) (hold : ∀ s, s ≠ side → P (link.ends s) s) :
      ∀ s, P ((link.calling side c packets).ends s) s := by
    intro s
    by_cases heq : s = side
    · subst heq
      rwa [Link.ends_calling_self]
    · rw [Link.ends_calling_of_ne heq]
      exact hold s heq
  refine ⟨?_, ?_, fun dest status hp => ?_, fun dest hp => ?_, ?_, ?_⟩
  · exact hside (fun x s => x.1.direction = s.direction)
      ((direction_call c _).trans (ha.direction side)) fun s _ => ha.direction s
  · exact hside (fun x _ => Matches x.1 x.2) ((ha.recorded side).step c) fun s _ => ha.recorded s
  · rcases List.mem_append.mp hp with hp | hp
    · exact outcome_calling (hterminal dest status hp)
    · exact outcome_calling (ha.terminal dest status hp)
  · rcases List.mem_append.mp hp with hp | hp
    · obtain ⟨status, hs⟩ := hack dest hp
      exact ⟨status, outcome_calling hs⟩
    · obtain ⟨status, hs⟩ := ha.ack dest hp
      exact ⟨status, outcome_calling hs⟩
  · refine hside (fun x s => ∀ status, x.2.terminal = some (status, .peerSide) →
      ((link.calling side c packets).ends s.other).1.state.outcome = some status) ?_ ?_
    · intro status hm
      rcases peer_of_recorded hm with hm | hc
      · exact outcome_calling (ha.peer side status hm)
      · exact outcome_calling (hpeer status hc)
    · exact fun s _ status hm => outcome_calling (ha.peer s status hm)
  · refine hside (fun x s => ∀ status, x.2.terminal = some (status, .localSide) →
      ∃ attempt y, ⟨.call s (.terminalPersisted status attempt), some (.ok y)⟩ ∈ h ++ [e]) ?_ ?_
    · intro status hm
      rcases local_of_recorded hm with hm | ⟨attempt, rfl, y, hy⟩
      · obtain ⟨attempt, y, hmem⟩ := ha.decided side status hm
        exact ⟨attempt, y, List.mem_append_left _ hmem⟩
      · refine ⟨attempt, y, List.mem_append_right _ (List.mem_singleton.mpr ?_)⟩
        rw [he status attempt rfl]
        exact congrArg _ (congrArg some hy.symm)
    · intro s _ status hm
      obtain ⟨attempt, y, hmem⟩ := ha.decided s status hm
      exact ⟨attempt, y, List.mem_append_left _ hmem⟩

theorem step (ha : Agrees h link) (action : Action) :
    Agrees (h ++ [⟨action, (act action link).1⟩]) (act action link).2 := by
  have hsame (e : Event Action (Option Result)) : Agrees (h ++ [e]) link :=
    ha.carry e fun _ hp => Or.inl hp
  cases action with
  | call side c =>
    by_cases hown : c.own = true
    · simp only [act, hown, if_true]
      refine ha.calling (fun dest status hp => ?_) (fun dest hp => ?_) (fun status hc => ?_)
        fun _ _ _ => rfl
      · obtain ⟨_, heq, hr⟩ := Side.eq_of_mem_answers hp
        cases heq
        rw [Side.other_other]
        exact outcome_of_replayed hr
      · obtain ⟨_, heq, -⟩ := Side.eq_of_mem_answers hp
        cases heq
      · rw [hc] at hown
        cases hown
    · simp only [act, hown]
      exact hsame _
  | sendTerminal side =>
    cases hs : (link.ends side).1.state with
    | terminalAwaitingAck status =>
      simp only [act, hs]
      refine ha.carry _ fun packet hp => ?_
      rcases List.mem_cons.mp hp with rfl | hp
      · exact Or.inr ⟨side, status, rfl, by rw [hs]; rfl⟩
      · exact Or.inl hp
    | _ =>
      simp only [act, hs]
      exact hsame _
  | deliver packet =>
    by_cases hmem : packet ∈ link.network
    · simp only [act, hmem, if_true]
      refine ha.calling (fun _ _ hp => ?_) (fun _ hp => ?_) (fun status hc => ?_) fun _ _ hc => ?_
      · cases (Packet.eq_of_mem_replies hp).1
      · obtain ⟨heq, status, hm⟩ := Packet.eq_of_mem_replies hp
        cases heq
        exact ⟨status, ha.terminal packet.dest status (hm ▸ hmem)⟩
      · obtain ⟨dest, _ | _⟩ := packet <;> cases hc
        exact ha.terminal dest status hmem
      · obtain ⟨dest, _ | _⟩ := packet <;> cases hc
    · simp only [act, hmem, if_false]
      exact hsame _
  | lose packet => exact ha.carry _ fun p hp => Or.inl (List.mem_of_mem_erase hp)

end Agrees

/-- **Two-party agreement.** Whatever calls the two ends make and whatever the network loses,
duplicates and reorders: a sender that ended with an outcome only the receiver decides has the
receiver's outcome; sides that ended differently both decided for themselves; and an acknowledgement
is always taken. -/
theorem two_party_agreement (peers : Side → DeviceId) (id : TransferId) (metadata : TransferMetadata)
    (actions : List Action) :
    let link := act.after (Link.new peers id metadata) actions
    let outcome := fun side => (link.ends side).1.state.outcome
    (∀ status, status = .completed ∨ status = .rejected → outcome .sender = some status →
      outcome .receiver = some status) ∧
    (∀ side status status', outcome side = some status → outcome side.other = some status' →
      status ≠ status' → ∃ attempt y,
        ⟨.call side (.terminalPersisted status attempt), some (.ok y)⟩ ∈
          act.history (Link.new peers id metadata) actions ∧
        (link.ends side).2.terminal = some (status, .localSide)) ∧
    ∀ side, ⟨side, .ack⟩ ∈ link.network → (act (.deliver ⟨side, .ack⟩) link).1 = some (.ok .done) := by
  intro link outcome
  have ha : Agrees (act.history (Link.new peers id metadata) actions) link :=
    act.invariant (P := Agrees) (Agrees.new peers id metadata) (fun _ _ action ha => ha.step action)
      actions
  refine ⟨fun status hs ho => ?_, fun side status status' ho ho' hne => ?_, fun side hp => ?_⟩
  · obtain ⟨origin, hm, hr, -⟩ := (ha.recorded .sender).ended status ho
    have hout : (link.ends .sender).1.direction = .outgoing := ha.direction .sender
    have hpeer : origin = .peerSide := by
      rcases origin with _ | _
      · have hin := (hr (by rcases hs with rfl | rfl <;> rfl)).mpr rfl
        rw [hout] at hin
        cases hin
      · rfl
    exact ha.peer .sender status (hpeer ▸ hm)
  · obtain ⟨origin, hm, -⟩ := (ha.recorded side).ended status ho
    rcases origin with _ | _
    · obtain ⟨attempt, y, hmem⟩ := ha.decided side status hm
      exact ⟨attempt, y, hmem, hm⟩
    · have hpeer := ha.peer side status hm
      exact absurd (Option.some.inj (hpeer.symm.trans ho')) hne
  · obtain ⟨status, hs⟩ := ha.ack side hp
    simp only [act, hp, if_true]
    exact congrArg some (ack_ok hs)

end Rift.Transfer
