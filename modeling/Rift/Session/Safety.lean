import Rift.Lib.History
import Rift.Session.Pairing

/-! # Pairing is safe against any peer

The log of an attempt is a beginning of one of four milestones, or such a beginning followed by at
most one other message and the closing of the connection (`Legal`, `Ended`). The drivers are
verified by triples: from a legal log each of their steps leads to a legal log or ends the attempt.

The main results are `initiatePairing_spec`, `respondToPairing_spec`, `confirm_spec` and
`pairing_safe_against_any_peer`. -/

namespace Rift.Session

open Rift.Lib Rift.Core Rift.Protocol Rift.Trust Std.Do

set_option mvcgen.warning false

/-! ### Milestones of an attempt -/

/-- The action is a trust commit. -/
def Action.isCommit : Action → Bool
  | .trustIfGeneration _ _ => true
  | _ => false

/-- What the local side brings to one attempt and finds there. -/
structure Setup where
  conn : PairableConnection
  material : Material
  readyAt : ℕ
  store : StoreInner
  commitIo : IoOutcome

namespace Setup

variable (blake3 : Blake3) (s : Setup)

def peerId : DeviceId := s.conn.peerHello.deviceId

/-- The time before which the local decision has to be made. -/
def deadline : ℕ := s.readyAt + s.conn.pairingTimeout

/-- The identifier of the attempt: the initiator chose it, the responder takes any. -/
def IsPairingId (id : PairingId) : Prop :=
  match s.material with
  | .initiator material => id = material.pairingId
  | .responder _ => True

/-- The nonce opens the commitment under the peer's role, both identities and the pairing
identifier. -/
def Opens (id : PairingId) (c : PairingCommitment) (n : PairingNonce) : Prop :=
  match s.material with
  | .initiator _ => c.verifies blake3 .responder s.conn.localDeviceId s.peerId id n
  | .responder _ => c.verifies blake3 .initiator s.peerId s.conn.localDeviceId id n

/-- What the peer's commitment hashes. -/
def peerInput (id : PairingId) (n : PairingNonce) : Bytes :=
  match s.material with
  | .initiator _ => commitmentInput .responder s.conn.localDeviceId s.peerId id n
  | .responder _ => commitmentInput .initiator s.peerId s.conn.localDeviceId id n

/-- The trust commit of the attempt. -/
def commit : Except TrustStoreError Unit × StoreInner :=
  trustIfGeneration blake3 s.store (trustedPeerFromHello s.conn.peerHello) s.conn.trustGeneration
    s.commitIo

/-- The log until the peer's commitment is received. -/
def commitmentLog (id : PairingId) (c : PairingCommitment) : List Action :=
  match s.material with
  | .initiator material =>
    [.sent (.request id (.derive blake3 .initiator s.conn.localDeviceId s.peerId id material.nonce)),
      .received (.pairingResponse id c)]
  | .responder _ => [.received (.pairingRequest id c)]

/-- What is sent once the peer is committed: the own nonce, and before it the responder's own
commitment. -/
def answerLog (id : PairingId) : List Action :=
  match s.material with
  | .initiator material => [.sent (.reveal id material.nonce)]
  | .responder material =>
    [.sent (.response id
      (.derive blake3 .responder s.peerId s.conn.localDeviceId id material.nonce)),
      .sent (.reveal id material.nonce)]

/-- The log until the peer's nonce is received. -/
def revealLog (id : PairingId) (c : PairingCommitment) (n : PairingNonce) : List Action :=
  s.commitmentLog blake3 id c ++ s.answerLog blake3 id ++ [.received (.pairingReveal id n)]

/-- The log until both sides have accepted. -/
def decisionLog (id : PairingId) (c : PairingCommitment) (n : PairingNonce) (now : ℕ) :
    List Action :=
  s.revealLog blake3 id c n ++
    [.confirmed true now, .sent (.decision id true), .received (.pairingDecision id true)]

/-- The log until both sides have committed. -/
def completionLog (id : PairingId) (c : PairingCommitment) (n : PairingNonce) (now : ℕ) :
    List Action :=
  s.decisionLog blake3 id c n now ++
    [.trustIfGeneration s.conn.trustGeneration (.ok ()), .sent (.complete id),
      .received (.pairingComplete id)]

/-- The logs that end with a message the attempt waits for. -/
inductive Milestone : List Action → Prop
  | commitment {id : PairingId} {c : PairingCommitment} (hid : s.IsPairingId id) :
    Milestone (s.commitmentLog blake3 id c)
  | reveal {id : PairingId} {c : PairingCommitment} {n : PairingNonce} (hid : s.IsPairingId id)
    (hopen : s.Opens blake3 id c n) : Milestone (s.revealLog blake3 id c n)
  | decision {id : PairingId} {c : PairingCommitment} {n : PairingNonce} {now : ℕ}
    (hid : s.IsPairingId id) (hopen : s.Opens blake3 id c n) (hnow : now < s.deadline) :
    Milestone (s.decisionLog blake3 id c n now)
  | completion {id : PairingId} {c : PairingCommitment} {n : PairingNonce} {now : ℕ}
    (hid : s.IsPairingId id) (hopen : s.Opens blake3 id c n) (hnow : now < s.deadline)
    (hcommit : (s.commit blake3).1 = .ok ()) : Milestone (s.completionLog blake3 id c n now)

/-- What an attempt that goes on may have done: it sends, it is confirmed, and each message it took
and each trust commit stands at its milestone. -/
inductive Legal : List Action → Prop
  | nil : Legal []
  | sent {L : List Action} (m : PairingMessage) (h : Legal L) : Legal (L ++ [.sent m])
  | confirmed {L : List Action} (accepted : Bool) (now : ℕ) (h : Legal L) :
    Legal (L ++ [.confirmed accepted now])
  | received {L : List Action} {m : ControlMessage} (h : Legal L)
    (hm : s.Milestone blake3 (L ++ [.received m])) : Legal (L ++ [.received m])
  | trustIfGeneration {id : PairingId} {c : PairingCommitment} {n : PairingNonce} {now : ℕ}
    (hid : s.IsPairingId id) (hopen : s.Opens blake3 id c n) (hnow : now < s.deadline)
    (h : Legal (s.decisionLog blake3 id c n now)) :
    Legal (s.decisionLog blake3 id c n now ++
      [.trustIfGeneration s.conn.trustGeneration (s.commit blake3).1])

/-- The trust store behind a log. -/
def storeAfter (log : List Action) : StoreInner :=
  if log.any Action.isCommit then (s.commit blake3).2 else s.store

variable {blake3 s}

theorem Opens.unique {id : PairingId} {c : PairingCommitment} {n n' : PairingNonce}
    (h : s.Opens blake3 id c n) (h' : s.Opens blake3 id c n')
    (hinj : blake3 (s.peerInput id n) = blake3 (s.peerInput id n') →
      s.peerInput id n = s.peerInput id n') : n' = n := by
  unfold Opens at h h'
  unfold peerInput at hinj
  cases hm : s.material with
  | initiator _ | responder _ =>
    rw [hm] at h h' hinj
    exact (PairingCommitment.verifies_binding blake3 h h' hinj).symm

theorem storeAfter_concat {x : Action} (hx : x.isCommit = false) (log : List Action) :
    s.storeAfter blake3 (log ++ [x]) = s.storeAfter blake3 log := by
  simp [storeAfter, hx]

theorem storeAfter_of_not_mem {log : List Action} (h : ∀ g r, .trustIfGeneration g r ∉ log) :
    s.storeAfter blake3 log = s.store := by
  refine if_neg fun hany => ?_
  obtain ⟨x, hx, hc⟩ := List.any_eq_true.mp hany
  cases x with
  | trustIfGeneration g r => exact h g r hx
  | _ => cases hc

theorem storeAfter_decisionLog (id : PairingId) (c : PairingCommitment) (n : PairingNonce)
    (now : ℕ) : s.storeAfter blake3 (s.decisionLog blake3 id c n now) = s.store := by
  refine storeAfter_of_not_mem fun g r => ?_
  unfold decisionLog revealLog commitmentLog answerLog
  cases s.material <;> simp

theorem concat_eq_append_cons {L pre post : List Action} {x y : Action}
    (h : L ++ [x] = pre ++ y :: post) :
    (pre = L ∧ y = x) ∨ ∃ post', L = pre ++ y :: post' := by
  rcases List.eq_nil_or_concat' post with rfl | ⟨post', z, rfl⟩
  · obtain ⟨hL, hx⟩ := List.append_inj' h rfl
    exact Or.inl ⟨hL.symm, (List.cons.inj hx).1.symm⟩
  · rw [← List.cons_append, ← List.append_assoc] at h
    exact Or.inr ⟨post', (List.append_inj' h rfl).1⟩

theorem Legal.received_inv {L : List Action} (h : s.Legal blake3 L) {pre post : List Action}
    {m : ControlMessage} (hL : L = pre ++ .received m :: post) :
    s.Milestone blake3 (pre ++ [.received m]) := by
  induction h generalizing post with
  | nil => simp at hL
  | sent m' h ih | confirmed b now h ih | trustIfGeneration hid hopen hnow h ih =>
    rcases concat_eq_append_cons hL with ⟨-, hx⟩ | ⟨post', hL'⟩
    · cases hx
    · exact ih hL'
  | received h hm ih =>
    rcases concat_eq_append_cons hL with ⟨rfl, hx⟩ | ⟨post', hL'⟩
    · cases hx; exact hm
    · exact ih hL'

theorem Legal.trustIfGeneration_inv {L : List Action} (h : s.Legal blake3 L)
    {pre post : List Action} {g : ℕ} {r : Except TrustStoreError Unit}
    (hL : L = pre ++ .trustIfGeneration g r :: post) :
    g = s.conn.trustGeneration ∧ ∃ id c n now, s.IsPairingId id ∧ s.Opens blake3 id c n ∧
      now < s.deadline ∧ pre = s.decisionLog blake3 id c n now := by
  induction h generalizing post with
  | nil => simp at hL
  | sent m' h ih | confirmed b now h ih | received h hm ih =>
    rcases concat_eq_append_cons hL with ⟨-, hx⟩ | ⟨post', hL'⟩
    · cases hx
    · exact ih hL'
  | @trustIfGeneration id c n now hid hopen hnow h ih =>
    rcases concat_eq_append_cons hL with ⟨rfl, hx⟩ | ⟨post', hL'⟩
    · cases hx
      exact ⟨rfl, id, c, n, now, hid, hopen, hnow, rfl⟩
    · exact ih hL'

end Setup

/-! ### Where an attempt stands -/

/-- The message that was received last, if the attempt has not taken it yet. -/
def heard (m : Option ControlMessage) : List Action := (m.map Action.received).toList

section Standing

variable (blake3 : Blake3) (s : Setup)

/-- A legal log, then at most one more message, then nothing but closing the connection. -/
def Traced (log : List Action) : Prop :=
  ∃ L m closes, s.Legal blake3 L ∧ log = L ++ heard m ++ closes ∧ ∀ x ∈ closes, x = .closed

/-- The attempt goes on: its connection is open, and its log is legal but for the message it looks
at. -/
structure Running (L : List Action) (m : Option ControlMessage) (a : Attempt) : Prop where
  log : a.log = L ++ heard m
  closed : a.closed = false
  control : a.control = true
  readyAt : a.readyAt = s.readyAt
  commitIo : a.commitIo = s.commitIo
  legal : s.Legal blake3 L
  store : a.store = s.storeAfter blake3 a.log

/-- The attempt is over: its connection is closed, and it did nothing else after a legal log or one
more message. -/
structure Ended (a : Attempt) : Prop where
  closed : a.closed = true
  log : Traced blake3 s a.log
  store : a.store = s.storeAfter blake3 a.log

variable {blake3 s} {L : List Action} {m : Option ControlMessage} {a : Attempt}

theorem Running.traced (h : Running blake3 s L m a) : Traced blake3 s a.log :=
  ⟨L, m, [], h.legal, by rw [h.log, List.append_nil], by simp⟩

theorem Running.close (h : Running blake3 s L m a) : Ended blake3 s a.close where
  closed := rfl
  log := ⟨L, m, [.closed], h.legal, by rw [Attempt.close, h.log], by simp⟩
  store := h.store.trans (Setup.storeAfter_concat rfl _).symm

theorem Running.poison (h : Running blake3 s L m a) : Ended blake3 s a.poison :=
  ⟨rfl, h.close.log, h.close.store⟩

theorem Ended.close (h : Ended blake3 s a) : Ended blake3 s a.close := by
  obtain ⟨L, m, closes, hL, hlog, hc⟩ := h.log
  refine ⟨rfl, ⟨L, m, closes ++ [.closed], hL, ?_, ?_⟩, ?_⟩
  · rw [Attempt.close, hlog, List.append_assoc]
  · intro x hx
    rcases List.mem_append.mp hx with hx | hx
    · exact hc x hx
    · simpa using hx
  · exact h.store.trans (Setup.storeAfter_concat rfl _).symm

theorem Running.taken {c : ControlMessage} (h : Running blake3 s L (some c) a)
    (hm : s.Milestone blake3 (L ++ [.received c])) :
    Running blake3 s (L ++ [.received c]) none a :=
  ⟨by simpa [heard] using h.log, h.closed, h.control, h.readyAt, h.commitIo, h.legal.received hm,
    h.store⟩

theorem Running.push (h : Running blake3 s L none a) {x : Action} (hc : x.isCommit = false)
    (hx : s.Legal blake3 (L ++ [x])) : Running blake3 s (L ++ [x]) none (a.push x) :=
  ⟨by simp [Attempt.push, h.log, heard], h.closed, h.control, h.readyAt, h.commitIo, hx,
    h.store.trans (Setup.storeAfter_concat hc _).symm⟩

theorem Running.sent (h : Running blake3 s L none a) (m : PairingMessage)
    (outbound : List Outbound) :
    Running blake3 s (L ++ [.sent m]) none { a.push (.sent m) with outbound } :=
  have h' := h.push rfl (h.legal.sent m)
  ⟨h'.log, h'.closed, h'.control, h'.readyAt, h'.commitIo, h'.legal, h'.store⟩

theorem Running.read (h : Running blake3 s L none a) (inbound : List Inbound) :
    Running blake3 s L none { a with inbound } :=
  ⟨h.log, h.closed, h.control, h.readyAt, h.commitIo, h.legal, h.store⟩

theorem Running.hear (h : Running blake3 s L none a) (c : ControlMessage) :
    Running blake3 s L (some c) (a.push (.received c)) :=
  ⟨by simp [Attempt.push, h.log, heard], h.closed, h.control, h.readyAt, h.commitIo, h.legal,
    h.store.trans (Setup.storeAfter_concat rfl _).symm⟩

end Standing

/-! ### Sending and receiving -/

section Programs

variable {blake3 : Blake3} {s : Setup} {L : List Action}

@[spec] theorem sendPairing_spec (m : PairingMessage) :
    ⦃fun a => ⌜Running blake3 s L none a⌝⦄ sendPairing m
    ⦃⇓ r a => ⌜match r with
      | .ok () => Running blake3 s (L ++ [.sent m]) none a
      | .error _ => Ended blake3 s a⌝⦄ := by
  mvcgen [sendPairing]
  case vc1.isTrue a h hc => exact absurd (hc.symm.trans h.control) (by simp)
  case vc2.isFalse.h_1 a h hc hout => exact h.sent m _
  case vc3.isFalse.h_2 a h hc error hout t => exact (h.sent m _).poison
  case vc4.isFalse.h_3 a h hc hout t => exact (h.sent m _).poison

@[spec] theorem receivePairing_spec :
    ⦃fun a => ⌜Running blake3 s L none a⌝⦄ receivePairing
    ⦃⇓ r a => ⌜match r with
      | .ok m => Running blake3 s L (some (.ofPairing m)) a
      | .error _ => Ended blake3 s a⌝⦄ := by
  mvcgen [receivePairing]
  case vc1.isTrue a h hc => exact absurd (hc.symm.trans h.control) (by simp)
  case vc2.isFalse.h_1.h_1 a h hc message hin t m hm =>
    rw [← ControlMessage.intoPairing_ok_iff.mp hm]
    exact (h.read _).hear message
  case vc3.isFalse.h_1.h_2 a h hc message hin t kind hm t' => exact ((h.read _).hear message).poison
  case vc4.isFalse.h_2 a h hc error hin t => exact (h.read _).poison
  case vc5.isFalse.h_3 a h hc hin t => exact (h.read _).poison

@[spec] theorem sendOrClose_spec (m : PairingMessage) (phase : PairingPhase) :
    ⦃fun a => ⌜Running blake3 s L none a⌝⦄ sendOrClose m phase
    ⦃post⟨fun _ a => ⌜Running blake3 s (L ++ [.sent m]) none a⌝,
      fun _ a => ⌜Ended blake3 s a⌝⟩⦄ := by
  mvcgen [sendOrClose]
  all_goals exact Ended.close ‹_›

@[spec] theorem receiveOrClose_spec (phase : PairingPhase) :
    ⦃fun a => ⌜Running blake3 s L none a⌝⦄ receiveOrClose phase
    ⦃post⟨fun m a => ⌜Running blake3 s L (some (.ofPairing m)) a⌝,
      fun _ a => ⌜Ended blake3 s a⌝⟩⦄ := by
  mvcgen [receiveOrClose]
  all_goals exact Ended.close ‹_›

/-! ### The drivers -/

variable (blake3 s) in
/-- A pending pairing and the log that led to it. -/
structure Ready (pending : PendingPairing) (L : List Action) : Prop where
  log : ∃ c n, s.Opens blake3 pending.pairingId c n ∧ L = s.revealLog blake3 pending.pairingId c n
  pairingId : s.IsPairingId pending.pairingId
  machine : pending.machine.pairingId = some pending.pairingId
  deadline : pending.localConfirmationDeadline = s.deadline
  trustGeneration : pending.trustGeneration = s.conn.trustGeneration
  peer : pending.peer = trustedPeerFromHello s.conn.peerHello

theorem Running.ready {a : Attempt} {reveal : PairingMessage} {pending : PendingPairing}
    {machine : PairingStateMachine} {c : PairingCommitment} {n : PairingNonce}
    (h : Running blake3 s
      (s.commitmentLog blake3 pending.pairingId c ++ s.answerLog blake3 pending.pairingId)
      (some (.ofPairing reveal)) a)
    (hr : machine.receiveReveal reveal = .ok (n, pending.machine))
    (hmid : machine.pairingId = some pending.pairingId) (hid : s.IsPairingId pending.pairingId)
    (hopen : s.Opens blake3 pending.pairingId c n)
    (hdeadline : pending.localConfirmationDeadline = a.readyAt + s.conn.pairingTimeout)
    (hgen : pending.trustGeneration = s.conn.trustGeneration)
    (hpeer : pending.peer = trustedPeerFromHello s.conn.peerHello) :
    ∃ L, Ready blake3 s pending L ∧ Running blake3 s L none a := by
  obtain ⟨⟨id, hid', rfl⟩, hmachine⟩ := PairingStateMachine.receiveReveal_ok hr
  obtain rfl : pending.pairingId = id := Option.some.inj (hmid.symm.trans hid')
  refine ⟨s.revealLog blake3 pending.pairingId c n, ?_, h.taken (.reveal hid hopen)⟩
  refine ⟨⟨c, n, hopen, rfl⟩, hid, ?_, ?_, hgen, hpeer⟩
  · rw [hmachine]; exact hmid
  · rw [hdeadline, h.readyAt, Setup.deadline]

theorem initiatePairing_spec {material : InitiatorPairingMaterial}
    (hm : s.material = .initiator material) :
    ⦃fun a => ⌜Running blake3 s [] none a⌝⦄ s.conn.initiatePairing blake3 material
    ⦃post⟨fun p a => ⌜∃ L, Ready blake3 s p L ∧ Running blake3 s L none a⌝,
      fun _ a => ⌜Ended blake3 s a⌝⟩⦄ := by
  have hid : s.IsPairingId material.pairingId := by rw [Setup.IsPairingId, hm]
  have hanswer : s.answerLog blake3 material.pairingId =
      [.sent (.reveal material.pairingId material.nonce)] := by rw [Setup.answerLog, hm]
  mvcgen [PairableConnection.initiatePairing, PairableConnection.requirePairingCapability, orClose]
  case vc5 r _ => exact s.commitmentLog blake3 material.pairingId r.1
  case vc6 h r hr =>
    obtain ⟨⟨id, hid', rfl⟩, -⟩ := PairingStateMachine.receiveResponse_ok hr
    obtain rfl : material.pairingId = id := Option.some.inj hid'
    have hlog : s.commitmentLog blake3 material.pairingId r.1 =
        [.sent (.request material.pairingId (.derive blake3 .initiator s.conn.localDeviceId s.peerId
          material.pairingId material.nonce))] ++
          [.received (.pairingResponse material.pairingId r.1)] := by
      rw [Setup.commitmentLog, hm]; rfl
    rw [hlog]
    exact h.taken (hlog ▸ .commitment hid)
  case vc9 r hr _ _ _ _ _ h r' hr' hv =>
    have hmachine := (PairingStateMachine.receiveResponse_ok hr).2
    rw [← hanswer] at h
    refine h.ready hr' ?_ hid ?_ rfl rfl rfl
    · rw [hmachine]; rfl
    · rw [Setup.Opens, hm]; exact hv
  all_goals exact Running.close ‹_›

theorem respondToPairing_spec {material : ResponderPairingMaterial}
    (hm : s.material = .responder material) :
    ⦃fun a => ⌜Running blake3 s [] none a⌝⦄ s.conn.respondToPairing blake3 material
    ⦃post⟨fun p a => ⌜∃ L, Ready blake3 s p L ∧ Running blake3 s L none a⌝,
      fun _ a => ⌜Ended blake3 s a⌝⟩⦄ := by
  have hid : ∀ id, s.IsPairingId id := fun id => by rw [Setup.IsPairingId, hm]; trivial
  have hlog : ∀ id c, s.commitmentLog blake3 id c = [] ++ [.received (.pairingRequest id c)] :=
    fun id c => by rw [Setup.commitmentLog, hm]; rfl
  have hanswer : ∀ id, s.answerLog blake3 id = [.sent (.response id (.derive blake3 .responder
      s.peerId s.conn.localDeviceId id material.nonce))] ++ [.sent (.reveal id material.nonce)] :=
    fun id => by rw [Setup.answerLog, hm]; rfl
  mvcgen [PairableConnection.respondToPairing, PairableConnection.requirePairingCapability, orClose]
  case vc3 r _ _ => exact s.commitmentLog blake3 r.1.1 r.1.2
  case vc4 h r hr own =>
    obtain ⟨rfl, -⟩ := PairingStateMachine.receiveRequest_ok hr
    rw [hlog]
    exact h.taken (hlog r.1.1 r.1.2 ▸ .commitment (hid _))
  case vc9 r hr own _ _ _ _ _ _ _ _ h r' hr' hv =>
    have hmachine := (PairingStateMachine.receiveRequest_ok hr).2
    rw [List.append_assoc] at h
    have h' : Running blake3 s (s.commitmentLog blake3 r.1.1 r.1.2 ++ s.answerLog blake3 r.1.1) _ _ :=
      hanswer r.1.1 ▸ h
    refine h'.ready hr' ?_ (hid _) ?_ rfl rfl rfl
    · rw [hmachine]
    · rw [Setup.Opens, hm]; exact hv
  all_goals exact Running.close ‹_›

/-! ### The confirmation -/

variable (blake3 s) in
/-- What a whole attempt that did not fail leaves behind. -/
def Finished (auth : Option AuthorizedConnection) (a : Attempt) : Prop :=
  match auth with
  | none => Ended blake3 s a
  | some auth => auth = ⟨s.conn.trustGeneration, trustedPeerFromHello s.conn.peerHello⟩ ∧
    (s.commit blake3).1 = .ok () ∧
    ∃ id c n now, s.IsPairingId id ∧ s.Opens blake3 id c n ∧ now < s.deadline ∧
      Running blake3 s (s.completionLog blake3 id c n now) none a

section Confirmation

variable {pending : PendingPairing} {c : PairingCommitment} {n : PairingNonce} {now : ℕ}

theorem commitTrust_spec (hp : Ready blake3 s pending (s.revealLog blake3 pending.pairingId c n))
    (hopen : s.Opens blake3 pending.pairingId c n) (hnow : now < s.deadline) :
    ⦃fun a => ⌜Running blake3 s (s.decisionLog blake3 pending.pairingId c n now) none a⌝⦄
    pending.commitTrust blake3
    ⦃⇓ r a => ⌜r = (s.commit blake3).1 ∧
      Running blake3 s (s.decisionLog blake3 pending.pairingId c n now ++
        [.trustIfGeneration s.conn.trustGeneration (s.commit blake3).1]) none a⌝⦄ := by
  mvcgen [PendingPairing.commitTrust]
  case vc1 a h =>
    have hlog : a.log = s.decisionLog blake3 pending.pairingId c n now := by
      simpa [heard] using h.log
    have hstore : a.store = s.store := by
      rw [h.store, hlog, Setup.storeAfter_decisionLog]
    have hcommit : trustIfGeneration blake3 a.store pending.peer pending.trustGeneration a.commitIo =
        s.commit blake3 := by
      rw [hstore, hp.trustGeneration, hp.peer, h.commitIo, Setup.commit]
    rw [hcommit, hp.trustGeneration]
    refine ⟨rfl, ?_, h.closed, h.control, h.readyAt, h.commitIo,
      .trustIfGeneration hp.pairingId hopen hnow h.legal, ?_⟩
    · simp [Attempt.push, hlog, heard]
    · simp [Setup.storeAfter, Attempt.push, Action.isCommit]

theorem commitAndComplete_spec
    (hp : Ready blake3 s pending (s.revealLog blake3 pending.pairingId c n))
    (hopen : s.Opens blake3 pending.pairingId c n) (hnow : now < s.deadline)
    {machine : PairingStateMachine} (hmachine : machine.pairingId = some pending.pairingId) :
    ⦃fun a => ⌜Running blake3 s (s.decisionLog blake3 pending.pairingId c n now) none a⌝⦄
    pending.commitAndComplete blake3 machine
    ⦃post⟨fun auth a => ⌜auth = ⟨pending.trustGeneration, pending.peer⟩ ∧
        (s.commit blake3).1 = .ok () ∧
        Running blake3 s (s.completionLog blake3 pending.pairingId c n now) none a⌝,
      fun _ a => ⌜Ended blake3 s a⌝⟩⦄ := by
  have hcommit := commitTrust_spec hp hopen hnow
  mvcgen [PendingPairing.commitAndComplete, hcommit, orClose]
  case vc2 h _ => exact h.2.close
  case vc9 h _ _ _ => exact h.2.close
  case vc3 =>
    exact s.decisionLog blake3 pending.pairingId c n now ++
      [.trustIfGeneration s.conn.trustGeneration (.ok ())]
  case vc4 h _ _ => exact h.1 ▸ h.2
  case vc7 hok _ hm _ _ _ _ _ h _ hr =>
    rw [PairingStateMachine.trustCommitted_ok hm] at hr
    obtain ⟨id, hid, rfl⟩ := PairingStateMachine.remoteCompletion_ok hr
    obtain rfl : pending.pairingId = id := Option.some.inj (hmachine.symm.trans hid)
    have hlog : s.completionLog blake3 pending.pairingId c n now =
        s.decisionLog blake3 pending.pairingId c n now ++
          [.trustIfGeneration s.conn.trustGeneration (.ok ())] ++
          [.sent (.complete pending.pairingId)] ++
          [.received (.pairingComplete pending.pairingId)] := by
      simp [Setup.completionLog]
    rw [hlog]
    exact ⟨trivial, hok.1.symm, h.taken (hlog ▸ .completion hp.pairingId hopen hnow hok.1.symm)⟩
  all_goals exact Running.close ‹_›

theorem confirm_spec (hp : Ready blake3 s pending (s.revealLog blake3 pending.pairingId c n))
    (hopen : s.Opens blake3 pending.pairingId c n) (accepted : Bool) (now : ℕ) :
    ⦃fun a => ⌜Running blake3 s (s.revealLog blake3 pending.pairingId c n) none a⌝⦄
    pending.confirm blake3 accepted now
    ⦃post⟨fun auth a => ⌜Finished blake3 s (some auth) a⌝, fun _ a => ⌜Ended blake3 s a⌝⟩⦄ := by
  have hcommit (hnow : now < s.deadline) (machine : PairingStateMachine)
      (hmachine : machine.pairingId = some pending.pairingId) :=
    commitAndComplete_spec hp hopen hnow hmachine
  have hdeadline := hp.deadline
  mvcgen [PendingPairing.confirm, hcommit, orClose]
  case vc1 h _ _ _ => exact (h.push rfl (h.legal.confirmed accepted now)).close
  case vc12 h _ _ _ _ _ => exact (h.push rfl (h.legal.confirmed accepted now)).close
  case vc2 => exact s.revealLog blake3 pending.pairingId c n ++ [.confirmed accepted now]
  case vc3 h _ _ _ _ => exact h.push rfl (h.legal.confirmed accepted now)
  case vc7 => omega
  case vc8 hm _ _ _ _ _ _ _ hr _ =>
    rw [PairingStateMachine.localDecision_ok hm] at hr
    rw [(PairingStateMachine.remoteDecision_ok hr).2]
    exact hp.machine
  case vc9 hnow machine hm _ _ _ _ _ h r hr hboth =>
    rw [PairingStateMachine.localDecision_ok hm] at hr
    obtain ⟨⟨id, hid, rfl⟩, -⟩ := PairingStateMachine.remoteDecision_ok hr
    obtain rfl : pending.pairingId = id := Option.some.inj (hp.machine.symm.trans hid)
    have haccepted : accepted = true := by simpa using fun hf => hboth (Or.inl hf)
    have hremote : r.1 = true := by simpa using fun hf => hboth (Or.inr hf)
    have hlog : s.decisionLog blake3 pending.pairingId c n now =
        s.revealLog blake3 pending.pairingId c n ++ [.confirmed true now] ++
          [.sent (.decision pending.pairingId true)] ++
          [.received (.pairingDecision pending.pairingId true)] := by
      simp [Setup.decisionLog]
    rw [haccepted, hremote] at h
    rw [hlog]
    exact h.taken (hlog ▸ .decision hp.pairingId hopen (by omega))
  case vc10 =>
    intro hauth hok h
    rw [hp.trustGeneration, hp.peer] at hauth
    exact ⟨hauth, hok, pending.pairingId, c, n, now, hp.pairingId, hopen, by omega, h⟩
  all_goals exact Running.close ‹_›

end Confirmation

end Programs

/-! ### Whole attempts -/

section Attempts

variable {blake3 : Blake3} {s : Setup}

@[spec] theorem startPairing_spec :
    ⦃fun a => ⌜Running blake3 s [] none a⌝⦄ s.conn.startPairing blake3 s.material
    ⦃post⟨fun p a => ⌜∃ L, Ready blake3 s p L ∧ Running blake3 s L none a⌝,
      fun _ a => ⌜Ended blake3 s a⌝⟩⦄ := by
  cases hm : s.material with
  | initiator material => exact initiatePairing_spec hm
  | responder material => exact respondToPairing_spec hm

@[spec] theorem confirm_ready_spec (pending : PendingPairing) (accepted : Bool) (now : ℕ) :
    ⦃fun a => ⌜∃ L, Ready blake3 s pending L ∧ Running blake3 s L none a⌝⦄
    pending.confirm blake3 accepted now
    ⦃post⟨fun auth a => ⌜Finished blake3 s (some auth) a⌝, fun _ a => ⌜Ended blake3 s a⌝⟩⦄ := by
  rintro a ⟨L, hp, h⟩
  obtain ⟨c, n, hopen, rfl⟩ := hp.log
  exact confirm_spec hp hopen accepted now a h

theorem pair_spec (decision : Option (Bool × ℕ)) :
    ⦃fun a => ⌜Running blake3 s [] none a⌝⦄ pair blake3 s.conn s.material decision
    ⦃post⟨fun auth a => ⌜Finished blake3 s auth a⌝, fun _ a => ⌜Ended blake3 s a⌝⟩⦄ := by
  mvcgen [pair, PendingPairing.settle]
  case vc2 h _ =>
    obtain ⟨L, -, h⟩ := h
    exact h.close

theorem pair_cases (decision : Option (Bool × ℕ)) (inbound : List Inbound)
    (outbound : List Outbound) :
    let run := (pair blake3 s.conn s.material decision).run.run
      (.start inbound outbound s.store s.commitIo s.readyAt)
    (∃ auth, run.1 = .ok (some auth) ∧ Finished blake3 s (some auth) run.2) ∨
      ((∀ auth, run.1 ≠ .ok (some auth)) ∧ Ended blake3 s run.2) := by
  intro run
  have hstart : Running blake3 s [] none (.start inbound outbound s.store s.commitIo s.readyAt) :=
    ⟨rfl, rfl, rfl, rfl, rfl, .nil, rfl⟩
  rcases cases_of_triple (pair_spec decision) hstart with ⟨auth, hr, h⟩ | ⟨e, hr, h⟩
  · rcases auth with _ | auth
    · exact Or.inr ⟨fun auth hr' => by simp [run, hr] at hr', h⟩
    · exact Or.inl ⟨auth, hr, h⟩
  · exact Or.inr ⟨fun auth hr' => by simp [run, hr] at hr', h⟩

theorem append_eq_append_cons {L X pre post : List Action} {y : Action}
    (h : L ++ X = pre ++ y :: post) :
    (∃ post', L = pre ++ y :: post') ∨ ∃ between, pre = L ++ between ∧ X = between ++ y :: post := by
  rcases List.append_eq_append_iff.mp h with ⟨between, hpre, hX⟩ | ⟨between, hL, hX⟩
  · exact Or.inr ⟨between, hpre, hX⟩
  · rcases between with _ | ⟨z, between⟩
    · exact Or.inr ⟨[], by simpa using hL.symm, by simpa using hX.symm⟩
    · obtain ⟨rfl, -⟩ := List.cons.inj hX
      exact Or.inl ⟨between, hL⟩

theorem Traced.trustIfGeneration_inv {log : List Action} (h : Traced blake3 s log)
    {pre post : List Action} {g : ℕ} {r : Except TrustStoreError Unit}
    (hlog : log = pre ++ .trustIfGeneration g r :: post) :
    g = s.conn.trustGeneration ∧ ∃ id c n now, s.IsPairingId id ∧ s.Opens blake3 id c n ∧
      now < s.deadline ∧ pre = s.decisionLog blake3 id c n now := by
  obtain ⟨L, m, closes, hL, hlog', hc⟩ := h
  rw [hlog', List.append_assoc] at hlog
  rcases append_eq_append_cons hlog with ⟨post', hsplit⟩ | ⟨between, -, hrest⟩
  · exact hL.trustIfGeneration_inv hsplit
  · have hmem : Action.trustIfGeneration g r ∈ heard m ++ closes := by rw [hrest]; simp
    rcases List.mem_append.mp hmem with hm | hm
    · rcases m with _ | m <;> simp [heard] at hm
    · exact absurd (hc _ hm) (by simp)

theorem Traced.received_inv {log : List Action} (h : Traced blake3 s log) {pre post : List Action}
    {m : ControlMessage} (hlog : log = pre ++ .received m :: post) :
    s.Milestone blake3 (pre ++ [.received m]) ∨ ∀ x ∈ post, x = .closed := by
  obtain ⟨L, m', closes, hL, hlog', hc⟩ := h
  have hnot : ∀ between, closes ≠ between ++ .received m :: post := by
    rintro between rfl
    exact absurd (hc (.received m) (by simp)) (by simp)
  rw [hlog', List.append_assoc] at hlog
  rcases append_eq_append_cons hlog with ⟨post', hsplit⟩ | ⟨between, -, hrest⟩
  · exact Or.inl (hL.received_inv hsplit)
  · rcases m' with _ | m'
    · exact absurd hrest (hnot between)
    · rcases between with _ | ⟨z, between⟩
      · obtain ⟨-, rfl⟩ := List.cons.inj hrest
        exact Or.inr hc
      · exact absurd (List.cons.inj hrest).2 (hnot between)

/-- **Pairing is safe against any peer.** Whatever the peer sends and whatever fails: trust is
committed only right after the exchange in which the peer committed to a nonce before the own nonce
was revealed, opened that commitment, and both sides accepted in time; a connection is authorized
only if that commit succeeded and the peer's completion came next; any other message ends the
attempt with its connection closed, and with the trust store untouched if it came before the commit.
The nonce is the only one that opens the commitment, unless BLAKE3 collides. -/
theorem pairing_safe_against_any_peer (blake3 : Blake3)
    (conn : PairableConnection) (material : Material) (decision : Option (Bool × ℕ))
    (inbound : List Inbound) (outbound : List Outbound) (store : StoreInner) (commitIo : IoOutcome)
    (readyAt : ℕ) :
    let s : Setup := ⟨conn, material, readyAt, store, commitIo⟩
    let run := (pair blake3 conn material decision).run.run
      (.start inbound outbound store commitIo readyAt)
    (∀ pre g r post, run.2.log = pre ++ .trustIfGeneration g r :: post →
      g = conn.trustGeneration ∧ ∃ id c n now, s.IsPairingId id ∧ s.Opens blake3 id c n ∧
        now < s.deadline ∧ pre = s.decisionLog blake3 id c n now ∧
        ∀ n', s.Opens blake3 id c n' →
          (blake3 (s.peerInput id n) = blake3 (s.peerInput id n') →
            s.peerInput id n = s.peerInput id n') → n' = n) ∧
    (∀ auth, run.1 = .ok (some auth) →
      trustIfGeneration blake3 store (trustedPeerFromHello conn.peerHello) conn.trustGeneration
        commitIo = (.ok (), run.2.store) ∧
      ∃ id c n now, s.IsPairingId id ∧ s.Opens blake3 id c n ∧ now < s.deadline ∧
        run.2.log = s.completionLog blake3 id c n now) ∧
    (∀ pre m post, run.2.log = pre ++ .received m :: post →
      ¬ s.Milestone blake3 (pre ++ [.received m]) →
      (∀ auth, run.1 ≠ .ok (some auth)) ∧ run.2.closed = true ∧ (∀ x ∈ post, x = .closed) ∧
        ((∀ g r, .trustIfGeneration g r ∉ pre) → run.2.store = store)) ∧
    ((∀ auth, run.1 ≠ .ok (some auth)) → run.2.closed = true) := by
  intro s run
  have hcases : (∃ auth, run.1 = .ok (some auth) ∧ Finished blake3 s (some auth) run.2) ∨
      ((∀ auth, run.1 ≠ .ok (some auth)) ∧ Ended blake3 s run.2) :=
    @pair_cases blake3 s decision inbound outbound
  have htraced : Traced blake3 s run.2.log := by
    rcases hcases with ⟨auth, -, -, -, id, c, n, now, -, -, -, h⟩ | ⟨-, h⟩
    · exact h.traced
    · exact h.log
  refine ⟨fun pre g r post hlog => ?_, fun auth hr => ?_, fun pre m post hlog hm => ?_, fun hr => ?_⟩
  · obtain ⟨hg, id, c, n, now, hid, hopen, hnow, hpre⟩ := htraced.trustIfGeneration_inv hlog
    exact ⟨hg, id, c, n, now, hid, hopen, hnow, hpre, fun n' h' hinj => hopen.unique h' hinj⟩
  · rcases hcases with ⟨auth', -, -, hok, id, c, n, now, hid, hopen, hnow, h⟩ | ⟨hne, -⟩
    · have hlog : run.2.log = s.completionLog blake3 id c n now := by simpa [heard] using h.log
      have hstore : run.2.store = (s.commit blake3).2 := by
        rw [h.store, hlog]
        simp [Setup.storeAfter, Setup.completionLog, Action.isCommit]
      refine ⟨?_, id, c, n, now, hid, hopen, hnow, hlog⟩
      rw [hstore, ← hok]
      rfl
    · exact absurd hr (hne auth)
  · rcases hcases with ⟨auth, -, -, -, id, c, n, now, -, -, -, h⟩ | ⟨hne, h⟩
    · have hlog' := h.log
      rw [hlog] at hlog'
      exact absurd (h.legal.received_inv (by simpa [heard] using hlog'.symm)) hm
    · have hpost := (h.log.received_inv hlog).resolve_left hm
      refine ⟨hne, h.closed, hpost, fun hpre => ?_⟩
      rw [h.store, Setup.storeAfter_of_not_mem]
      intro g r hmem
      rw [hlog] at hmem
      rcases List.mem_append.mp hmem with hmem | hmem
      · exact hpre g r hmem
      · rcases List.mem_cons.mp hmem with hmem | hmem
        · cases hmem
        · exact absurd (hpost _ hmem) (by simp)
  · rcases hcases with ⟨auth, hr', -⟩ | ⟨-, h⟩
    · exact absurd hr' (hr auth)
    · exact h.closed

-- A peer that keeps to the protocol is trusted and authorized.
example :
    let blake3 : Blake3 := fun _ => .replicate checksumLen 0
    let hello : Hello := ⟨1, .repeated 2, "pc", "linux", [.pairingV1]⟩
    let id : PairingId := .replicate pairingIdLen 7
    let peer : List Inbound := [.message (.pairingResponse id ⟨.replicate pairingCommitmentLen 0⟩),
      .message (.pairingReveal id (.replicate pairingNonceLen 9)),
      .message (.pairingDecision id true), .message (.pairingComplete id)]
    ((pair blake3 ⟨0, .repeated 1, hello, 60⟩ (.initiator ⟨id, .replicate pairingNonceLen 8⟩)
      (some (true, 59))).run.run (.start peer [] createdStore .ok 0)).1 =
        .ok (some ⟨0, ⟨.repeated 2, "pc", "linux"⟩⟩) := by
  decide +kernel

end Attempts

end Rift.Session
