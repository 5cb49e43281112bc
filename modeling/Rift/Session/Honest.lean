import Rift.Lib.Dialogue
import Rift.Session.Pairing

/-! # Honest pairings agree

Both roles of a pairing attempt as scripts of one dialogue over reliable channels, with every schedule
of their steps and of the two human decisions. The scripts are the drivers (`perform_pairScript`), and
what they do on a connection is done by some attempt (`pair_on_connection`).

The main definition is `Meeting.plan`, the main results `perform_pairScript`,
`pair_on_connection` and `honest_pairing_agreement`. -/

namespace Rift.Session

open Rift.Lib Rift.Lib.Dialogue Rift.Core Rift.Protocol Rift.Transport Rift.Trust Std.Do

set_option mvcgen.warning false

/-! ### Scripts -/

/-- What a role asks its own side: the human, who compares the code, and the trust store. -/
inductive Question
  | decision (code : ℕ)
  | trust (peer : TrustedPeer) (generation : ℕ)

/-- What is answered. -/
def Question.Answer : Question → Type
  | .decision _ => Bool
  | .trust _ _ => Except TrustStoreError Unit

/-- A party to a pairing. -/
abbrev PairingScript :=
  Script PairingMessage PairingPhase Question.Answer (Except PairingError AuthorizedConnection)

/-- A transition of the state machine; a failed one ends the script. -/
def orFail {α : Type} (transition : Except PairingError α) (next : α → PairingScript) :
    PairingScript :=
  match transition with
  | .ok value => next value
  | .error error => .done (.error error)

section Scripts

variable (blake3 : Blake3)

/-- What follows when both sides have accepted. -/
def PendingPairing.completeScript (pending : PendingPairing) (machine : PairingStateMachine) :
    PairingScript :=
  .ask (.trust pending.peer pending.trustGeneration) fun
    | .error error => .done (.error (.trust error))
    | .ok () =>
      orFail machine.trustCommitted fun machine =>
      .send machine.phase (.complete pending.pairingId) <|
      .receive machine.phase fun complete =>
      orFail (machine.remoteCompletion complete) fun _ =>
      .done (.ok { trustGeneration := pending.trustGeneration, peer := pending.peer })

/-- The local human decision, given in time. -/
def PendingPairing.confirmScript (pending : PendingPairing) : PairingScript :=
  .ask (.decision pending.code) fun (accepted : Bool) =>
  orFail (pending.machine.localDecision accepted) fun machine =>
  .send machine.phase (.decision pending.pairingId accepted) <|
  .receive machine.phase fun decision =>
  orFail (machine.remoteDecision decision) fun (remoteAccepted, machine) =>
  if accepted = false ∨ remoteAccepted = false then
    .done (.error (.rejected accepted remoteAccepted))
  else pending.completeScript machine

variable (conn : PairableConnection) (readyAt : ℕ)

/-- The initiator: commits, hears the other commitment, reveals and hears the other nonce. -/
def initiateScript (material : InitiatorPairingMaterial) : PairingScript :=
  if conn.supportsPairing then
    let peer := trustedPeerFromHello conn.peerHello
    let machine := PairingStateMachine.initiator material.pairingId
    let initiatorCommitment := PairingCommitment.derive blake3 .initiator conn.localDeviceId
      peer.deviceId material.pairingId material.nonce
    .send machine.phase (.request material.pairingId initiatorCommitment) <|
    .receive machine.phase fun response =>
    orFail (machine.receiveResponse response) fun (responderCommitment, machine) =>
    .send machine.phase (.reveal material.pairingId material.nonce) <|
    .receive machine.phase fun reveal =>
    orFail (machine.receiveReveal reveal) fun (responderNonce, machine) =>
    if responderCommitment.verifies blake3 .responder conn.localDeviceId peer.deviceId
        material.pairingId responderNonce then
      PendingPairing.confirmScript {
        peer
        pairingId := material.pairingId
        code := PairingTranscript.code blake3 ⟨conn.localDeviceId, peer.deviceId,
          material.pairingId, material.nonce, responderNonce⟩
        machine
        localConfirmationDeadline := readyAt + conn.pairingTimeout
        trustGeneration := conn.trustGeneration }
    else .done (.error (.commitmentMismatch .awaitingReveal))
  else .done (.error (.pairingUnsupported conn.peerHello.deviceId))

/-- The responder: hears a commitment, sends its own and its nonce, hears the nonce. -/
def respondScript (material : ResponderPairingMaterial) : PairingScript :=
  if conn.supportsPairing then
    let peer := trustedPeerFromHello conn.peerHello
    let machine := PairingStateMachine.responder
    .receive machine.phase fun request =>
    orFail (machine.receiveRequest request) fun ((pairingId, initiatorCommitment), machine) =>
    let responderCommitment := PairingCommitment.derive blake3 .responder peer.deviceId
      conn.localDeviceId pairingId material.nonce
    .send machine.phase (.response pairingId responderCommitment) <|
    .send machine.phase (.reveal pairingId material.nonce) <|
    .receive machine.phase fun reveal =>
    orFail (machine.receiveReveal reveal) fun (initiatorNonce, machine) =>
    if initiatorCommitment.verifies blake3 .initiator peer.deviceId conn.localDeviceId pairingId
        initiatorNonce then
      PendingPairing.confirmScript {
        peer
        pairingId
        code := PairingTranscript.code blake3 ⟨peer.deviceId, conn.localDeviceId, pairingId,
          initiatorNonce, material.nonce⟩
        machine
        localConfirmationDeadline := readyAt + conn.pairingTimeout
        trustGeneration := conn.trustGeneration }
    else .done (.error (.commitmentMismatch .awaitingReveal))
  else .done (.error (.pairingUnsupported conn.peerHello.deviceId))

/-- The script of a whole attempt. -/
def pairScript : Material → PairingScript
  | .initiator material => initiateScript blake3 conn readyAt material
  | .responder material => respondScript blake3 conn readyAt material

/-! ### The drivers perform their scripts -/

/-- One attempt goes by a script: it sends and receives on its connection, its human gives the
decision at the time `now`, and its trust store commits. -/
def perform (accepted : Bool) (now : ℕ) : PairingScript → Pairing AuthorizedConnection
  | .done (.ok authorized) => return authorized
  | .done (.error error) => do
    modify Attempt.close
    throw error
  | .send phase message next => do
    sendOrClose message phase
    perform accepted now next
  | .receive phase next => do
    let message ← receiveOrClose phase
    perform accepted now (next message)
  | .ask (.decision _) next => do
    modify fun a => a.push (.confirmed accepted now)
    perform accepted now (next accepted)
  | .ask (.trust peer generation) next => do
    let a ← get
    let (result, store) := trustIfGeneration blake3 a.store peer generation a.commitIo
    set { a.push (.trustIfGeneration generation result) with store }
    perform accepted now (next result)

theorem perform_orFail {α : Type} (accepted : Bool) (now : ℕ) (transition : Except PairingError α)
    (next : α → PairingScript) : perform blake3 accepted now (orFail transition next) =
      (do
        let value ← orClose transition
        perform blake3 accepted now (next value)) := by
  cases transition <;> rfl

theorem perform_ite (accepted : Bool) (now : ℕ) {c : Prop} [Decidable c] (s s' : PairingScript) :
    perform blake3 accepted now (if c then s else s') =
      if c then perform blake3 accepted now s else perform blake3 accepted now s' :=
  apply_ite ..

theorem perform_confirmScript {pending : PendingPairing} {accepted : Bool} {now : ℕ}
    (h : now < pending.localConfirmationDeadline) :
    perform blake3 accepted now pending.confirmScript = pending.confirm blake3 accepted now := by
  have hcomplete (machine : PairingStateMachine) :
      perform blake3 accepted now (pending.completeScript machine) =
        pending.commitAndComplete blake3 machine := by
    unfold PendingPairing.completeScript PendingPairing.commitAndComplete PendingPairing.commitTrust
    simp only [perform, bind_assoc, pure_bind]
    refine bind_congr fun a => ?_
    refine bind_congr fun _ => ?_
    cases (trustIfGeneration blake3 a.store pending.peer pending.trustGeneration a.commitIo).1 with
    | error e => rfl
    | ok _ =>
      simp only [perform_orFail, perform]
  unfold PendingPairing.confirmScript PendingPairing.confirm
  rw [if_neg (by omega)]
  simp only [perform, perform_orFail, perform_ite, hcomplete]

theorem run_bind_run {α β : Type} (x : Pairing α) (f : α → Pairing β) (a : Attempt) :
    (x >>= f).run.run a = match x.run.run a with
      | (.ok v, a') => (f v).run.run a'
      | (.error e, a') => (.error e, a') := by
  rw [ExceptT.run_bind, StateT.run_bind]
  rcases x.run.run a with ⟨e | v, a'⟩ <;> rfl

theorem run_bind_congr {α β : Type} {x : Pairing α} {f g : α → Pairing β} {a : Attempt}
    (h : ∀ v a', x.run.run a = (.ok v, a') → (f v).run.run a' = (g v).run.run a') :
    (x >>= f).run.run a = (x >>= g).run.run a := by
  rw [run_bind_run, run_bind_run]
  split
  · exact h _ _ (by assumption)
  · rfl

theorem readyAt_of_triple {α : Type} {x : Pairing α} {a a' : Attempt} {v : α}
    (hx : ⦃fun s => ⌜s.readyAt = a.readyAt⌝⦄ x
      ⦃post⟨fun _ s => ⌜s.readyAt = a.readyAt⌝, fun _ _ => ⌜True⌝⟩⦄)
    (h : x.run.run a = (.ok v, a')) : a'.readyAt = a.readyAt := by
  rcases cases_of_triple hx rfl with ⟨_, -, hr⟩ | ⟨_, he, -⟩
  · rwa [h] at hr
  · rw [h] at he
    cases he

theorem readyAt_of_send {message : PairingMessage} {phase : PairingPhase} {a a' : Attempt}
    {v : Unit} (h : (sendOrClose message phase).run.run a = (.ok v, a')) :
    a'.readyAt = a.readyAt := by
  refine readyAt_of_triple ?_ h
  mvcgen [sendOrClose, sendPairing]

theorem readyAt_of_receive {message : PairingMessage} {phase : PairingPhase} {a a' : Attempt}
    (h : (receiveOrClose phase).run.run a = (.ok message, a')) : a'.readyAt = a.readyAt := by
  refine readyAt_of_triple ?_ h
  mvcgen [receiveOrClose, receivePairing]

theorem readyAt_of_orClose {α : Type} {transition : Except PairingError α} {v : α} {a a' : Attempt}
    (h : (orClose transition).run.run a = (.ok v, a')) : a'.readyAt = a.readyAt := by
  cases transition with
  | error e => cases h
  | ok v => cases h; rfl

theorem run_get_bind {α β : Type} (f : Attempt → α) (k : α → Pairing β) (a : Attempt) :
    (((get >>= fun s => pure (f s) : Pairing α) >>= k).run.run a) = (k (f a)).run.run a := rfl

/-- **A driver performs its script**, if the decision comes in time. -/
theorem perform_pairScript {material : Material} {accepted : Bool} {now : ℕ} {a : Attempt}
    (h : now < a.readyAt + conn.pairingTimeout) :
    (pair blake3 conn material (some (accepted, now))).run.run a =
      (some <$> perform blake3 accepted now (pairScript blake3 conn a.readyAt material)).run.run a := by
  have hsettle (pending : PendingPairing) (hp : now < pending.localConfirmationDeadline) :
      pending.settle blake3 (some (accepted, now)) =
        some <$> perform blake3 accepted now pending.confirmScript := by
    rw [perform_confirmScript blake3 hp]
    unfold PendingPairing.settle
    rw [map_eq_pure_bind]
  cases material with
  | initiator material =>
    unfold pair PairableConnection.startPairing PairableConnection.initiatePairing pairScript
      initiateScript PairableConnection.requirePairingCapability
    by_cases hc : conn.supportsPairing = true
    · simp only [hc, if_true, pure_bind, bind_assoc, perform, map_bind, perform_orFail]
      refine run_bind_congr fun _ a₁ h₁ => run_bind_congr fun _ a₂ h₂ => run_bind_congr fun _ a₃ h₃ =>
        run_bind_congr fun _ a₄ h₄ => run_bind_congr fun _ a₅ h₅ => run_bind_congr fun _ a₆ h₆ => ?_
      have hready : a₆.readyAt = a.readyAt := by
        rw [readyAt_of_orClose h₆, readyAt_of_receive h₅, readyAt_of_send h₄, readyAt_of_orClose h₃,
          readyAt_of_receive h₂, readyAt_of_send h₁]
      rw [perform_ite]
      split_ifs
      · rw [run_get_bind, hready, hsettle _ h]
      · rfl
    · simp only [hc]
      rfl
  | responder material =>
    unfold pair PairableConnection.startPairing PairableConnection.respondToPairing pairScript
      respondScript PairableConnection.requirePairingCapability
    by_cases hc : conn.supportsPairing = true
    · simp only [hc, if_true, pure_bind, bind_assoc, perform, map_bind, perform_orFail]
      refine run_bind_congr fun _ a₁ h₁ => run_bind_congr fun _ a₂ h₂ => run_bind_congr fun _ a₃ h₃ =>
        run_bind_congr fun _ a₄ h₄ => run_bind_congr fun _ a₅ h₅ => run_bind_congr fun _ a₆ h₆ => ?_
      have hready : a₆.readyAt = a.readyAt := by
        rw [readyAt_of_orClose h₆, readyAt_of_receive h₅, readyAt_of_send h₄, readyAt_of_send h₃,
          readyAt_of_orClose h₂, readyAt_of_receive h₁]
      rw [perform_ite]
      split_ifs
      · rw [run_get_bind, hready, hsettle _ h]
      · rfl
    · simp only [hc]
      rfl

end Scripts

/-! ### Attempts and connections -/

section OnConnection

variable {S R : Type} [AsyncRead R] [AsyncWrite S] [Clocked R] [Clocked S]

/-- What a failed call on the control stream makes of a pairing. -/
def callFailure (phase : PairingPhase) : TransportError → PairingError
  | .controlTimeout => .timeout phase
  | source => .transport phase source

/-- A pairing goes by a script on the control stream of a connection. -/
def performOn (blake3 : Blake3) (accepted : Bool) (commitIo : IoOutcome) :
    PairingScript → StoreInner → Connection S R →
      Except PairingError AuthorizedConnection × StoreInner × Connection S R
  | .done (.ok authorized), store, c => (.ok authorized, store, c)
  | .done (.error error), store, c => (.error error, store, { c with closed := true })
  | .send phase message next, store, c =>
    match c.sendPairing message with
    | (.ok (), c) => performOn blake3 accepted commitIo next store c
    | (.error error, c) => (.error (callFailure phase error), store, { c with closed := true })
  | .receive phase next, store, c =>
    match c.receivePairing with
    | (.ok message, c) => performOn blake3 accepted commitIo (next message) store c
    | (.error error, c) => (.error (callFailure phase error), store, { c with closed := true })
  | .ask (.decision _) next, store, c => performOn blake3 accepted commitIo (next accepted) store c
  | .ask (.trust peer generation) next, store, c =>
    let (result, store) := trustIfGeneration blake3 store peer generation commitIo
    performOn blake3 accepted commitIo (next result) store c

/-- What a write of the stream is to an attempt. -/
def Outbound.ofWrite : Except FrameError Unit × S → Outbound
  | (.ok (), _) => .written
  | (.error error, send) => if Clocked.expired send then .timeout else .frame error

/-- What a read of the stream is to an attempt. -/
def Inbound.ofRead : Except FrameError ControlMessage × R → Inbound
  | (.ok value, _) => .message value
  | (.error error, recv) => if Clocked.expired recv then .timeout else .frame error

/-- The attempt is where the connection is, with this trust store and this disk. -/
structure Attempt.On (a : Attempt) (store : StoreInner) (commitIo : IoOutcome)
    (c : Connection S R) : Prop where
  control : a.control = c.control
  closed : a.closed = c.closed
  store : a.store = store
  commitIo : a.commitIo = commitIo

variable {a : Attempt} {store : StoreInner} {commitIo : IoOutcome} {c : Connection S R}

omit [AsyncRead R] [Clocked R] in
theorem Attempt.On.sendOrClose (h : a.On store commitIo c) (phase : PairingPhase)
    {message : PairingMessage} {rest : List Outbound}
    (hnext : a.outbound = .ofWrite (writeMessage c.send (.ofPairing message)) :: rest) :
    match c.sendPairing message, (sendOrClose message phase).run.run a with
    | (.ok (), c'), (result, a') =>
      result = .ok () ∧ a'.On store commitIo c' ∧ a'.inbound = a.inbound ∧ a'.outbound = rest
    | (.error error, c'), (result, a') => result = .error (callFailure phase error) ∧
      a'.On store commitIo { c' with closed := true } := by
  obtain ⟨inbound, outbound, store, commitIo, readyAt, open', closed', log⟩ := a
  obtain ⟨send, recv, control, intentPhase, closed⟩ := c
  obtain ⟨rfl : open' = control, rfl : closed' = closed, rfl, rfl⟩ := h
  obtain rfl : outbound = _ := hnext
  cases open' with
  | false => exact ⟨rfl, rfl, rfl, rfl, rfl⟩
  | true =>
    simp only [Connection.sendPairing, Connection.sendMessage, Bool.true_eq_false, if_false]
    rcases writeMessage send (.ofPairing message) with ⟨error | ⟨⟩, send⟩
    · simp only [Connection.fail, Outbound.ofWrite]
      split_ifs <;> exact ⟨rfl, rfl, rfl, rfl, rfl⟩
    · exact ⟨rfl, ⟨rfl, rfl, rfl, rfl⟩, rfl, rfl⟩

omit [AsyncWrite S] [Clocked S] in
theorem Attempt.On.receiveOrClose (h : a.On store commitIo c) (phase : PairingPhase)
    {rest : List Inbound} (hnext : a.inbound = .ofRead (readMessage c.recv) :: rest) :
    match c.receivePairing, (receiveOrClose phase).run.run a with
    | (.ok message, c'), (result, a') =>
      result = .ok message ∧ a'.On store commitIo c' ∧ a'.inbound = rest ∧ a'.outbound = a.outbound
    | (.error error, c'), (result, a') => result = .error (callFailure phase error) ∧
      a'.On store commitIo { c' with closed := true } := by
  obtain ⟨inbound, outbound, store, commitIo, readyAt, open', closed', log⟩ := a
  obtain ⟨send, recv, control, intentPhase, closed⟩ := c
  obtain ⟨rfl : open' = control, rfl : closed' = closed, rfl, rfl⟩ := h
  obtain rfl : inbound = _ := hnext
  cases open' with
  | false => exact ⟨rfl, rfl, rfl, rfl, rfl⟩
  | true =>
    simp only [Connection.receivePairing, Connection.receiveMessage, Bool.true_eq_false, if_false]
    rcases readMessage recv with ⟨error | message, recv⟩
    · simp only [Connection.fail, Inbound.ofRead]
      split_ifs <;> exact ⟨rfl, rfl, rfl, rfl, rfl⟩
    · cases message <;>
        first
        | exact ⟨rfl, ⟨rfl, rfl, rfl, rfl⟩, rfl, rfl⟩
        | exact ⟨rfl, rfl, rfl, rfl, rfl⟩

/-- **A script on a connection is performed by an attempt**: whatever the streams do, there are reads
and writes with which the attempt comes to the same. -/
theorem exists_attempt (blake3 : Blake3) (accepted : Bool) (now : ℕ)
    (commitIo : IoOutcome) (script : PairingScript) (store : StoreInner) (c : Connection S R) :
    ∃ inbound outbound, ∀ a : Attempt, a.On store commitIo c → a.inbound = inbound →
      a.outbound = outbound →
      match performOn blake3 accepted commitIo script store c,
        (perform blake3 accepted now script).run.run a with
      | (result, store', c'), (result', a') => result' = result ∧ a'.On store' commitIo c' := by
  induction script generalizing store c with
  | done result =>
    refine ⟨[], [], fun a h _ _ => ?_⟩
    cases result with
    | ok authorized => exact ⟨rfl, h⟩
    | error error => exact ⟨rfl, h.control, rfl, h.store, h.commitIo⟩
  | send phase message next ih =>
    rcases hsend : c.sendPairing message with ⟨error | ⟨⟩, c'⟩
    · refine ⟨[], [.ofWrite (writeMessage c.send (.ofPairing message))], fun a h _ hout => ?_⟩
      have hcall := h.sendOrClose phase hout
      rcases hrun : (sendOrClose message phase).run.run a with ⟨result, a'⟩
      simp only [hsend, hrun] at hcall
      obtain ⟨rfl, hon⟩ := hcall
      simp only [performOn, perform, hsend, run_bind_run, hrun, true_and]
      exact hon
    · obtain ⟨inbound, outbound, hnext⟩ := ih store c'
      refine ⟨inbound, .ofWrite (writeMessage c.send (.ofPairing message)) :: outbound,
        fun a h hin hout => ?_⟩
      have hcall := h.sendOrClose phase hout
      rcases hrun : (sendOrClose message phase).run.run a with ⟨result, a'⟩
      simp only [hsend, hrun] at hcall
      obtain ⟨rfl, hon, hin', hout'⟩ := hcall
      simp only [performOn, perform, hsend, run_bind_run, hrun]
      exact hnext a' hon (hin'.trans hin) hout'
  | receive phase next ih =>
    rcases hreceive : c.receivePairing with ⟨error | message, c'⟩
    · refine ⟨[.ofRead (readMessage c.recv)], [], fun a h hin _ => ?_⟩
      have hcall := h.receiveOrClose phase hin
      rcases hrun : (receiveOrClose phase).run.run a with ⟨result, a'⟩
      simp only [hreceive, hrun] at hcall
      obtain ⟨rfl, hon⟩ := hcall
      simp only [performOn, perform, hreceive, run_bind_run, hrun, true_and]
      exact hon
    · obtain ⟨inbound, outbound, hnext⟩ := ih message store c'
      refine ⟨.ofRead (readMessage c.recv) :: inbound, outbound, fun a h hin hout => ?_⟩
      have hcall := h.receiveOrClose phase hin
      rcases hrun : (receiveOrClose phase).run.run a with ⟨result, a'⟩
      simp only [hreceive, hrun] at hcall
      obtain ⟨rfl, hon, hin', hout'⟩ := hcall
      simp only [performOn, perform, hreceive, run_bind_run, hrun]
      exact hnext a' hon hin' (hout'.trans hout)
  | ask question next ih =>
    cases question with
    | decision code =>
      obtain ⟨inbound, outbound, hnext⟩ := ih accepted store c
      refine ⟨inbound, outbound, fun a h hin hout => ?_⟩
      exact hnext (a.push (.confirmed accepted now)) ⟨h.control, h.closed, h.store, h.commitIo⟩ hin hout
    | trust peer generation =>
      rcases hcommit : trustIfGeneration blake3 store peer generation commitIo with ⟨result, store'⟩
      obtain ⟨inbound, outbound, hnext⟩ := ih result store' c
      refine ⟨inbound, outbound, fun a h hin hout => ?_⟩
      have hrun : (perform blake3 accepted now (.ask (.trust peer generation) next)).run.run a =
          let r := trustIfGeneration blake3 a.store peer generation a.commitIo
          (perform blake3 accepted now (next r.1)).run.run
            { a.push (.trustIfGeneration generation r.1) with store := r.2 } := rfl
      simp only [performOn, hrun, h.store, h.commitIo, hcommit]
      exact hnext _ ⟨h.control, h.closed, rfl, h.commitIo⟩ hin hout

/-- **A pairing on a connection is an attempt**, if the decision comes in time: whatever the streams
do, the driver comes on some attempt to what its script comes to on the connection. -/
theorem pair_on_connection (blake3 : Blake3) (conn : PairableConnection)
    (material : Material) {accepted : Bool} {now readyAt : ℕ} (h : now < readyAt + conn.pairingTimeout)
    (commitIo : IoOutcome) (store : StoreInner) (c : Connection S R) (hcontrol : c.control = true)
    (hopen : c.closed = false) : ∃ inbound outbound,
      match performOn blake3 accepted commitIo (pairScript blake3 conn readyAt material) store c,
        (pair blake3 conn material (some (accepted, now))).run.run
          (.start inbound outbound store commitIo readyAt) with
      | (result, store', c'), (result', a') =>
        result' = result.map some ∧ a'.On store' commitIo c' := by
  obtain ⟨inbound, outbound, hattempt⟩ := exists_attempt blake3 accepted now commitIo
    (pairScript blake3 conn readyAt material) store c
  let a := Attempt.start inbound outbound store commitIo readyAt
  have hdriver : (pair blake3 conn material (some (accepted, now))).run.run a =
      (some <$> perform blake3 accepted now (pairScript blake3 conn readyAt material)).run.run a :=
    perform_pairScript blake3 conn h
  have hsame := hattempt a ⟨hcontrol.symm, hopen.symm, rfl, rfl⟩ rfl rfl
  refine ⟨inbound, outbound, ?_⟩
  rw [hdriver, map_eq_pure_bind, run_bind_run]
  revert hsame
  rcases performOn blake3 accepted commitIo (pairScript blake3 conn readyAt material) store c with
    ⟨result, store', c'⟩
  rcases (perform blake3 accepted now (pairScript blake3 conn readyAt material)).run.run a with
    ⟨result', a'⟩
  rintro ⟨rfl, hon⟩
  cases result' <;> exact ⟨rfl, hon⟩

end OnConnection

/-! ### Two honest roles -/

instance : Nonempty TransportError := ⟨.controlTimeout⟩

/-- Two devices that meet to pair: an initiator and a responder connected to each other, which both
support pairing, with any material, any human decisions and any answers of their trust stores. -/
structure Meeting where
  connection : Party → PairableConnection
  meets : ∀ p, (connection p).peerHello.deviceId = (connection p.other).localDeviceId
  supported : ∀ p, (connection p).supportsPairing = true
  pairingId : PairingId
  nonce : Party → PairingNonce
  accepted : Party → Bool
  commit : Party → Except TrustStoreError Unit
  readyAt : Party → ℕ

example (pairingId : PairingId) (nonce : Party → PairingNonce) (accepted : Party → Bool)
    (commit : Party → Except TrustStoreError Unit) : Meeting where
  connection
    | .first => ⟨0, .repeated 1, ⟨1, .repeated 2, "responder", "linux", [.pairingV1]⟩, 60⟩
    | .second => ⟨0, .repeated 2, ⟨1, .repeated 1, "initiator", "linux", [.pairingV1]⟩, 60⟩
  meets p := by cases p <;> rfl
  supported p := by cases p <;> rfl
  readyAt _ := 0
  pairingId := pairingId
  nonce := nonce
  accepted := accepted
  commit := commit

namespace Meeting

variable (blake3 : Blake3) (meeting : Meeting)

/-- What each party brings. -/
def material : Party → Material
  | .first => .initiator ⟨meeting.pairingId, meeting.nonce .first⟩
  | .second => .responder ⟨meeting.nonce .second⟩

/-- What each party does. -/
def script (p : Party) : PairingScript :=
  pairScript blake3 (meeting.connection p) (meeting.readyAt p) (meeting.material p)

/-- A side answers with the decision of its human and the commit of its store; it closes the
connection when it fails. -/
def setting : Setting PairingPhase TransportError Question.Answer
    (Except PairingError AuthorizedConnection) where
  answer p
    | .decision _ => meeting.accepted p
    | .trust _ _ => meeting.commit p
  lost phase source := .error (.transport phase source)
  closes
    | .ok _ => false
    | .error _ => true

/-- The transcript that both sides see. -/
def transcript : PairingTranscript where
  initiatorDeviceId := (meeting.connection .first).localDeviceId
  responderDeviceId := (meeting.connection .second).localDeviceId
  pairingId := meeting.pairingId
  initiatorNonce := meeting.nonce .first
  responderNonce := meeting.nonce .second

/-- The peer that a party would trust. -/
def peer (p : Party) : TrustedPeer := trustedPeerFromHello (meeting.connection p).peerHello

def role : Party → PairingRole
  | .first => .initiator
  | .second => .responder

def commitmentRole : Party → PairingCommitmentRole
  | .first => .initiator
  | .second => .responder

/-- The commitment of a party. -/
def commitment (p : Party) : PairingCommitment :=
  .derive blake3 (commitmentRole p) (meeting.connection .first).localDeviceId
    (meeting.connection .second).localDeviceId meeting.pairingId (meeting.nonce p)

/-- The state machine of a side in a phase. -/
def machine (p : Party) (phase : PairingPhase) (localAccepted remoteAccepted : Option Bool) :
    PairingStateMachine :=
  { role := role p, phase, pairingId := some meeting.pairingId, localAccepted, remoteAccepted }

/-- The pending pairing that each human is shown. -/
def pending (p : Party) : PendingPairing where
  peer := meeting.peer p
  pairingId := meeting.pairingId
  code := meeting.transcript.code blake3
  machine := meeting.machine p .awaitingLocalDecision none none
  localConfirmationDeadline := meeting.readyAt p + (meeting.connection p).pairingTimeout
  trustGeneration := (meeting.connection p).trustGeneration

abbrev Done := List (Act PairingMessage Question.Answer)

/-- What a side does before its human decides. -/
def opening : Party → Done
  | .first => [
      .sent (.request meeting.pairingId (meeting.commitment blake3 .first)),
      .received (.response meeting.pairingId (meeting.commitment blake3 .second)),
      .sent (.reveal meeting.pairingId (meeting.nonce .first)),
      .received (.reveal meeting.pairingId (meeting.nonce .second))]
  | .second => [
      .received (.request meeting.pairingId (meeting.commitment blake3 .first)),
      .sent (.response meeting.pairingId (meeting.commitment blake3 .second)),
      .sent (.reveal meeting.pairingId (meeting.nonce .second)),
      .received (.reveal meeting.pairingId (meeting.nonce .first))]

/-! #### The transitions of honest messages -/

section Transitions

variable {p : Party} {b : Bool} {l r : Option Bool} {c : PairingCommitment} {n : PairingNonce}

theorem receiveRequest_honest : PairingStateMachine.responder.receiveRequest
    (.request meeting.pairingId c) =
      .ok ((meeting.pairingId, c), meeting.machine .second .awaitingReveal none none) := rfl

theorem receiveResponse_honest : (PairingStateMachine.initiator meeting.pairingId).receiveResponse
    (.response meeting.pairingId c) = .ok (c, meeting.machine .first .awaitingReveal none none) := by
  simp [PairingStateMachine.receiveResponse, PairingStateMachine.requireActive,
    PairingStateMachine.requirePairingId, PairingStateMachine.initiator, machine, role, bind,
    Except.bind, pure, Except.pure]

theorem receiveReveal_honest : (meeting.machine p .awaitingReveal l r).receiveReveal
    (.reveal meeting.pairingId n) = .ok (n, meeting.machine p .awaitingLocalDecision l r) := by
  simp [PairingStateMachine.receiveReveal, PairingStateMachine.requireActive,
    PairingStateMachine.requirePairingId, machine, bind, Except.bind, pure, Except.pure]

theorem localDecision_honest : (meeting.machine p .awaitingLocalDecision none r).localDecision b =
    .ok (meeting.machine p .awaitingRemoteDecision (some b) r) := rfl

theorem remoteDecision_honest {accepted : Bool} :
    (meeting.machine p .awaitingRemoteDecision (some accepted) none).remoteDecision
      (.decision meeting.pairingId b) = .ok (b, meeting.machine p
        (if accepted = true ∧ b = true then .committingTrust else .rejected) (some accepted)
        (some b)) := by
  simp [PairingStateMachine.remoteDecision, PairingStateMachine.requireActive,
    PairingStateMachine.requirePairingId, machine, bind, Except.bind, pure, Except.pure]

theorem trustCommitted_honest : (meeting.machine p .committingTrust l r).trustCommitted =
    .ok (meeting.machine p .awaitingCompletion l r) := rfl

theorem remoteCompletion_honest : (meeting.machine p .awaitingCompletion l r).remoteCompletion
    (.complete meeting.pairingId) = .ok (meeting.machine p .complete l r) := by
  simp [PairingStateMachine.remoteCompletion, PairingStateMachine.requireActive,
    PairingStateMachine.requirePairingId, machine, bind, Except.bind, pure, Except.pure]

end Transitions

theorem follows_opening (p : Party) : Follows (meeting.setting.answer p) (meeting.script blake3 p)
    (meeting.opening blake3 p) (meeting.pending blake3 p).confirmScript := by
  have hpeer (p : Party) : (trustedPeerFromHello (meeting.connection p).peerHello).deviceId =
      (meeting.connection p.other).localDeviceId := meeting.meets p
  cases p with
  | first =>
    unfold script pairScript material initiateScript opening commitment commitmentRole
    simp only [meeting.supported .first, if_true, hpeer]
    refine .send (.receive ?_)
    simp only [receiveResponse_honest, orFail]
    refine .send (.receive ?_)
    simp only [receiveReveal_honest, PairingCommitment.verifies, decide_true, if_true, Party.other]
    exact .refl _
  | second =>
    unfold script pairScript material respondScript opening commitment commitmentRole
    simp only [meeting.supported .second, if_true, hpeer]
    refine .receive ?_
    simp only [receiveRequest_honest, orFail]
    refine .send (.send (.receive ?_))
    simp only [receiveReveal_honest, PairingCommitment.verifies, decide_true, if_true, Party.other]
    exact .refl _

/-- Both humans have accepted. -/
def agreed : Bool := meeting.accepted .first && meeting.accepted .second

/-- What a side does once its human decides. -/
def closing (p : Party) : Done :=
  [.asked (.decision (meeting.transcript.code blake3)) (meeting.accepted p),
    .sent (.decision meeting.pairingId (meeting.accepted p)),
    .received (.decision meeting.pairingId (meeting.accepted p.other))]

/-- What a side does once both have accepted: it commits, and completes if the commits succeed. -/
def committing (p : Party) : Done :=
  .asked (.trust (meeting.peer p) (meeting.connection p).trustGeneration) (meeting.commit p) ::
    match meeting.commit p, meeting.commit p.other with
    | .error _, _ => []
    | .ok (), .error _ => [.sent (.complete meeting.pairingId)]
    | .ok (), .ok () => [.sent (.complete meeting.pairingId), .received (.complete meeting.pairingId)]

/-- All that a party does if nothing is lost. -/
def trace (p : Party) : Done :=
  meeting.opening blake3 p ++ (meeting.closing blake3 p ++
    if meeting.agreed = true then meeting.committing p else [])

theorem answer_trust (p : Party) (peer : TrustedPeer) (generation : ℕ) :
    meeting.setting.answer p (.trust peer generation) = meeting.commit p := rfl

theorem agreed_iff (p : Party) :
    meeting.agreed = true ↔ meeting.accepted p = true ∧ meeting.accepted p.other = true := by
  unfold agreed
  cases p <;> simp [Party.other, and_comm]

/-- The connection that a party ends up with. -/
def authorized (p : Party) : AuthorizedConnection where
  trustGeneration := (meeting.connection p).trustGeneration
  peer := meeting.peer p

/-- Where a side is that has completed and waits for the other to complete. -/
def waiting (p : Party) : PairingScript :=
  .receive .awaitingCompletion fun complete =>
    orFail ((meeting.machine p .awaitingCompletion (some (meeting.accepted p))
      (some (meeting.accepted p.other))).remoteCompletion complete) fun _ =>
    .done (.ok (meeting.authorized p))

/-- Where a party is after its trace. -/
def final (p : Party) : PairingScript :=
  if meeting.agreed = true then
    match meeting.commit p, meeting.commit p.other with
    | .error e, _ => .done (.error (.trust e))
    | .ok (), .error _ => meeting.waiting p
    | .ok (), .ok () => .done (.ok (meeting.authorized p))
  else .done (.error (.rejected (meeting.accepted p) (meeting.accepted p.other)))

theorem follows_closing (p : Party) :
    Follows (meeting.setting.answer p) (meeting.pending blake3 p).confirmScript
      (meeting.closing blake3 p)
      (if meeting.agreed = true then (meeting.pending blake3 p).completeScript
        (meeting.machine p .committingTrust (some (meeting.accepted p))
          (some (meeting.accepted p.other)))
      else .done (.error (.rejected (meeting.accepted p) (meeting.accepted p.other)))) := by
  have hagreed := meeting.agreed_iff p
  unfold PendingPairing.confirmScript closing
  refine .ask ?_
  change Follows _ (orFail ((meeting.machine p .awaitingLocalDecision none none).localDecision
    (meeting.accepted p)) _) _ _
  simp only [localDecision_honest, orFail]
  refine .send (.receive ?_)
  change Follows _ (orFail ((meeting.machine p .awaitingRemoteDecision (some (meeting.accepted p))
    none).remoteDecision (.decision meeting.pairingId (meeting.accepted p.other)))
    fun (remoteAccepted, machine) =>
      if meeting.accepted p = false ∨ remoteAccepted = false then
        .done (.error (.rejected (meeting.accepted p) remoteAccepted))
      else (meeting.pending blake3 p).completeScript machine) _ _
  rw [remoteDecision_honest]
  by_cases h : meeting.agreed = true
  · obtain ⟨hp, ho⟩ := hagreed.mp h
    simp only [orFail, h, hp, ho]
    exact .refl _
  · have hrejected : meeting.accepted p = false ∨ meeting.accepted p.other = false := by
      rw [hagreed, not_and_or, Bool.not_eq_true, Bool.not_eq_true] at h
      exact h
    simp only [orFail, if_neg h, if_pos hrejected]
    exact .refl _

theorem follows_committing (p : Party) (h : meeting.agreed = true) :
    Follows (meeting.setting.answer p) ((meeting.pending blake3 p).completeScript
      (meeting.machine p .committingTrust (some (meeting.accepted p))
        (some (meeting.accepted p.other)))) (meeting.committing p) (meeting.final p) := by
  unfold PendingPairing.completeScript committing final
  rw [if_pos h]
  refine .ask ?_
  simp only [meeting.answer_trust]
  cases hp : meeting.commit p with
  | error e => exact .refl _
  | ok _ =>
    simp only [trustCommitted_honest, orFail]
    cases ho : meeting.commit p.other with
    | error e => exact .send (.refl _)
    | ok _ =>
      refine .send (.receive ?_)
      simp only [remoteCompletion_honest]
      exact .refl _

/-! #### The plan of a meeting -/

theorem receivedBy_opening (p : Party) :
    receivedBy (meeting.opening blake3 p) = sentBy (meeting.opening blake3 p.other) := by
  cases p <;> rfl

theorem length_sentBy_opening (p : Party) : (sentBy (meeting.opening blake3 p)).length = 2 := by
  cases p <;> rfl

theorem receivedBy_closing (p : Party) :
    receivedBy (meeting.closing blake3 p) = sentBy (meeting.closing blake3 p.other) := by
  cases p <;> rfl

theorem receivedBy_committing (p : Party) :
    receivedBy (meeting.committing p) <+: sentBy (meeting.committing p.other) := by
  unfold committing
  rw [Party.other_other]
  cases meeting.commit p with
  | error e => exact List.nil_prefix
  | ok _ => cases meeting.commit p.other <;> exact List.prefix_rfl

theorem not_waits_rejected (p : Party) (h : ¬meeting.agreed = true) : ¬(meeting.final p).Waits := by
  rintro ⟨l, next, heq⟩
  rw [final, if_neg h] at heq
  cases heq

/-- **What two honest roles do**, whatever their humans decide and their stores answer. -/
def plan : Plan meeting.setting (meeting.script blake3) where
  trace := meeting.trace blake3
  final := meeting.final
  follows p := by
    refine (meeting.follows_opening blake3 p).trans ((meeting.follows_closing blake3 p).trans ?_)
    by_cases h : meeting.agreed = true
    · rw [if_pos h, if_pos h]
      exact meeting.follows_committing blake3 p h
    · rw [if_neg h, if_neg h, final, if_neg h]
      exact .refl _
  dual p := by
    unfold trace
    simp only [receivedBy_append, sentBy_append, receivedBy_opening, receivedBy_closing,
      List.prefix_append_right_inj]
    by_cases h : meeting.agreed = true
    · rw [if_pos h, if_pos h]
      exact meeting.receivedBy_committing p
    · rw [if_neg h, if_neg h]
      exact List.prefix_rfl
  ends p := by
    by_cases h : meeting.agreed = true
    · unfold final trace committing
      simp only [if_pos h, Party.other_other]
      cases hp : meeting.commit p with
      | error e => exact Or.inl ⟨_, rfl⟩
      | ok _ =>
        cases ho : meeting.commit p.other with
        | ok _ => exact Or.inl ⟨_, rfl⟩
        | error e =>
          -- The other closes once its commit has failed; it has sent nothing after its decision.
          refine Or.inr ⟨⟨_, _, rfl⟩, ?_, _, rfl, rfl⟩
          simp only [receivedBy_append, sentBy_append, receivedBy_opening, receivedBy_closing]
          rfl
    · exact Or.inl ⟨_, if_neg h⟩
  leads p := by
    have hclosing (waits : Prop) (later : Done)
        (h : Leads p.lead waits 0 later) : Leads p.lead waits 0 (meeting.closing blake3 p ++ later) :=
      ⟨by cases p <;> decide, h⟩
    have hopening (waits : Prop) (later : Done)
        (h : Leads p.lead waits 0 later) : Leads p.lead waits 0 (meeting.opening blake3 p ++ later) := by
      cases p
      · exact ⟨by decide, by decide, h⟩
      · exact ⟨by decide, by decide, h⟩
    refine hopening _ _ (hclosing _ _ ?_)
    by_cases h : meeting.agreed = true
    · have hlead : p.lead ≤ 0 + 1 := by cases p <;> decide
      unfold committing final
      rw [if_pos h, if_pos h]
      cases hp : meeting.commit p with
      | error e => exact fun ⟨_, _, heq⟩ => nomatch heq
      | ok _ =>
        cases ho : meeting.commit p.other with
        | error e => exact fun _ => hlead
        | ok _ => exact ⟨hlead, fun ⟨_, _, heq⟩ => nomatch heq⟩
    · rw [if_neg h]
      exact fun hw => absurd hw (meeting.not_waits_rejected p h)

theorem three_le_receivedBy_trace (p : Party) :
    3 ≤ (receivedBy (meeting.trace blake3 p)).length := by
  unfold trace
  simp only [receivedBy_append, List.length_append, receivedBy_opening, length_sentBy_opening,
    receivedBy_closing]
  have hdecision : (sentBy (meeting.closing blake3 p.other)).length = 1 := rfl
  omega

/-! #### What every schedule reaches -/

/-- The human of a side is shown the code and decides. -/
def decides (p : Party) : Act PairingMessage Question.Answer :=
  .asked (.decision (meeting.transcript.code blake3)) (meeting.accepted p)

/-- The side asks its trust store to trust the other. -/
def trusts (p : Party) : Act PairingMessage Question.Answer :=
  .asked (.trust (meeting.peer p) (meeting.connection p).trustGeneration) (meeting.commit p)

theorem failed_cases {p : Party} {e : PairingError} (h : meeting.final p = .done (.error e)) :
    meeting.agreed = false ∧ e = .rejected (meeting.accepted p) (meeting.accepted p.other) ∨
    meeting.agreed = true ∧ (∃ err, meeting.commit p = .error err ∧ e = .trust err) ∨
    meeting.agreed = true ∧ (∃ err, meeting.commit p.other = .error err) ∧
      ∃ phase source, e = .transport phase source := by
  unfold final at h
  by_cases hagreed : meeting.agreed = true
  · rw [if_pos hagreed] at h
    refine Or.inr (Or.inl ⟨hagreed, ?_⟩)
    cases hp : meeting.commit p with
    | error err =>
      rw [hp] at h
      cases h
      exact ⟨err, rfl, rfl⟩
    | ok _ =>
      rw [hp] at h
      cases ho : meeting.commit p.other <;> rw [ho] at h <;> cases h
  · rw [if_neg hagreed] at h
    cases h
    exact Or.inl ⟨Bool.not_eq_true _ ▸ hagreed, rfl⟩

section Schedule

variable {blake3 meeting} {t : Talk PairingMessage PairingPhase Question.Answer
  (Except PairingError AuthorizedConnection)} {p : Party}

/-- A side is told that the other has gone only where it completes: both humans accepted, it has asked
its trust store, and the commit of the other failed. -/
theorem trusts_of_lost (h : Sound (meeting.plan blake3) t) (hl : Lost (meeting.plan blake3) t p) :
    meeting.agreed = true ∧ (∃ e, meeting.commit p.other = .error e) ∧
      meeting.decides blake3 p ∈ t.log p ∧ meeting.trusts p ∈ t.log p := by
  obtain ⟨rest, htrace, hask, hreceive, hend⟩ := hl.begun
  have hsent : 3 ≤ (sentBy (t.log p)).length := by
    have hfifo := h.fifo p.other
    rw [Party.other_other, hl.complete] at hfifo
    have hreceived := meeting.three_le_receivedBy_trace blake3 p.other
    have hlen := congrArg List.length hfifo
    rw [List.length_append] at hlen
    exact hreceived.trans (hlen ▸ Nat.le_add_right _ _)
  have hall : 3 ≤ (sentBy (meeting.trace blake3 p.other)).length :=
    (meeting.three_le_receivedBy_trace blake3 p).trans ((meeting.plan blake3).dual p).length_le
  have hopening := meeting.length_sentBy_opening blake3 p
  have hopening' := meeting.length_sentBy_opening blake3 p.other
  -- The log goes beyond the decision of this side, which the other has received.
  have hsplit : meeting.opening blake3 p ++ (meeting.closing blake3 p ++
      if meeting.agreed = true then meeting.committing p else []) = t.log p ++ rest := htrace
  rcases List.append_eq_append_iff.mp hsplit with ⟨more, hlog, hmore⟩ | ⟨more, hlog, -⟩
  swap
  · have hlen := congrArg (fun log => (sentBy log).length) hlog
    simp only [sentBy_append, List.length_append] at hlen
    omega
  rw [hlog, sentBy_append, List.length_append] at hsent
  unfold closing at hmore
  rcases more with _ | ⟨_, _ | ⟨_, more⟩⟩
  · simp [sentBy] at hsent
    omega
  · simp only [List.cons_append, List.cons.injEq] at hmore
    obtain ⟨rfl, -⟩ := hmore
    simp [sentBy] at hsent
    omega
  simp only [List.cons_append, List.cons.injEq, List.nil_append] at hmore
  obtain ⟨rfl, rfl, hmore⟩ := hmore
  -- It goes beyond the decision of the other, which is on its way.
  rcases more with _ | ⟨_, more⟩
  · have hreceived := congrArg List.length (hreceive _ _ hmore.symm)
    rw [hlog, receivedBy_append, List.length_append, receivedBy_opening, hopening'] at hreceived
    exact absurd (hall.trans_eq hreceived.symm) (by simp [receivedBy])
  simp only [List.cons_append, List.cons.injEq] at hmore
  obtain ⟨rfl, hmore⟩ := hmore
  by_cases hagreed : meeting.agreed = true
  swap
  · rw [if_neg hagreed] at hmore
    exact absurd (hend (List.append_eq_nil_iff.mp hmore.symm).2) (meeting.not_waits_rejected p hagreed)
  -- It goes beyond the question to the trust store, which is answered.
  rw [if_pos hagreed, committing] at hmore
  rcases more with _ | ⟨_, more⟩
  · exact absurd hmore.symm (hask _ _ _)
  simp only [List.cons_append, List.cons.injEq] at hmore
  obtain ⟨rfl, -⟩ := hmore
  refine ⟨hagreed, ?_, by rw [hlog]; simp [decides], by rw [hlog]; simp [trusts]⟩
  obtain ⟨v, -, hcloses, hfinal⟩ := hl.closed
  change meeting.final p.other = _ at hfinal
  unfold final at hfinal
  rw [if_pos hagreed, Party.other_other] at hfinal
  cases ho : meeting.commit p.other with
  | error e => exact ⟨e, rfl⟩
  | ok _ =>
    rw [ho] at hfinal
    cases hp : meeting.commit p with
    | error e =>
      rw [hp] at hfinal
      cases hfinal
    | ok _ =>
      rw [hp] at hfinal
      cases hfinal
      cases hcloses

theorem asked_mem_trace {q : Question} {a : q.Answer}
    (h : .asked q a ∈ meeting.trace blake3 p) :
    .asked q a = meeting.decides blake3 p ∨ meeting.agreed = true ∧ .asked q a = meeting.trusts p := by
  unfold trace at h
  rcases List.mem_append.mp h with h | h
  · cases p <;> simp [opening] at h
  rcases List.mem_append.mp h with h | h
  · simp only [closing, List.mem_cons, List.not_mem_nil, or_false, reduceCtorEq] at h
    exact Or.inl h
  by_cases hagreed : meeting.agreed = true
  · refine Or.inr ⟨hagreed, ?_⟩
    rw [if_pos hagreed, committing] at h
    rcases List.mem_cons.mp h with h | h
    · exact h
    · split at h <;> simp at h
  · rw [if_neg hagreed] at h
    cases h

theorem decides_mem_trace : meeting.decides blake3 p ∈ meeting.trace blake3 p := by
  simp [trace, closing, decides]

theorem trusts_mem_trace (h : meeting.agreed = true) :
    meeting.trusts p ∈ meeting.trace blake3 p := by
  simp [trace, h, committing, trusts]

end Schedule

end Meeting

/-- **Honest pairing agreement.** An initiator and a responder that meet, with any pairing id, nonces,
human decisions and answers of their trust stores, under any schedule:

* the script of a side is what its driver performs, on any connection and with a decision in time;
* a side fails only because a human rejected, because its own commit failed, or because the other has
  gone after the commit of the other failed;
* each human is shown the code of the one transcript that both sides see;
* a trust store is asked only if both humans accepted, and when nobody can move it has been asked by
  both sides if they did;
* when nobody can move both have ended, and both are authorized if both humans accepted and both
  commits succeeded.

What a side does is a beginning of its trace, so that every schedule comes to where nobody can move. -/
theorem honest_pairing_agreement (blake3 : Blake3) (meeting : Meeting)
    (moves : List (Move TransportError)) :
    let t := (Talk.start (meeting.script blake3)).run meeting.setting moves
    (∀ p now (a : Attempt), a.readyAt = meeting.readyAt p →
      now < a.readyAt + (meeting.connection p).pairingTimeout →
      (pair blake3 (meeting.connection p) (meeting.material p)
          (some (meeting.accepted p, now))).run.run a =
        (some <$> perform blake3 (meeting.accepted p) now (meeting.script blake3 p)).run.run a) ∧
    (∀ p e, t.script p = .done (.error e) →
      meeting.agreed = false ∧ e = .rejected (meeting.accepted p) (meeting.accepted p.other) ∨
      meeting.agreed = true ∧ (∃ err, meeting.commit p = .error err ∧ e = .trust err) ∨
      meeting.agreed = true ∧ (∃ err, meeting.commit p.other = .error err) ∧
        ∃ phase source, e = .transport phase source) ∧
    (∀ p code accepted, .asked (.decision code) accepted ∈ t.log p →
      code = meeting.transcript.code blake3 ∧ accepted = meeting.accepted p) ∧
    (∀ p peer generation answer, .asked (.trust peer generation) answer ∈ t.log p →
      meeting.agreed = true) ∧
    (∀ p, t.log p <+: meeting.trace blake3 p) ∧
    (t.Stuck meeting.setting → ∀ p,
      (∃ outcome, t.script p = .done outcome) ∧
      meeting.decides blake3 p ∈ t.log p ∧
      (meeting.agreed = true → meeting.trusts p ∈ t.log p) ∧
      (meeting.agreed = true → (∀ q, meeting.commit q = .ok ()) →
        t.script p = .done (.ok (meeting.authorized p)))) := by
  intro t
  have h : Sound (meeting.plan blake3) t := (meeting.plan blake3).sound moves
  refine ⟨fun p now a hready hnow => ?_, fun p e he => ?_, fun p code accepted hmem => ?_,
    fun p peer generation answer hmem => ?_, h.log_begins, fun hstuck p => ?_⟩
  · rw [perform_pairScript blake3 _ hnow, hready]
    rfl
  · rcases h.ended he with ⟨-, hfinal⟩ | hl
    · exact meeting.failed_cases hfinal
    · obtain ⟨hagreed, hother, -⟩ := Meeting.trusts_of_lost h hl
      obtain ⟨phase, source, hlost⟩ := hl.outcome
      rw [he] at hlost
      cases hlost
      exact Or.inr (Or.inr ⟨hagreed, hother, phase, source, rfl⟩)
  · rcases Meeting.asked_mem_trace ((h.log_begins p).mem hmem) with heq | ⟨-, heq⟩
    · cases heq
      exact ⟨rfl, rfl⟩
    · cases heq
  · rcases Meeting.asked_mem_trace ((h.log_begins p).mem hmem) with heq | ⟨hagreed, -⟩
    · cases heq
    · exact hagreed
  · obtain ⟨outcome, hv⟩ := h.done_of_stuck hstuck p
    rcases h.ended hv with ⟨hlog, hfinal⟩ | hl
    · change meeting.final p = _ at hfinal
      rw [hlog]
      refine ⟨⟨outcome, hv⟩, Meeting.decides_mem_trace, Meeting.trusts_mem_trace, fun hagreed hok => ?_⟩
      rw [hv, ← hfinal, Meeting.final, if_pos hagreed, hok p, hok p.other]
    · obtain ⟨hagreed, ⟨err, herr⟩, hdecides, htrusts⟩ := Meeting.trusts_of_lost h hl
      refine ⟨⟨outcome, hv⟩, hdecides, fun _ => htrusts, fun _ hok => ?_⟩
      rw [hok] at herr
      cases herr

end Rift.Session
