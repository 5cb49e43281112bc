import Rift.Daemon.Sound

/-! # Registering sessions and pairings

The handlers that register what setting up a connection gave, and those that end a pairing, run against
any script of the tasks: each is moves, at most one answer and a closing.

The main results are `registerSession_spec`, `registerPending_spec`, `confirmPairing_spec` and
`finishPairing_spec`. -/

namespace Rift.Daemon

open Rift.Lib Rift.Lib.Interference Rift.Core Rift.Ipc Rift.Session Std Std.Do
open Rift.Trust hiding Event

set_option mvcgen.warning false

variable {blake3 : Blake3} {B : Bounds} {hand : Hand}

/-- A state at which the tasks get to act once an event is opened: after moves, before a decision is
handed to a pairing, or after one about a device is durable. -/
inductive Looked (blake3 : Blake3) (B : Bounds) (hand : Hand) (σ₀ : Daemon) : Daemon → Prop
  | moved {τ : Daemon} (h : Moves blake3 B hand σ₀ τ) : Looked blake3 B hand σ₀ τ
  | deciding {σ τ : Daemon} {a : PairingAttemptId} {record : PendingRecord} {accepted : Bool}
      (h : Moves blake3 B hand σ₀ σ) (ha : σ.pendingPairings[a]? = some record)
      (hr : record.resolving = none)
      (he : Evolves (taskStep blake3) B.acts
        (σ.setPending a { record with resolving := some accepted }) τ) : Looked blake3 B hand σ₀ τ
  | committed {σ τ : Daemon} {m : TrustMutation} {io : IoOutcome} (h : Moves blake3 B hand σ₀ σ)
      (hok : (commit blake3 σ.shared.store m none io).1 = .ok ())
      (he : Evolves (taskStep blake3) B.acts
        (σ.setStore (commit blake3 σ.shared.store m none io).2) τ) : Looked blake3 B hand σ₀ τ

/-- What the tasks were let act on from one world to the other. -/
def Looks (blake3 : Blake3) (B : Bounds) (hand : Hand) (w₀ w : World Daemon TaskStep) : Prop :=
  ∀ τ ∈ w.script.seen, τ ∈ w₀.script.seen ∨ Looked blake3 B hand w₀.state τ

theorem Looks.after {hand' : Hand} {w₀ w w' : World Daemon TaskStep} (h' : Looks blake3 B hand' w w')
    (h : Looks blake3 B hand w₀ w)
    (hm : ∀ τ, Moves blake3 B hand' w.state τ → Moves blake3 B hand w₀.state τ) :
    Looks blake3 B hand w₀ w' := by
  intro τ hτ
  rcases h' τ hτ with hτ | hτ
  · exact h τ hτ
  · refine Or.inr ?_
    cases hτ with
    | moved h => exact .moved (hm _ h)
    | deciding h ha hr he => exact .deciding (hm _ h) ha hr he
    | committed h hok he => exact .committed (hm _ h) hok he

/-- A world whose state is sound and reached by moves, and whose script stays within the bounds. -/
structure Along (blake3 : Blake3) (B : Bounds) (hand : Hand) (w₀ w : World Daemon TaskStep) :
    Prop where
  moves : Moves blake3 B hand w₀.state w.state
  sound : Sound w.state
  allowed : w.Allowed B.acts
  looks : Looks blake3 B hand w₀ w

namespace Along

variable {w₀ w : World Daemon TaskStep} {σ : Daemon}

theorem refl (hs : Sound w.state) (ha : w.Allowed B.acts) : Along blake3 B hand w w :=
  ⟨.refl, hs, ha, fun _ => Or.inl⟩

theorem move (h : Along blake3 B hand w₀ w) (hm : Move blake3 B hand w.state σ) :
    Along blake3 B hand w₀ ⟨σ, w.script⟩ :=
  ⟨h.moves.tail hm, hm.sound h.sound, h.allowed, h.looks⟩

/-- The tasks get to act in a state that the program made of the one it was in. -/
theorem looked (h : Along blake3 B hand w₀ w)
    (hσ : ∀ τ, Evolves (taskStep blake3) B.acts σ τ → Looked blake3 B hand w₀.state τ) :
    Looks blake3 B hand w₀ (World.acted (taskStep blake3) ⟨σ, w.script⟩) := by
  intro τ hτ
  have hallowed : World.Allowed B.acts ⟨σ, w.script⟩ := h.allowed
  rcases hallowed.evolves_of_mem hτ with hτ | he
  · exact h.looks τ hτ
  · exact Or.inr (hσ τ he)

theorem acted (h : Along blake3 B hand w₀ w) : Along blake3 B hand w₀ (w.acted (taskStep blake3)) :=
  ⟨h.moves.trans (moves_of_evolves h.allowed.evolves), h.sound.evolves h.allowed.evolves,
    h.allowed.acted, h.looked fun _ he => .moved (h.moves.trans (moves_of_evolves he))⟩

theorem evolved (h : Along blake3 B hand w₀ w) :
    Evolved w.state (w.acted (taskStep blake3)).state := by
  have hev : Evolves (taskStep blake3) _ _ _ := h.allowed.evolves
  exact evolves_spec hev

end Along

@[spec] theorem look_spec {α : Type} (f : Daemon → α) {Q : Post Daemon TaskStep α} :
    ⦃fun w => Q.1 (f (w.acted (taskStep blake3)).state) (w.acted (taskStep blake3))⦄
    look blake3 f ⦃Q⦄ :=
  observe_spec (taskStep blake3) f

/-! ### Sessions -/

variable {w₀ w : World Daemon TaskStep}

/-- The peer of a device is connected. -/
def Connected (σ : Daemon) (d : DeviceId) : Prop :=
  ∃ p : Peer, σ.connectivity.peers[d]? = some p ∧ p.state = .connected

/-- The session is one of the device. -/
def SessionOf (σ : Daemon) (d : DeviceId) (s : SessionId) : Prop :=
  ∃ record, σ.sessions[s]? = some record ∧ record.info.deviceId = d

theorem Connected.managed {σ : Daemon} {d : DeviceId} (h : Connected σ d) :
    d ∈ σ.connectivity.peers := by
  obtain ⟨p, hp, -⟩ := h
  exact Map.mem_iff_exists.mpr ⟨p, hp⟩

theorem mem_retireExisting {σ : Daemon} {d : DeviceId}
    (existing : Existing) :
    d ∈ (retireExisting σ existing).connectivity.peers ↔ d ∈ σ.connectivity.peers := by
  rcases existing with _ | ⟨s, r, closed⟩
  · exact Iff.rfl
  · exact ExtTreeMap.mem_modify

theorem retireExisting_frame {σ : Daemon} (existing : Existing) :
    (retireExisting σ existing).deviceId = σ.deviceId ∧
      (retireExisting σ existing).outbound = σ.outbound ∧
      (retireExisting σ existing).nextSessionId = σ.nextSessionId := by
  rcases existing with _ | ⟨s, r, closed⟩ <;> exact ⟨rfl, rfl, rfl⟩

theorem connected_openSession {σ : Daemon} {c : Authorized}
    (h : c.remoteDeviceId ∈ σ.connectivity.peers) (origin : SessionOrigin) :
    Connected (σ.openSession c origin) c.remoteDeviceId := by
  obtain ⟨p, hp⟩ := Map.mem_iff_exists.mp h
  exact ⟨_, Map.modify_eq_some.mpr (Or.inl ⟨rfl, p, hp, rfl⟩), rfl⟩

theorem sessionOf_openSession (σ : Daemon) (c : Authorized) (origin : SessionOrigin) :
    SessionOf (σ.openSession c origin) c.remoteDeviceId σ.nextSessionId :=
  ⟨_, ExtTreeMap.getElem?_insert_self, rfl⟩

/-- An inbound session that is preferred may end the dial to its device. -/
def MayYield (B : Bounds) (σ : Daemon) (d : DeviceId) (origin : SessionOrigin) : Prop :=
  origin = .inbound → compare σ.deviceId d = .gt → ∀ record, σ.outbound[d]? = some record →
    record.cancelled = false → record.pairing = true → B.yields d

/-- A connection that may be registered, of a peer that is managed. -/
structure Registrable (blake3 : Blake3) (B : Bounds) (hand : Hand)
    (w₀ : World Daemon TaskStep) (c : Authorized) (origin : SessionOrigin) (w : World Daemon TaskStep) :
    Prop where
  along : Along blake3 B hand w₀ w
  trusted : w.state.shared.store.state c.remoteDeviceId = some .trusted
  generation : w.state.shared.store.currentGeneration c.remoteDeviceId = c.trustGeneration
  managed : c.remoteDeviceId ∈ w.state.connectivity.peers
  yields : MayYield B w.state c.remoteDeviceId origin

/-- What registering a connection leads to. Only an inbound one may end a dial. -/
structure Registration (blake3 : Blake3) (B : Bounds) (hand : Hand)
    (w₀ : World Daemon TaskStep) (c : Authorized) (origin : SessionOrigin)
    (r : OperationResult SessionId) (w : World Daemon TaskStep) : Prop where
  ended : Ended blake3 B hand w₀.state w.state
  looks : Looks blake3 B hand w₀ w
  sound : Sound w.state
  along : origin = .outbound → Along blake3 B hand w₀ w
  registered : ∀ s, r = .ok s →
    Connected w.state c.remoteDeviceId ∧ SessionOf w.state c.remoteDeviceId s
  fails : ∀ e, r = .error e → e ∉ invariantFailures

variable {c : Authorized} {origin : SessionOrigin}

theorem Along.registration (h : Along blake3 B hand w₀ w) {r : OperationResult SessionId}
    (hr : ∀ s, r = .ok s →
      Connected w.state c.remoteDeviceId ∧ SessionOf w.state c.remoteDeviceId s)
    (he : ∀ e, r = .error e → e ∉ invariantFailures) : Registration blake3 B hand w₀ c origin r w :=
  ⟨.moved h.moves, h.looks, h.sound, fun _ => h, hr, he⟩

theorem MayYield.evolved {σ σ' : Daemon} {d : DeviceId} (h : MayYield B σ d origin)
    (he : Evolved σ σ') : MayYield B σ' d origin := by
  unfold MayYield
  rw [he.outbound, he.deviceId]
  exact h

theorem Registrable.acted (h : Registrable blake3 B hand w₀ c origin w) :
    Registrable blake3 B hand w₀ c origin (w.acted (taskStep blake3)) where
  along := h.along.acted
  trusted := h.along.evolved.grows.trusted _ h.trusted
  generation := (h.along.evolved.grows.generation _).trans h.generation
  managed := by rw [h.along.evolved.connectivity]; exact h.managed
  yields := h.yields.evolved h.along.evolved

theorem Registrable.refuse (h : Registrable blake3 B hand w₀ c origin w) {e : ErrorResponse}
    (he : e ∉ invariantFailures) :
    Registration blake3 B hand w₀ c origin (.error e) ⟨w.state.close c.connection, w.script⟩ := by
  refine (h.along.move (.close _ _)).registration nofun fun e' heq => ?_
  cases heq
  exact he

theorem Along.opened (h : Along blake3 B hand w₀ w) {s : SessionId}
    (hc : Connected w.state c.remoteDeviceId) (hs : SessionOf w.state c.remoteDeviceId s)
    (hy : MayYield B w.state c.remoteDeviceId origin) :
    Registration blake3 B hand w₀ c origin (.ok s)
      ⟨w.state.yieldDial c.remoteDeviceId origin s, w.script⟩ := by
  unfold Daemon.yieldDial
  by_cases hyield : origin = .inbound ∧ compare w.state.deviceId c.remoteDeviceId = .gt
  · rw [if_pos hyield]
    obtain ⟨p, hp, hconn⟩ := hc
    obtain ⟨record, hrecord, hd⟩ := hs
    have hanswer : Answering blake3 B w.state
        (w.state.cancelOutbound c.remoteDeviceId (.ok (.session c.remoteDeviceId s))) :=
      .yield hrecord hd hp hconn (hy hyield.1 hyield.2)
    refine ⟨.answered h.moves hanswer, h.looks, hanswer.sound h.sound, fun ho => ?_,
      fun s' heq => ?_, fun e heq => by cases heq⟩
    · rw [hyield.1] at ho
      cases ho
    · cases heq
      exact ⟨⟨p, hp, hconn⟩, record, hrecord, hd⟩
  · rw [if_neg hyield]
    refine h.registration (fun s' heq => ?_) fun e heq => by cases heq
    cases heq
    exact ⟨hc, hs⟩

theorem yieldDial_emit (σ : Daemon) (d : DeviceId) (origin : SessionOrigin) (s : SessionId)
    (event : Ipc.Event) :
    (σ.yieldDial d origin s).emit event = (σ.emit event).yieldDial d origin s := by
  unfold Daemon.yieldDial
  by_cases h : origin = .inbound ∧ compare σ.deviceId d = .gt
  · rw [if_pos h, if_pos (by exact h)]
    rfl
  · rw [if_neg h, if_neg (by exact h)]

theorem registerOpen_spec {existing : Existing}
    (h : Registrable blake3 B hand w₀ c origin w)
    (he : Replaces w.state c.remoteDeviceId existing) :
    ∀ r w', (registerSession.registerOpen c origin existing).run w = (r, w') →
      Registration blake3 B hand w₀ c origin r w' ∧ c.remoteDeviceId ∈ w'.state.connectivity.peers := by
  refine run_of_triple ?_
  mvcgen [registerSession.registerOpen]
  case vc1 heq _ | vc2 heq _ _ => subst heq; exact ⟨h.refuse (by decide), h.managed⟩
  case vc3 v heq hroom _ _ =>
    subst heq
    obtain ⟨hid, hout, hnext⟩ := @retireExisting_frame v.state existing
    have hmanaged := (mem_retireExisting existing).mpr h.managed
    simp only [decide_eq_true_eq, Nat.not_le] at hroom
    have hopened := h.along.move
      (.openSession h.trusted h.generation h.managed he hroom origin)
    have hconn : Connected (registered v.state existing c origin) c.remoteDeviceId :=
      connected_openSession hmanaged origin
    have hsession : SessionOf (registered v.state existing c origin) c.remoteDeviceId
        v.state.nextSessionId := hnext ▸ sessionOf_openSession (retireExisting v.state existing) c origin
    have hyields : MayYield B (registered v.state existing c origin) c.remoteDeviceId origin :=
      fun ho hgt record hr => h.yields ho (hid ▸ hgt) record (hout ▸ hr)
    have hregistration := hopened.opened hconn hsession hyields
    rw [yieldDial_emit]
    exact ⟨hregistration, (hregistration.registered _ rfl).1.managed⟩

@[spec] theorem registerOpen_run (existing : Existing)
    {Q : Post Daemon TaskStep (OperationResult SessionId)} :
    ⦃fun w => Q.1 ((registerSession.registerOpen c origin existing).run w).1
      ((registerSession.registerOpen c origin existing).run w).2⦄
    registerSession.registerOpen c origin existing ⦃Q⦄ :=
  run_spec _

theorem registerManaged_spec (h : Registrable blake3 B hand w₀ c origin w) :
    ∀ r w', (registerSession.registerManaged blake3 c origin).run w = (r, w') →
      Registration blake3 B hand w₀ c origin r w' ∧ c.remoteDeviceId ∈ w'.state.connectivity.peers := by
  refine run_of_triple ?_
  mvcgen [registerSession.registerManaged]
  case vc1 v heq s r hs hkeep =>
    -- the session there is stays, and its connection is open
    subst heq
    obtain ⟨hr, hd⟩ := existingSession_eq_some hs
    have hact := h.acted
    obtain ⟨p, hp⟩ := Map.mem_iff_exists.mp hact.managed
    have hopen : r.closer ∉ (v.acted (taskStep blake3)).state.shared.closed := by
      simpa [isClosed] using hkeep.1
    have hr' : (v.acted (taskStep blake3)).state.sessions[s]? = some r := by
      rw [h.along.evolved.sessions]; exact hr
    have hconn := hact.along.sound.registered.connected s r p hr' hopen (hd ▸ hp)
    refine ⟨(hact.along.move (.close _ _)).registration (fun s' heq => ?_)
      (fun e heq => by cases heq), hact.managed⟩
    cases heq
    exact ⟨⟨p, hp, hconn⟩, r, hr', hd⟩
  case vc2 v heq s r hs _ =>
    subst heq
    obtain ⟨hr, hd⟩ := existingSession_eq_some hs
    refine registerOpen_spec h.acted ?_ _ _ rfl
    refine ⟨?_, hd, fun hc => ?_⟩
    · rw [h.along.evolved.sessions]; exact hr
    · simpa [isClosed] using hc
  case vc3 heq _ _ => subst heq; exact ⟨h.refuse (by decide), h.managed⟩
  case vc4 heq hs hroom =>
    subst heq
    refine registerOpen_spec h ?_ _ _ rfl
    exact ⟨by simpa using hroom, existingSession_eq_none.mp hs⟩

@[spec] theorem registerManaged_run
    {Q : Post Daemon TaskStep (OperationResult SessionId)} :
    ⦃fun w => Q.1 ((registerSession.registerManaged blake3 c origin).run w).1
      ((registerSession.registerManaged blake3 c origin).run w).2⦄
    registerSession.registerManaged blake3 c origin ⦃Q⦄ :=
  run_spec _

/-- The world in which a registration looks whether its connection is closed. -/
def closedCheck (blake3 : Blake3) (w : World Daemon TaskStep) :
    World Daemon TaskStep :=
  ((w.acted (taskStep blake3)).acted (taskStep blake3)).acted (taskStep blake3)

/-- A peer that is trusted at the generation of the connection is managed in the second world, if the
connection is still open when the registration looks and there is room. -/
def ManagedAfter (blake3 : Blake3) (c : Authorized)
    (w w' : World Daemon TaskStep) : Prop :=
  w.state.shared.store.state c.remoteDeviceId = some .trusted →
    w.state.shared.store.currentGeneration c.remoteDeviceId = c.trustGeneration →
    c.connection ∉ (closedCheck blake3 w).state.shared.closed →
    (w.state.insertPeer c.remoteDeviceId).isSome → c.remoteDeviceId ∈ w'.state.connectivity.peers

theorem Sound.connected_of_canonical {σ : Daemon} (h : Sound σ) {d : DeviceId} {s : SessionId}
    (hs : σ.canonicalSession d = some s) : Connected σ d ∧ SessionOf σ d s := by
  obtain ⟨r, hr, rfl, hopen⟩ := canonicalSession_eq_some hs
  obtain ⟨p, hp, -⟩ := h.registered.linked s r hr
  exact ⟨⟨p, hp, h.registered.connected s r p hr hopen hp⟩, r, hr, rfl⟩

/-- **Registering a session.** -/
theorem registerSession_spec (h : Along blake3 B hand w₀ w)
    (hy : MayYield B w.state c.remoteDeviceId origin)
    (hl : c.remoteDeviceId = w.state.deviceId → B.itself) :
    ∀ r w', (registerSession blake3 c origin).run w = (r, w') →
      Registration blake3 B hand w₀ c origin r w' ∧ ManagedAfter blake3 c w w' := by
  refine run_of_triple ?_
  mvcgen [registerSession]
  case vc1 v heq hno =>
    subst heq
    refine ⟨(h.acted.acted.move (.close _ _)).registration (fun _ heq => by cases heq)
      fun e heq => ?_, fun ht hg _ _ => ?_⟩
    · cases heq
      decide
    · exfalso
      have h₁ := h.evolved.grows
      have h₂ := h.acted.evolved.grows
      rcases hno with hno | hno
      · exact hno (h₁.trusted _ ht)
      · exact hno ((h₂.generation _).trans ((h₁.generation _).trans hg))
  case vc2 v heq _ hclosed s hs =>
    subst heq
    have hact := h.acted.acted.acted.acted
    refine ⟨hact.registration (fun s' heq => ?_) (fun e heq => by cases heq), fun _ _ hopen _ => ?_⟩
    · cases heq
      exact hact.sound.connected_of_canonical hs
    · exact absurd (of_decide_eq_true hclosed) hopen
  case vc3 v heq _ hclosed _ =>
    subst heq
    refine ⟨h.acted.acted.acted.acted.registration (fun _ heq => by cases heq) fun e heq => ?_,
      fun _ _ hopen _ => ?_⟩
    · cases heq
      decide
    · exact absurd (of_decide_eq_true hclosed) hopen
  case vc4 v heq _ _ hfull =>
    subst heq
    refine ⟨(h.acted.acted.acted.move (.close _ _)).registration (fun _ heq => by cases heq)
      fun e heq => ?_, fun _ _ _ hroom => ?_⟩
    · cases heq
      decide
    · exfalso
      have hev := (h.evolved.trans h.acted.evolved).trans h.acted.acted.evolved
      rw [insertPeer_isSome, ← hev.connectivity, ← insertPeer_isSome, hfull] at hroom
      cases hroom
  case vc5 v heq htrust _ σ hσ =>
    subst heq
    rw [not_or, not_not, not_not] at htrust
    have h₂ := h.acted.evolved.grows
    have h₃ := h.acted.acted.evolved.grows
    have ht := h₃.trusted _ (h₂.trusted _ htrust.1)
    have hg := (h₃.generation _).trans htrust.2
    have hev := (h.evolved.trans h.acted.evolved).trans h.acted.acted.evolved
    have hmanage : Move blake3 B hand (closedCheck blake3 v).state σ :=
      .manage hσ ht fun heq => hl (heq.trans hev.deviceId)
    obtain ⟨hmem, peers, rfl⟩ := mem_of_insertPeer hσ
    have hyields : MayYield B (closedCheck blake3 v).state c.remoteDeviceId origin := hy.evolved hev
    have hreg : Registrable blake3 B hand w₀ c origin ⟨_, (closedCheck blake3 v).script⟩ :=
      ⟨h.acted.acted.acted.move hmanage, ht, hg, hmem, hyields⟩
    obtain ⟨hregistration, hmanaged⟩ := registerManaged_spec hreg _ _ rfl
    exact ⟨hregistration, fun _ _ _ _ => hmanaged⟩

@[spec] theorem registerSession_run
    {Q : Post Daemon TaskStep (OperationResult SessionId)} :
    ⦃fun w => Q.1 ((registerSession blake3 c origin).run w).1
      ((registerSession blake3 c origin).run w).2⦄
    registerSession blake3 c origin ⦃Q⦄ :=
  run_spec _

/-! ### Pairings -/

/-- The pairing is registered for the device. -/
def PendingOf (σ : Daemon) (d : DeviceId) (a : PairingAttemptId) : Prop :=
  ∃ record, σ.pendingPairings[a]? = some record ∧ record.info.deviceId = d

/-- **Registering a pairing.** -/
theorem registerPending_spec (h : Along blake3 B hand w₀ w) {pending : Pending}
    (hl : pending.remoteDeviceId = w.state.deviceId → B.itself) :
    ∀ r w', (registerPending blake3 pending origin).run w = (r, w') → Along blake3 B hand w₀ w' ∧
      (∀ a, r = .ok a → PendingOf w'.state pending.remoteDeviceId a) ∧
      ∀ e, r = .error e → e ∉ invariantFailures := by
  have hdrop (v : World Daemon TaskStep) (h : Along blake3 B hand w₀ v) {e : ErrorResponse}
      (he : e ∉ invariantFailures) : Along blake3 B hand w₀ ⟨v.state.dropPending pending, v.script⟩ ∧
        (∀ a, (Except.error e : OperationResult PairingAttemptId) = .ok a →
          PendingOf (v.state.dropPending pending) pending.remoteDeviceId a) ∧
        ∀ e', (Except.error e : OperationResult PairingAttemptId) = .error e' →
          e' ∉ invariantFailures := by
    refine ⟨h.move (.drop _ _), fun a heq => (by cases heq), fun e' heq => ?_⟩
    cases heq
    exact he
  refine run_of_triple ?_
  mvcgen [registerPending]
  case vc1 heq _ | vc2 heq _ _ | vc3 heq _ _ _ => subst heq; exact hdrop _ h.acted.acted (by decide)
  case vc4 v heq hok hroom _ =>
    subst heq
    rw [not_or, not_not, not_not] at hok
    simp only [decide_eq_true_eq, not_or, Nat.not_le] at hroom
    have hev := h.acted.evolved
    have ht : ((v.acted (taskStep blake3)).acted (taskStep blake3)).state.shared.store.state
        pending.remoteDeviceId ≠ some .revoked := by
      intro hrevoked
      have hbefore := (hev.grows.revoked _).mp hrevoked
      rw [hok.1] at hbefore
      cases hbefore
    have hid : pending.remoteDeviceId =
        ((v.acted (taskStep blake3)).acted (taskStep blake3)).state.deviceId → B.itself :=
      fun heq => hl (heq.trans (h.evolved.trans hev).deviceId)
    refine ⟨h.acted.acted.move (.pend ht hok.2 hid hroom.1 hroom.2 origin), fun a heq => ?_,
      fun e heq => by cases heq⟩
    cases heq
    exact ⟨_, ExtTreeMap.getElem?_insert_self, rfl⟩

@[spec] theorem registerPending_run (pending : Pending)
    {Q : Post Daemon TaskStep (OperationResult PairingAttemptId)} :
    ⦃fun w => Q.1 ((registerPending blake3 pending origin).run w).1
      ((registerPending blake3 pending origin).run w).2⦄
    registerPending blake3 pending origin ⦃Q⦄ :=
  run_spec _

/-- The rest of a handled event, once it is opened. -/
def Finished (blake3 : Blake3) (B : Bounds) (hand : Hand) (w₀ w : World Daemon TaskStep) : Prop :=
  ∃ σ₁, Ended blake3 B hand w₀.state σ₁ ∧ Closing blake3 B hand σ₁ w.state ∧ Looks blake3 B hand w₀ w

theorem Finished.after {w' : World Daemon TaskStep} (h : Finished blake3 B hand w w')
    (ha : Along blake3 B hand w₀ w) : Finished blake3 B hand w₀ w' := by
  obtain ⟨σ₁, he, hc, hlooks⟩ := h
  refine ⟨σ₁, ?_, hc, hlooks.after ha.looks fun _ => ha.moves.trans⟩
  cases he with
  | moved h => exact .moved (ha.moves.trans h)
  | answered h hanswer => exact .answered (ha.moves.trans h) hanswer

/-- The task of a registered pairing has ended when the decision is handed to it. -/
def Abandons (blake3 : Blake3) (w : World Daemon TaskStep)
    (a : PairingAttemptId) (accepted : Bool) : Prop :=
  ∃ record, w.state.pendingPairings[a]? = some record ∧ record.resolving = none ∧
    (World.acted (taskStep blake3) ⟨w.state.setPending a { record with resolving := some accepted },
      w.script⟩).state.listens a = false

/-- **Handing over a decision.** -/
theorem confirmPairing_spec {a : PairingAttemptId} {accepted : Bool} {reply : ReplyId}
    (h : Along blake3 B (.decision a accepted reply) w₀ w)
    (hb : Abandons blake3 w a accepted → B.abandons a) :
    ∀ r w', (confirmPairing blake3 a accepted reply).run w = (r, w') →
      Finished blake3 B (.decision a accepted reply) w₀ w' := by
  refine run_of_triple ?_
  mvcgen [confirmPairing]
  case vc1 heq _ | vc2 heq _ _ | vc3 heq _ _ _ _ =>
    subst heq
    exact ⟨_, .moved h.moves, .refused .., h.looks⟩
  case vc4 v heq hfull record hr hn hl =>
    subst heq
    refine ⟨_, .moved h.moves, .delivered hr (not_not.mp hn) (fun ha => ?_) ?_ hl reply,
      h.looked fun _ he => .deciding h.moves hr (not_not.mp hn) he⟩
    · simpa [ha] using hfull
    · exact World.Allowed.evolves (w := ⟨_, v.script⟩) h.allowed
  case vc5 v heq _ record hr hn hl =>
    subst heq
    have hl' := Bool.not_eq_true _ ▸ hl
    refine ⟨_, .moved h.moves, .abandoned hr (not_not.mp hn) ?_ hl' (hb ⟨record, hr, not_not.mp hn, hl'⟩)
      reply, h.looked fun _ he => .deciding h.moves hr (not_not.mp hn) he⟩
    exact World.Allowed.evolves (w := ⟨_, v.script⟩) h.allowed

@[spec] theorem confirmPairing_run (a : PairingAttemptId) (accepted : Bool) (reply : ReplyId)
    {Q : Post Daemon TaskStep Unit} :
    ⦃fun w => Q.1 ((confirmPairing blake3 a accepted reply).run w).1
      ((confirmPairing blake3 a accepted reply).run w).2⦄
    confirmPairing blake3 a accepted reply ⦃Q⦄ :=
  run_spec _

/-- What the registration of an admitted pairing needs. -/
structure Admissible (B : Bounds) (σ : Daemon) (a : PairingAttemptId) (d : DeviceId)
    (c : Authorized) : Prop where
  device : c.remoteDeviceId = d
  yields : ∀ record, σ.pendingPairings[a]? = some record → MayYield B σ d record.origin
  itself : d = σ.deviceId → B.itself

/-- The result of a pairing whose peer is sure to be managed then. -/
def Manageable (blake3 : Blake3) (w : World Daemon TaskStep)
    (result : PairingTaskResult) : Prop :=
  ∃ c, result = .authorized c ∧
    w.state.shared.store.state c.remoteDeviceId = some .trusted ∧
    w.state.shared.store.currentGeneration c.remoteDeviceId = c.trustGeneration ∧
    c.connection ∉ (closedCheck blake3 w).state.shared.closed ∧
    (w.state.insertPeer c.remoteDeviceId).isSome

/-- **Finishing a pairing**, once its task is joined. -/
theorem finishPairing_spec {a : PairingAttemptId} {d : DeviceId} {result : PairingTaskResult}
    {reply : Option ReplyId} (hs : Sound w.state) (hallowed : w.Allowed B.acts)
    (hc : ∀ c, result = .authorized c → Admissible B w.state a d c)
    (hb : a ∈ w.state.pendingPairings →
      ¬ Manageable blake3 ⟨w.state.removePending a, w.script⟩ result → B.lapses d) :
    ∀ r w', (finishPairing blake3 a d result reply).run w = (r, w') →
      Finished blake3 B (.attempt a d (w.state.pendingPairings.contains a) reply)
        ⟨w.state.removePending a, w.script⟩ w' := by
  have halong : Along blake3 B (.attempt a d (w.state.pendingPairings.contains a) reply) _
      ⟨w.state.removePending a, w.script⟩ :=
    .refl ⟨hs.keyed, hs.bounded, hs.registered, hs.tasked⟩ hallowed
  have hcontains : w.state.pendingPairings.contains a = w.state.pendingPairings[a]?.isSome :=
    ExtTreeMap.contains_eq_isSome_getElem?
  -- A registered pairing that was authorized: whatever its registration leads to is reported.
  have hregister (c : Authorized) (record : PendingRecord) (hres : result = .authorized c)
      (hr : w.state.pendingPairings[a]? = some record)
      (outcome : PairingOutcome × OperationResult Response) :
      let w' := ((registerSession blake3 c record.origin).run
        ⟨w.state.removePending a, w.script⟩).2
      Finished blake3 B (.attempt a d (w.state.pendingPairings.contains a) reply)
        ⟨w.state.removePending a, w.script⟩
        ⟨resolvePairing w'.state a d true reply outcome, w'.script⟩ := by
    obtain ⟨rfl, hy, hl⟩ := hc c hres
    obtain ⟨hreg, hmanaged⟩ := registerSession_spec halong (hy record hr) hl _ _ rfl
    refine ⟨_, hreg.ended, ?_, hreg.looks⟩
    rw [hcontains, hr]
    refine .resolved (fun _ => ?_) ..
    by_cases hm : Manageable blake3 ⟨w.state.removePending a, w.script⟩ result
    · obtain ⟨c', hres', ht, hg, hopen, hroom⟩ := hm
      rw [hres] at hres'
      cases hres'
      exact Or.inl (hmanaged ht hg hopen hroom)
    · exact Or.inr (hb (Map.mem_iff_exists.mpr ⟨record, hr⟩) hm)
  refine run_of_triple ?_
  mvcgen [finishPairing]
  case vc1.h_1.h_1 v heq c record hr hres s _ resolved | vc2.h_1.h_2 v heq c record hr hres e _ =>
    subst heq hres
    exact hregister c record rfl hr _
  case vc3.h_2 v heq c hr hres =>
    subst heq hres
    refine ⟨_, .moved (halong.move (.close _ c.connection)).moves, ?_, halong.looks⟩
    rw [hcontains, hr]
    exact .resolved (fun heq => by cases heq) ..
  case vc4.h_3 v heq result' record hsome hnone hr hres =>
    subst heq hres hr
    refine ⟨_, .moved halong.moves, ?_, halong.looks⟩
    rw [hcontains]
    refine .resolved (fun hreg => Or.inr (hb ?_ ?_)) ..
    · rw [← ExtTreeMap.contains_iff_mem, hcontains]
      exact hreg
    · rintro ⟨c, rfl, -⟩
      cases hr : v.state.pendingPairings[a]? with
      | none => exact hnone c rfl hr
      | some record => exact hsome c record rfl hr

end Rift.Daemon
