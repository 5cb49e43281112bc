import Rift.Daemon.Commits
import Rift.Daemon.Connections

/-! # The connection that stays

Of two devices the smaller one prefers the connection it has dialled, and the larger one the connection
it has accepted: the same connection. Here it is followed through one daemon. It is a candidate that a
task brings, or in the hand of the supervisor, or a session; and nothing that the daemon does on the way
closes it, as long as nobody else does and no other connection is preferred.

The main definition is `Favoured`, the main results `Favoured.taskStep`, `Guarded.acted`,
`registerSession_other`, `registerSession_self` and `Favoured.spares`. -/

namespace Rift.Daemon

open Rift.Lib Rift.Lib.Interference Rift.Core Rift.Ipc Rift.Session Std Std.Do
open Rift.Trust hiding Event

set_option mvcgen.warning false

/-- The origin of the connection that both devices prefer, seen from one of them. -/
def preferred (localId remote : DeviceId) : SessionOrigin :=
  if compare localId remote = .lt then .outbound else .inbound

theorem replaces_iff {origin existing : SessionOrigin} {localId remote : DeviceId} :
    origin.replaces existing localId remote = true ↔
      origin = preferred localId remote ∧ existing ≠ preferred localId remote := by
  simp [SessionOrigin.replaces, preferred]

/-! ### The invariant -/

/-- The task neither holds the connection nor brings another one that is preferred, and it is not that of
the session of the connection. -/
structure Bystander (side : SessionOrigin) (c : Authorized) (session : Option SessionId) (t : Task) :
    Prop where
  connection : t.connection ≠ some c.connection
  inbound : t.kind = .incoming → side = .inbound → t.identity ≠ some c.remoteDeviceId
  outbound : ∀ token pairs, t.kind = .outbound c.remoteDeviceId token pairs → side ≠ .outbound
  session : ∀ s c', t.kind = .session s c' → session ≠ some s

/-- Where the connection is: in the hand of the supervisor, with the task that has accepted or dialled
it, or with that of its session. -/
inductive Located (c : Authorized) (side : SessionOrigin) (tasks : ExtTreeMap ℕ Task)
    (sessions : ExtTreeMap SessionId SessionRecord) (outbound : ExtTreeMap DeviceId OutboundRecord) :
    Option ℕ → Option SessionId → Prop
  | inHand : Located c side tasks sessions outbound none none
  | accepted {id : ℕ} (ho : side = .inbound)
      (ht : tasks[id]? = some (.incoming (.done (.ok (.authorized c))))) :
      Located c side tasks sessions outbound (some id) none
  | dialled {id : ℕ} {record : OutboundRecord} (ho : side = .outbound)
      (ht : tasks[id]? =
        some (.outbound c.remoteDeviceId record.token false (.done (.ok (.authorized c)))))
      (hr : outbound[c.remoteDeviceId]? = some record) (hp : record.pairing = false)
      (hc : record.cancelled = false) :
      Located c side tasks sessions outbound (some id) none
  | registered {id : ℕ} {s : SessionId} {record : SessionRecord}
      (ht : tasks[id]? = some (.session s c none)) (hs : sessions[s]? = some record)
      (hd : record.info.deviceId = c.remoteDeviceId) (hk : record.closer = c.connection) :
      Located c side tasks sessions outbound (some id) (some s)

/-- The dial to a device, if it is one for the connection that is preferred, stays on record. -/
def KeepsDial (side : SessionOrigin) (d : DeviceId)
    (outbound outbound' : ExtTreeMap DeviceId OutboundRecord) : Prop :=
  side = .outbound → ∀ record : OutboundRecord, outbound[d]? = some record →
    ∃ record' : OutboundRecord, outbound'[d]? = some record' ∧ record'.token = record.token ∧
      record'.pairing = record.pairing ∧ record'.cancelled = record.cancelled

theorem KeepsDial.of_eq {side : SessionOrigin} {d : DeviceId}
    {outbound outbound' : ExtTreeMap DeviceId OutboundRecord} (h : outbound'[d]? = outbound[d]?) :
    KeepsDial side d outbound outbound' :=
  fun _ record hr => ⟨record, h.trans hr, rfl, rfl, rfl⟩

theorem Located.mono {c : Authorized} {side : SessionOrigin} {tasks tasks' : ExtTreeMap ℕ Task}
    {sessions sessions' : ExtTreeMap SessionId SessionRecord}
    {outbound outbound' : ExtTreeMap DeviceId OutboundRecord} {holder : Option ℕ}
    {session : Option SessionId} (h : Located c side tasks sessions outbound holder session)
    (ht : ∀ (id : ℕ) (t : Task), holder = some id → tasks[id]? = some t → tasks'[id]? = some t)
    (hs : ∀ (s : SessionId) (record : SessionRecord), session = some s → sessions[s]? = some record →
      sessions'[s]? = some record)
    (ho : KeepsDial side c.remoteDeviceId outbound outbound') :
    Located c side tasks' sessions' outbound' holder session := by
  cases h with
  | inHand => exact .inHand
  | accepted hpref hid => exact .accepted hpref (ht _ _ rfl hid)
  | dialled hpref hid hr hp hc =>
    obtain ⟨record', hr', htoken, hpairing, hcancelled⟩ := ho hpref _ hr
    exact .dialled hpref (htoken ▸ ht _ _ rfl hid) hr' (hpairing.trans hp) (hcancelled.trans hc)
  | registered hid hr hd hk => exact .registered (ht _ _ rfl hid) (hs _ _ rfl hr) hd hk

theorem Located.tasks {c : Authorized} {side : SessionOrigin} {tasks tasks' : ExtTreeMap ℕ Task}
    {sessions : ExtTreeMap SessionId SessionRecord} {outbound : ExtTreeMap DeviceId OutboundRecord}
    {holder : Option ℕ} {session : Option SessionId}
    (h : Located c side tasks sessions outbound holder session)
    (ht : ∀ (id : ℕ) (t : Task), holder = some id → tasks[id]? = some t → tasks'[id]? = some t) :
    Located c side tasks' sessions outbound holder session :=
  h.mono ht (fun _ _ _ hr => hr) (.of_eq rfl)

/-- **The connection stays**: it is open and in its place, its peer is trusted, and nothing competes
with it. -/
structure Favoured (c : Authorized) (holder : Option ℕ) (session : Option SessionId)
    (side : SessionOrigin) (store : StoreInner) (closed : Finset ConnectionId)
    (nextConnection : ConnectionId) (tasks : ExtTreeMap ℕ Task)
    (sessions : ExtTreeMap SessionId SessionRecord) (outbound : ExtTreeMap DeviceId OutboundRecord)
    (pairings : ExtTreeMap PairingAttemptId PendingRecord) (nextTask nextSession : ℕ) : Prop where
  located : Located c side tasks sessions outbound holder session
  bystanders : ∀ (id : ℕ) (t : Task), tasks[id]? = some t → holder ≠ some id →
    Bystander side c session t
  fresh : ∀ (id : ℕ) (t : Task), tasks[id]? = some t →
    id < nextTask ∧ ∀ s c', t.kind = .session s c' → s < nextSession
  unpaired : ∀ (a : PairingAttemptId) (record : PendingRecord), pairings[a]? = some record →
    record.info.deviceId = c.remoteDeviceId → record.origin ≠ side
  unrivalled : ∀ (s : SessionId) (record : SessionRecord), sessions[s]? = some record →
    record.closer = c.connection ∨ record.info.deviceId = c.remoteDeviceId ∧ record.origin = side →
    session = some s
  isOpen : c.connection ∉ closed
  allocated : c.connection < nextConnection
  trusted : store.state c.remoteDeviceId = some .trusted
  generation : store.currentGeneration c.remoteDeviceId = c.trustGeneration
  keyed : Keyed store.decisions

/-- In a daemon, on the side that the choice between two connections favours. -/
abbrev Favours (c : Authorized) (holder : Option ℕ) (session : Option SessionId) (σ : Daemon) :
    Prop :=
  Favoured c holder session (preferred σ.deviceId c.remoteDeviceId) σ.shared.store σ.shared.closed
    σ.shared.nextConnection σ.tasks σ.sessions σ.outbound σ.pendingPairings σ.nextTask σ.nextSessionId

variable {blake3 : Blake3} {c : Authorized} {holder : Option ℕ}
  {session : Option SessionId}

namespace Favoured

variable {side : SessionOrigin} {store store' : StoreInner} {closed closed' : Finset ConnectionId}
  {nextConnection nextConnection' : ConnectionId} {tasks : ExtTreeMap ℕ Task}
  {sessions : ExtTreeMap SessionId SessionRecord} {outbound : ExtTreeMap DeviceId OutboundRecord}
  {pairings : ExtTreeMap PairingAttemptId PendingRecord} {nextTask nextSession : ℕ}

section

variable (h : Favoured c holder session side store closed nextConnection tasks sessions outbound
  pairings nextTask nextSession)

include h

theorem shares
    (hg : Grows store store') (hc : c.connection ∉ closed') (hn : nextConnection ≤ nextConnection') :
    Favoured c holder session side store' closed' nextConnection' tasks sessions outbound pairings
      nextTask nextSession where
  __ := h
  isOpen := hc
  allocated := Nat.lt_of_lt_of_le h.allocated hn
  trusted := hg.trusted _ h.trusted
  generation := (hg.generation _).trans h.generation
  keyed := hg.keyed h.keyed

theorem close {k : ConnectionId} (hk : k ≠ c.connection) :
    Favoured c holder session side store (insert k closed) nextConnection tasks sessions outbound
      pairings nextTask nextSession :=
  h.shares (.refl _)
    (fun hmem => (Finset.mem_insert.mp hmem).elim (fun heq => hk heq.symm) h.isOpen) (Nat.le_refl _)

theorem erase {id : ℕ} (hid : holder ≠ some id) :
    Favoured c holder session side store closed nextConnection (tasks.erase id) sessions outbound
      pairings nextTask nextSession := by
  refine { h with
    located := h.located.tasks fun id' t hid' ht => ?_
    bystanders := fun id' t ht => ?_
    fresh := fun id' t ht => ?_ }
  · exact Map.erase_eq_some.mpr ⟨fun heq => hid (hid'.trans (congrArg some heq.symm)), ht⟩
  · exact h.bystanders id' t (Map.erase_eq_some.mp ht).2
  · exact h.fresh id' t (Map.erase_eq_some.mp ht).2

theorem spawn {t : Task} (ht : Bystander side c session t)
    (hs : ∀ s c', t.kind = .session s c' → s < nextSession) :
    Favoured c holder session side store closed nextConnection (tasks.insert nextTask t) sessions
      outbound pairings (nextTask + 1) nextSession := by
  refine { h with
    located := h.located.tasks fun id u _ hu => (Map.insert_ne (h.fresh id u hu).1.ne').trans hu
    bystanders := fun id u hu hid => ?_
    fresh := fun id u hu => ?_ }
  · rcases Map.insert_eq_some.mp hu with ⟨-, rfl⟩ | ⟨-, hu⟩
    · exact ht
    · exact h.bystanders id u hu hid
  · rcases Map.insert_eq_some.mp hu with ⟨rfl, rfl⟩ | ⟨-, hu⟩
    · exact ⟨Nat.lt_succ_self _, hs⟩
    · exact ⟨(h.fresh id u hu).1.trans (Nat.lt_succ_self _), (h.fresh id u hu).2⟩

theorem stepped {id : ℕ} {t t' : Task} (ht : tasks[id]? = some t)
    (hid : holder ≠ some id) (hk : t'.kind = t.kind) (hb : Bystander side c session t') :
    Favoured c holder session side store closed nextConnection (tasks.insert id t') sessions outbound
      pairings nextTask nextSession := by
  refine { h with
    located := h.located.tasks fun id' u hid' hu => ?_
    bystanders := fun id' u hu hid' => ?_
    fresh := fun id' u hu => ?_ }
  · exact (Map.insert_ne fun heq => hid (hid'.trans (congrArg some heq.symm))).trans hu
  · rcases Map.insert_eq_some.mp hu with ⟨-, rfl⟩ | ⟨-, hu⟩
    · exact hb
    · exact h.bystanders id' u hu hid'
  · rcases Map.insert_eq_some.mp hu with ⟨rfl, rfl⟩ | ⟨-, hu⟩
    · rw [hk]
      exact h.fresh id t ht
    · exact h.fresh id' u hu

theorem receive (attempts : List PairingAttemptId) (command : PairingCommand) :
    Favoured c holder session side store closed nextConnection
      (tasks.map fun _ task => task.receive attempts command) sessions outbound pairings nextTask
      nextSession := by
  have hkeep {id : ℕ} {u : Task} (hu : tasks[id]? = some u) :
      (tasks.map fun _ task => task.receive attempts command)[id]? = some (u.receive attempts command) :=
    Map.map_eq_some.mpr ⟨u, hu, rfl⟩
  refine { h with located := ?_, bystanders := fun id u hu hid => ?_, fresh := fun id u hu => ?_ }
  · cases h.located with
    | inHand => exact .inHand
    | accepted ho ht => exact .accepted ho (hkeep ht)
    | dialled ho ht hr hp hc => exact .dialled ho (hkeep ht) hr hp hc
    | registered ht hs hd hk => exact .registered (hkeep ht) hs hd hk
  · obtain ⟨t, ht, rfl⟩ := Map.map_eq_some.mp hu
    obtain ⟨hconnection, hinbound, houtbound, hsession⟩ := h.bystanders id t ht hid
    exact ⟨by simpa using hconnection, by simpa using hinbound, by simpa using houtbound,
      by simpa using hsession⟩
  · obtain ⟨t, ht, rfl⟩ := Map.map_eq_some.mp hu
    rw [Task.kind_receive]
    exact h.fresh id t ht

theorem dials {outbound' : ExtTreeMap DeviceId OutboundRecord}
    (ho : KeepsDial side c.remoteDeviceId outbound outbound') :
    Favoured c holder session side store closed nextConnection tasks sessions outbound' pairings
      nextTask nextSession :=
  { h with located := h.located.mono (fun _ _ _ ht => ht) (fun _ _ _ hr => hr) ho }

theorem pairs {pairings' : ExtTreeMap PairingAttemptId PendingRecord}
    (hp : ∀ (a : PairingAttemptId) (record : PendingRecord), pairings'[a]? = some record →
      record.info.deviceId = c.remoteDeviceId → record.origin ≠ side) :
    Favoured c holder session side store closed nextConnection tasks sessions outbound pairings'
      nextTask nextSession :=
  { h with unpaired := hp }

theorem retire {s : SessionId} (hs : session ≠ some s) :
    Favoured c holder session side store closed nextConnection tasks (sessions.erase s) outbound
      pairings nextTask nextSession := by
  refine { h with
    located := h.located.mono (fun _ _ _ ht => ht) (fun s' r hs' hr => ?_) (.of_eq rfl)
    unrivalled := fun s' r hr => ?_ }
  · exact Map.erase_eq_some.mpr ⟨fun heq => hs (hs'.trans (congrArg some heq.symm)), hr⟩
  · exact h.unrivalled s' r (Map.erase_eq_some.mp hr).2

theorem session_lt {s : SessionId} (hs : session = some s) :
    s < nextSession := by
  cases h.located with
  | registered ht =>
    obtain rfl := Option.some.inj hs
    exact (h.fresh _ _ ht).2 _ _ rfl
  | inHand | accepted | dialled => cases hs

theorem enrol (record : SessionRecord) (hk : record.closer ≠ c.connection)
    (hd : record.info.deviceId = c.remoteDeviceId →
      record.origin ≠ side) :
    Favoured c holder session side store closed nextConnection tasks
      (sessions.insert nextSession record) outbound pairings nextTask (nextSession + 1) := by
  refine { h with
    located := h.located.mono (fun _ _ _ ht => ht)
      (fun s r hs hr => (Map.insert_ne (h.session_lt hs).ne').trans hr) (.of_eq rfl)
    fresh := fun id t ht => ⟨(h.fresh id t ht).1, fun s c' hs => ?_⟩
    unrivalled := fun s r hr hrival => ?_ }
  · exact ((h.fresh id t ht).2 s c' hs).trans (Nat.lt_succ_self _)
  · rcases Map.insert_eq_some.mp hr with ⟨-, rfl⟩ | ⟨-, hr⟩
    · exact absurd hrival (not_or.mpr ⟨hk, fun hboth => hd hboth.1 hboth.2⟩)
    · exact h.unrivalled s r hr hrival

end

theorem take {id : ℕ} (h : Favoured c (some id) none side store closed nextConnection tasks sessions
      outbound pairings nextTask nextSession) :
    Favoured c none none side store closed nextConnection (tasks.erase id) sessions outbound pairings
      nextTask nextSession := by
  refine { h with located := .inHand, bystanders := fun id' t ht _ => ?_, fresh := fun id' t ht => ?_ }
  · obtain ⟨hne, ht⟩ := Map.erase_eq_some.mp ht
    exact h.bystanders id' t ht fun heq => hne (Option.some.inj heq)
  · exact h.fresh id' t (Map.erase_eq_some.mp ht).2

/-- **The connection becomes a session.** -/
theorem register (h : Favoured c none none side store closed nextConnection tasks sessions outbound
      pairings nextTask nextSession) {record : SessionRecord}
    (hd : record.info.deviceId = c.remoteDeviceId) (hk : record.closer = c.connection) :
    Favoured c (some nextTask) (some nextSession) side store closed nextConnection
      (tasks.insert nextTask (.session nextSession c none))
      (sessions.insert nextSession record) outbound
      pairings (nextTask + 1) (nextSession + 1) := by
  refine { h with
    located := .registered ExtTreeMap.getElem?_insert_self ExtTreeMap.getElem?_insert_self hd hk
    bystanders := fun id t ht hid => ?_
    fresh := fun id t ht => ?_
    unrivalled := fun s r hr hrival => ?_ }
  · rcases Map.insert_eq_some.mp ht with ⟨rfl, -⟩ | ⟨-, ht⟩
    · exact absurd rfl hid
    · obtain ⟨hconnection, hinbound, houtbound, -⟩ := h.bystanders id t ht nofun
      refine ⟨hconnection, hinbound, houtbound, fun s c' hs heq => ?_⟩
      exact ((h.fresh id t ht).2 s c' hs).ne' (Option.some.inj heq)
  · rcases Map.insert_eq_some.mp ht with ⟨rfl, rfl⟩ | ⟨-, ht⟩
    · refine ⟨Nat.lt_succ_self _, fun s c' hs => ?_⟩
      cases hs
      exact Nat.lt_succ_self _
    · exact ⟨(h.fresh id t ht).1.trans (Nat.lt_succ_self _),
        fun s c' hs => ((h.fresh id t ht).2 s c' hs).trans (Nat.lt_succ_self _)⟩
  · rcases Map.insert_eq_some.mp hr with ⟨rfl, -⟩ | ⟨-, hr⟩
    · rfl
    · cases h.unrivalled s r hr hrival

end Favoured

/-! ### What the tasks do -/

/-- Since then tasks were spawned and joined: each that was there before is still of its kind. -/
structure Since (σ₀ σ : Daemon) : Prop where
  deviceId : σ.deviceId = σ₀.deviceId
  fresh : ∀ (id : ℕ) (t₀ : Task), σ₀.tasks[id]? = some t₀ → id < σ.nextTask
  kinds : ∀ (id : ℕ) (t t₀ : Task), σ.tasks[id]? = some t → σ₀.tasks[id]? = some t₀ → t.kind = t₀.kind

/-- A step of the tasks that does not disturb the connection: it neither closes it nor ends its session,
which is that of the task `own`, and it authenticates no other one that is preferred. -/
def Peaceful (c : Authorized) (σ₀ : Daemon) (own : Option ℕ) : TaskStep → Prop
  | .closes k => k ≠ c.connection
  | .task id (.ended _) => own ≠ some id
  | .task id (.bootstrap (.ok hello)) => hello.deviceId = c.remoteDeviceId →
      preferred σ₀.deviceId c.remoteDeviceId = .inbound →
      ∃ (t : Task) (token : ℕ) (pairs : Bool), σ₀.tasks[id]? = some t ∧
        t.kind = .outbound c.remoteDeviceId token pairs
  | _ => True

variable {σ₀ σ σ' : Daemon} {own : Option ℕ}

namespace Since

theorem refl (h : ∀ (id : ℕ) (t : Task), σ.tasks[id]? = some t → id < σ.nextTask) : Since σ σ :=
  ⟨rfl, h, fun id t t₀ ht ht₀ => by rw [ht] at ht₀; cases ht₀; rfl⟩

theorem mono (h : Since σ₀ σ) (hd : σ'.deviceId = σ.deviceId) (hn : σ.nextTask ≤ σ'.nextTask)
    (ht : ∀ (id : ℕ) (t : Task), σ'.tasks[id]? = some t →
      (∃ u, σ.tasks[id]? = some u ∧ t.kind = u.kind) ∨ σ.nextTask ≤ id) : Since σ₀ σ' := by
  refine ⟨hd.trans h.deviceId, fun id t₀ ht₀ => Nat.lt_of_lt_of_le (h.fresh id t₀ ht₀) hn,
    fun id t t₀ hid ht₀ => ?_⟩
  rcases ht id t hid with ⟨u, hu, hkind⟩ | hnew
  · exact hkind.trans (h.kinds id u t₀ hu ht₀)
  · exact absurd (h.fresh id t₀ ht₀) (Nat.not_lt.mpr hnew)

theorem same (h : Since σ₀ σ) (hd : σ'.deviceId = σ.deviceId) (ht : σ'.tasks = σ.tasks)
    (hn : σ'.nextTask = σ.nextTask) : Since σ₀ σ' :=
  h.mono hd hn.ge fun _ t hid => Or.inl ⟨t, ht ▸ hid, rfl⟩

theorem erase (h : Since σ₀ σ) {id : ℕ} (hd : σ'.deviceId = σ.deviceId)
    (ht : σ'.tasks = σ.tasks.erase id) (hn : σ'.nextTask = σ.nextTask) : Since σ₀ σ' :=
  h.mono hd hn.ge fun _ t hid => Or.inl ⟨t, (Map.erase_eq_some.mp (ht ▸ hid)).2, rfl⟩

theorem spawn (h : Since σ₀ σ) {t : Task} (hd : σ'.deviceId = σ.deviceId)
    (ht : σ'.tasks = σ.tasks.insert σ.nextTask t) (hn : σ'.nextTask = σ.nextTask + 1) :
    Since σ₀ σ' := by
  refine h.mono hd (hn ▸ Nat.le_succ _) fun id u hid => ?_
  rw [ht] at hid
  rcases Map.insert_eq_some.mp hid with ⟨rfl, -⟩ | ⟨-, hid⟩
  · exact Or.inr (Nat.le_refl _)
  · exact Or.inl ⟨u, hid, rfl⟩

theorem receive (h : Since σ₀ σ) {attempts : List PairingAttemptId} {command : PairingCommand}
    (hd : σ'.deviceId = σ.deviceId)
    (ht : σ'.tasks = σ.tasks.map fun _ task => task.receive attempts command)
    (hn : σ'.nextTask = σ.nextTask) : Since σ₀ σ' := by
  refine h.mono hd hn.ge fun id u hid => Or.inl ?_
  rw [ht] at hid
  obtain ⟨t, ht, rfl⟩ := Map.map_eq_some.mp hid
  exact ⟨t, ht, Task.kind_receive ..⟩

theorem taskStep (h : Since σ₀ σ) (s : TaskStep) : Since σ₀ (taskStep blake3 σ s) := by
  have hacted : Acted blake3 σ s (Daemon.taskStep blake3 σ s) := taskStep_spec σ s
  generalize Daemon.taskStep blake3 σ s = σ' at hacted
  cases hacted with
  | outside => exact h.same rfl rfl rfl
  | task ht hs =>
    refine h.mono rfl (Nat.le_refl _) fun id u hid => Or.inl ?_
    rcases Map.insert_eq_some.mp hid with ⟨rfl, rfl⟩ | ⟨-, hid⟩
    · exact ⟨_, ht, hs.kind⟩
    · exact ⟨u, hid, rfl⟩

end Since

theorem Evolved.nextTask (h : Evolved σ σ') : σ'.nextTask = σ.nextTask := by
  obtain ⟨_, _, rfl⟩ := h.owned
  rfl

/-- The session of the connection, if there is one, is that of the task. -/
def Owns (own holder : Option ℕ) (session : Option SessionId) : Prop :=
  ∀ (id : ℕ) (s : SessionId), holder = some id → session = some s → own = some id

theorem Favoured.holder_ne (h : Favours c holder session σ) (howns : Owns own holder session) {id : ℕ}
    {event : TaskEvent} (ha : Peaceful c σ₀ own (.task id event)) {t t' : Task} {sh : Shared}
    (ht : σ.tasks[id]? = some t) (hstep : t.step blake3 σ event = some (t', sh)) :
    holder ≠ some id := by
  rintro rfl
  cases h.located with
  | accepted _ hid | dialled _ hid =>
    cases ht.symm.trans hid
    cases hstep
  | registered hid =>
    cases ht.symm.trans hid
    cases event with
    | ended result => exact ha (howns id _ rfl rfl)
    | _ => cases hstep

theorem Favoured.bystander_step (h : Favours c holder session σ) (hs : Since σ₀ σ)
    (howns : Owns own holder session) {id : ℕ} {event : TaskEvent}
    (ha : Peaceful c σ₀ own (.task id event)) {t t' : Task} {sh : Shared}
    (ht : σ.tasks[id]? = some t) (hstep : t.step blake3 σ event = some (t', sh)) :
    Bystander (preferred σ.deviceId c.remoteDeviceId) c session t' := by
  have hb := h.bystanders id t ht (h.holder_ne howns ha ht hstep)
  have hstepped := Task.step_spec hstep
  have hkind := hstepped.kind
  refine ⟨fun hk => ?_, fun hin hpref hself => ?_, fun token pairs hout => ?_, fun s c' hsession => ?_⟩
  · rcases (Task.step_connection hstep).takes _ hk with hk | hk
    · exact hb.connection hk
    · exact h.allocated.ne hk
  · rcases hstepped.identity h.keyed hself with hself | hself
    · exact hb.inbound (hkind.symm.trans hin) hpref hself
    · -- The identity has just been authenticated, and so by a dial.
      obtain ⟨hello, rfl, hhello⟩ : ∃ hello, event = .bootstrap (.ok hello) ∧
          hello.deviceId = c.remoteDeviceId := by
        cases event with
        | bootstrap result =>
          cases result with
          | error => cases hself
          | ok hello => exact ⟨hello, rfl, Option.some.inj hself⟩
        | _ => cases hself
      obtain ⟨t₀, token, pairs, ht₀, hdial⟩ := ha hhello (hs.deviceId ▸ hpref)
      cases (hkind.symm.trans hin).symm.trans ((hs.kinds id t t₀ ht ht₀).trans hdial)
  · exact hb.outbound token pairs (hkind.symm.trans hout)
  · exact hb.session s c' (hkind.symm.trans hsession)

/-- **One step of the tasks.** -/
theorem Favoured.taskStep (h : Favours c holder session σ) (hs : Since σ₀ σ)
    (howns : Owns own holder session) {s : TaskStep} (ha : Peaceful c σ₀ own s) :
    Favours c holder session (taskStep blake3 σ s) := by
  cases s with
  | closes k => exact h.close ha
  | elapses | entropy | lookup => exact h
  | task id event =>
    rw [Daemon.taskStep]
    split
    · next t' sh hstep =>
      obtain ⟨t, ht, hstep⟩ := Option.bind_eq_some_iff.mp hstep
      have hstepped := Task.step_spec hstep
      have hwired := Task.step_connection hstep
      have hne := h.holder_ne howns ha ht hstep
      refine (h.stepped ht hne hstepped.kind (h.bystander_step hs howns ha ht hstep)).shares
        hstepped.grows (fun hk => ?_) hwired.next
      exact (hwired.closes _ hk).elim h.isOpen (h.bystanders id t ht hne).connection
    · exact h

/-! ### Registering connections -/

/-- A world in which the connection stays, and whose tasks will not disturb it. -/
structure Guarded (c : Authorized) (σ₀ : Daemon) (own holder : Option ℕ) (session : Option SessionId)
    (w : World Daemon TaskStep) : Prop where
  favours : Favours c holder session w.state
  since : Since σ₀ w.state
  allowed : w.Allowed (Peaceful c σ₀ own)
  owns : Owns own holder session

namespace Guarded

variable {w : World Daemon TaskStep}

theorem acted (h : Guarded c σ₀ own holder session w) :
    Guarded c σ₀ own holder session (w.acted (taskStep blake3)) := by
  have hev : Evolves (taskStep blake3) _ _ _ := h.allowed.evolves
  have hboth := hev.stable (I := fun σ => Favours c holder session σ ∧ Since σ₀ σ)
    (fun _ _ ha hI => ⟨hI.1.taskStep hI.2 h.owns ha, hI.2.taskStep _⟩) ⟨h.favours, h.since⟩
  exact ⟨hboth.1, hboth.2, h.allowed.acted, h.owns⟩

theorem evolved (h : Guarded c σ₀ own holder session w) :
    Evolved w.state (w.acted (taskStep blake3)).state := by
  have hevolves : Evolves (taskStep blake3) _ _ _ := h.allowed.evolves
  exact evolves_spec hevolves

theorem same (h : Guarded c σ₀ own holder session w) (hf : Favours c holder session σ')
    (hd : σ'.deviceId = w.state.deviceId) (ht : σ'.tasks = w.state.tasks)
    (hn : σ'.nextTask = w.state.nextTask) : Guarded c σ₀ own holder session ⟨σ', w.script⟩ :=
  ⟨hf, h.since.same hd ht hn, h.allowed, h.owns⟩

theorem close (h : Guarded c σ₀ own holder session w) {k : ConnectionId} (hk : k ≠ c.connection) :
    Guarded c σ₀ own holder session ⟨w.state.close k, w.script⟩ :=
  h.same (h.favours.close hk) rfl rfl rfl

end Guarded

theorem compare_of_preferred {localId d : DeviceId} (h : preferred localId d = .outbound) :
    compare localId d = .lt := by
  unfold preferred at h
  split_ifs at h with hlt
  exact hlt

theorem Favoured.yieldDial (h : Favours c holder session σ) (d : DeviceId) (origin : SessionOrigin)
    (s : SessionId) : Favours c holder session (σ.yieldDial d origin s) := by
  unfold Daemon.yieldDial
  split_ifs with hyield
  · refine h.dials fun hpref record hr => ?_
    have hne : d ≠ c.remoteDeviceId := by
      rintro rfl
      rw [compare_of_preferred hpref] at hyield
      cases hyield.2
    exact ⟨record, (Map.modify_ne hne).trans hr, rfl, rfl, rfl⟩
  · exact h

theorem yieldDial_frame (σ : Daemon) (d : DeviceId) (origin : SessionOrigin) (s : SessionId) :
    (σ.yieldDial d origin s).deviceId = σ.deviceId ∧ (σ.yieldDial d origin s).tasks = σ.tasks ∧
      (σ.yieldDial d origin s).nextTask = σ.nextTask := by
  unfold Daemon.yieldDial
  split_ifs <;> exact ⟨rfl, rfl, rfl⟩

/-- The session that makes room is another one. -/
def Spares (c : Authorized) (session : Option SessionId) :
    Existing → Prop
  | some (s, record, _) => session ≠ some s ∧ record.closer ≠ c.connection
  | none => True

theorem Favoured.retireExisting (h : Favours c holder session σ)
    {existing : Existing} (he : Spares c session existing) :
    Favours c holder session (retireExisting σ existing) := by
  rcases existing with _ | ⟨s, record, closed⟩
  · exact h
  · exact (h.retire he.1).close he.2

theorem Since.retireExisting (h : Since σ₀ σ) (existing : Existing) :
    Since σ₀ (retireExisting σ existing) := by
  rcases existing with _ | ⟨s, record, closed⟩ <;> exact h.same rfl rfl rfl

theorem Since.opened (h : Since σ₀ σ) (existing : Existing)
    (c' : Authorized) (origin : SessionOrigin) (d : DeviceId) (s : SessionId) (event : Ipc.Event) :
    Since σ₀ ((((Daemon.retireExisting σ existing).openSession c' origin).yieldDial d origin s).emit
      event) := by
  obtain ⟨hd, ht, hn⟩ := yieldDial_frame ((Daemon.retireExisting σ existing).openSession c' origin) d
    origin s
  exact (h.retireExisting existing).spawn hd ht hn

/-- Another connection: if it is one between the same devices, it is not preferred. -/
structure Other (c : Authorized) (localId : DeviceId) (c' : Authorized) (origin : SessionOrigin) :
    Prop where
  connection : c'.connection ≠ c.connection
  origin : c'.remoteDeviceId = c.remoteDeviceId → origin ≠ preferred localId c.remoteDeviceId

section Registering

variable {w : World Daemon TaskStep} {c' : Authorized} {origin : SessionOrigin}
  {existing : Existing}

theorem registerOpen_other (h : Guarded c σ₀ own holder session w)
    (ho : Other c w.state.deviceId c' origin) (he : Spares c session existing) :
    ∀ r w', (registerSession.registerOpen c' origin existing).run w = (r, w') →
      Guarded c σ₀ own holder session w' := by
  refine run_of_triple ?_
  unfold registerSession.registerOpen
  mvcgen
  case vc1 heq _ | vc2 heq _ _ =>
    subst heq
    exact h.close ho.connection
  case vc3 v heq _ _ _ =>
    subst heq
    have hretired := h.favours.retireExisting he
    obtain ⟨hid, -, -⟩ := @retireExisting_frame v.state existing
    have henrolled := hretired.enrol ((retireExisting v.state existing).sessionRecord c' origin)
      ho.connection fun hd => hid ▸ ho.origin hd
    have hspawned : Favours c holder session
        ((retireExisting v.state existing).openSession c' origin) := henrolled.spawn
      ⟨fun hk => ho.connection (Option.some.inj hk), nofun, nofun, fun s c'' hs heq => ?_⟩
      fun s c'' hs => ?_
    · exact ⟨hspawned.yieldDial _ _ _, h.since.opened existing c' origin _ _ _, h.allowed, h.owns⟩
    · cases hs
      exact (hretired.session_lt heq).false
    · cases hs
      exact Nat.lt_succ_self _

theorem Favoured.spares (h : Favours c holder session σ) (ho : Other c σ.deviceId c' origin)
    {s : SessionId} {record : SessionRecord} (hs : σ.sessions[s]? = some record)
    (hd : record.info.deviceId = c'.remoteDeviceId) {closed : Bool}
    (hc : closed = σ.isClosed record.closer)
    (hr : ¬ (closed = false ∧ origin.replaces record.origin σ.deviceId c'.remoteDeviceId = false)) :
    Spares c session (some (s, record, closed)) := by
  have hne : session ≠ some s := by
    rintro rfl
    cases h.located with
    | registered _ hs' hdevice hk =>
      cases hs.symm.trans hs'
      have hremote : c'.remoteDeviceId = c.remoteDeviceId := hd.symm.trans hdevice
      refine hr ⟨?_, Bool.eq_false_iff.mpr fun hreplaces => ?_⟩
      · rw [hc, hk]
        exact decide_eq_false h.isOpen
      · rw [hremote] at hreplaces
        exact ho.origin hremote (replaces_iff.mp hreplaces).1
  exact ⟨hne, fun hk => hne (h.unrivalled s record hs (Or.inl hk))⟩

theorem registerManaged_other (h : Guarded c σ₀ own holder session w)
    (ho : Other c w.state.deviceId c' origin) :
    ∀ r w', (registerSession.registerManaged blake3 c' origin).run w = (r, w') →
      Guarded c σ₀ own holder session w' := by
  have hact : Guarded c σ₀ own holder session (w.acted (taskStep blake3)) := h.acted
  have hev : Evolved w.state (w.acted (taskStep blake3)).state := h.evolved
  have ho' : Other c (w.acted (taskStep blake3)).state.deviceId c' origin := hev.deviceId ▸ ho
  refine run_of_triple ?_
  unfold registerSession.registerManaged
  mvcgen
  case vc1 v heq s r hs hkeep => subst heq; exact hact.close ho.connection
  case vc2 v heq s r hs hreplaced =>
    subst heq
    obtain ⟨hr, hd⟩ := existingSession_eq_some hs
    rw [← hev.sessions] at hr
    exact registerOpen_other hact ho' (hact.favours.spares ho' hr hd rfl hreplaced) _ _ rfl
  case vc3 v heq _ _ => subst heq; exact h.close ho.connection
  case vc4 v heq _ _ =>
    subst heq
    have hnone : Spares c session none := trivial
    exact registerOpen_other h ho hnone _ _ rfl

/-- **Another connection is registered.** -/
theorem registerSession_other (h : Guarded c σ₀ own holder session w)
    (ho : Other c w.state.deviceId c' origin) :
    ∀ r w', (registerSession blake3 c' origin).run w = (r, w') →
      Guarded c σ₀ own holder session w' := by
  have hact {w : World Daemon TaskStep} (h : Guarded c σ₀ own holder session w) :
      Guarded c σ₀ own holder session (w.acted (taskStep blake3)) := h.acted
  refine run_of_triple ?_
  unfold registerSession
  mvcgen
  case vc1 v heq _ => subst heq; exact (hact (hact h)).close ho.connection
  case vc2 v heq _ _ _ _ | vc3 v heq _ _ _ =>
    subst heq
    exact hact (hact (hact (hact h)))
  case vc4 v heq _ _ _ => subst heq; exact (hact (hact (hact h))).close ho.connection
  case vc5 v heq _ _ σ hσ =>
    subst heq
    obtain ⟨-, peers, rfl⟩ := mem_of_insertPeer hσ
    have hchecked : Guarded c σ₀ own holder session (closedCheck blake3 v) := hact (hact (hact h))
    have hmanaged : Guarded c σ₀ own holder session
        ⟨(closedCheck blake3 v).state.setPeers peers, (closedCheck blake3 v).script⟩ :=
      hchecked.same hchecked.favours rfl rfl rfl
    have hd := hchecked.since.deviceId.trans h.since.deviceId.symm
    refine registerManaged_other hmanaged ⟨ho.connection, fun heq => ?_⟩ _ _ rfl
    exact hd ▸ ho.origin heq

/-- There is room for a session with the device. -/
structure Room (σ : Daemon) (d : DeviceId) : Prop where
  peers : d ∈ σ.connectivity.peers ∨ σ.connectivity.peers.size ≠ maxManagedPeers
  sessions : (∃ (s : SessionId) (record : SessionRecord), σ.sessions[s]? = some record ∧
    record.info.deviceId = d) ∨ σ.sessions.size < σ.config.maxActiveSessions
  tasks : σ.tasks.size < hardMaxOwnedTasks - 1
  ids : σ.nextSessionId ≠ u64Max

theorem Room.evolved {d : DeviceId} (h : Room σ d) (he : Evolved σ σ') : Room σ' d where
  peers := by rw [he.connectivity]; exact h.peers
  sessions := by rw [he.sessions, he.config]; exact h.sessions
  tasks := by rw [he.tasks_size]; exact h.tasks
  ids := by rw [he.nextSessionId]; exact h.ids

theorem registerOpen_self (h : Guarded c σ₀ own none none w) (hn : own = some w.state.nextTask)
    (hr : Room w.state c.remoteDeviceId)
    (he : Spares c none existing) :
    ∀ r w', (registerSession.registerOpen c origin existing).run w = (r, w') →
      ∃ id s, Guarded c σ₀ own (some id) (some s) w' := by
  refine run_of_triple ?_
  unfold registerSession.registerOpen
  mvcgen
  case vc1 v heq hfull =>
    subst heq
    exact absurd hr.tasks (Nat.not_lt.mpr (of_decide_eq_true hfull))
  case vc2 v heq _ hmax =>
    subst heq
    exact absurd hmax hr.ids
  case vc3 v heq _ _ _ =>
    subst heq
    have hregistered : Favours c (some (retireExisting v.state existing).nextTask)
        (some (retireExisting v.state existing).nextSessionId)
        ((retireExisting v.state existing).openSession c origin) :=
      (h.favours.retireExisting he).register rfl rfl
    have howns : Owns own (some (retireExisting v.state existing).nextTask)
        (some (retireExisting v.state existing).nextSessionId) := by
      intro id s hid _
      rw [hn, ← hid]
      rcases existing with _ | ⟨s, record, closed⟩ <;> rfl
    exact ⟨_, _, hregistered.yieldDial _ _ _, h.since.opened existing c origin _ _ _, h.allowed, howns⟩

theorem registerManaged_self (h : Guarded c σ₀ own none none w) (hn : own = some w.state.nextTask)
    (hr : Room w.state c.remoteDeviceId)
    (ho : origin = preferred w.state.deviceId c.remoteDeviceId) :
    ∀ r w', (registerSession.registerManaged blake3 c origin).run w = (r, w') →
      ∃ id s, Guarded c σ₀ own (some id) (some s) w' := by
  have hact : Guarded c σ₀ own none none (w.acted (taskStep blake3)) := h.acted
  have hev : Evolved w.state (w.acted (taskStep blake3)).state := h.evolved
  refine run_of_triple ?_
  unfold registerSession.registerManaged
  mvcgen
  case vc1 v heq s record hs hkeep =>
    -- The session there is would have to be preferred, too.
    subst heq
    obtain ⟨hrecord, hd⟩ := existingSession_eq_some hs
    exfalso
    have hpreferred : record.origin = preferred v.state.deviceId c.remoteDeviceId := by
      by_contra hne
      rw [hev.deviceId] at hkeep
      exact Bool.eq_false_iff.mp hkeep.2 (replaces_iff.mpr ⟨ho, hne⟩)
    cases h.favours.unrivalled s record hrecord (Or.inr ⟨hd, hpreferred⟩)
  case vc2 v heq s record hs _ =>
    subst heq
    obtain ⟨hrecord, -⟩ := existingSession_eq_some hs
    have hspares (closed : Bool) : Spares c none (some (s, record, closed)) := by
      refine ⟨Option.some_ne_none s ∘ Eq.symm, fun hk => ?_⟩
      cases h.favours.unrivalled s record hrecord (Or.inl hk)
    exact registerOpen_self hact (hev.nextTask ▸ hn) (hr.evolved hev) (hspares _) _ _ rfl
  case vc3 v heq hs hfull =>
    subst heq
    rcases hr.sessions with ⟨s, record, hrecord, hd⟩ | hlt
    · exact absurd hd (existingSession_eq_none.mp hs s record hrecord)
    · exact absurd hlt (Nat.not_lt.mpr (of_decide_eq_true hfull))
  case vc4 v heq _ _ =>
    subst heq
    have hnone : Spares c none none := trivial
    exact registerOpen_self h hn hr hnone _ _ rfl

/-- **The connection itself is registered.** -/
theorem registerSession_self (h : Guarded c σ₀ own none none w) (hn : own = some w.state.nextTask)
    (hr : Room w.state c.remoteDeviceId)
    (ho : origin = preferred w.state.deviceId c.remoteDeviceId) :
    ∀ r w', (registerSession blake3 c origin).run w = (r, w') →
      ∃ id s, Guarded c σ₀ own (some id) (some s) w' := by
  have hact {w : World Daemon TaskStep} (h : Guarded c σ₀ own none none w) :
      Guarded c σ₀ own none none (w.acted (taskStep blake3)) := h.acted
  have hev {w : World Daemon TaskStep} (h : Guarded c σ₀ own none none w) :
      Evolved w.state (w.acted (taskStep blake3)).state := h.evolved
  have hchecked : Guarded c σ₀ own none none (closedCheck blake3 w) := hact (hact (hact h))
  have hroom : Room (closedCheck blake3 w).state c.remoteDeviceId :=
    ((hr.evolved (hev h)).evolved (hev (hact h))).evolved (hev (hact (hact h)))
  have hnext : (closedCheck blake3 w).state.nextTask = w.state.nextTask :=
    (hev (hact (hact h))).nextTask.trans ((hev (hact h)).nextTask.trans (hev h).nextTask)
  refine run_of_triple ?_
  unfold registerSession
  mvcgen
  case vc1 v heq hno =>
    subst heq
    exact absurd hno (not_or.mpr ⟨not_not.mpr (hact h).favours.trusted,
      not_not.mpr (hact (hact h)).favours.generation⟩)
  case vc2 v heq _ hclosed _ _ | vc3 v heq _ hclosed _ =>
    subst heq
    exact absurd (of_decide_eq_true hclosed) hchecked.favours.isOpen
  case vc4 v heq _ _ hfull =>
    subst heq
    have hsome := insertPeer_isSome.mpr hroom.peers
    rw [closedCheck, hfull] at hsome
    cases hsome
  case vc5 v heq _ _ σ hσ =>
    subst heq
    obtain ⟨hmem, peers, rfl⟩ := mem_of_insertPeer hσ
    have hmanaged : Guarded c σ₀ own none none
        ⟨(closedCheck blake3 v).state.setPeers peers, (closedCheck blake3 v).script⟩ :=
      hchecked.same hchecked.favours rfl rfl rfl
    have hd := hchecked.since.deviceId.trans h.since.deviceId.symm
    refine registerManaged_self hmanaged (hn.trans (congrArg some hnext.symm))
      ⟨Or.inl hmem, hroom.sessions, hroom.tasks, hroom.ids⟩ ?_ _ _ rfl
    exact ho.trans (congrArg (preferred · c.remoteDeviceId) hd.symm)

end Registering

end Rift.Daemon
