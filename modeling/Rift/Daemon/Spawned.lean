import Rift.Daemon.Registry

/-! # The tasks fit the registries

What holds of the spawned tasks: the generation a task has captured is not ahead of the store, a
session task is that of the session it names, and every dial on record has a task.

The main definition is `Tasked`. -/

namespace Rift.Daemon

open Rift.Lib Rift.Core Rift.Ipc Rift.Session Std
open Rift.Trust hiding Event

variable {blake3 : Blake3}

/-- The identity and the generation that a task holds. -/
def Task.captured : Task → Option (DeviceId × ℕ)
  | .incoming phase => phase.captured
  | .outbound _ _ _ phase => phase.captured
  | .pairing _ pending _ _ => some (pending.remoteDeviceId, pending.trustGeneration)
  | .session _ connection _ => some (connection.remoteDeviceId, connection.trustGeneration)
  | .ipcClient _ => none

/-- What a task was spawned for: what no step of it changes. -/
inductive Kind
  | incoming
  | outbound (deviceId : DeviceId) (token : ℕ) (pairing : Bool)
  | pairing (attemptId : PairingAttemptId) (pending : Pending)
  | session (sessionId : SessionId) (connection : Authorized)
  | ipcClient

def Task.kind : Task → Kind
  | .incoming _ => .incoming
  | .outbound d token pairs _ => .outbound d token pairs
  | .pairing attemptId pending _ _ => .pairing attemptId pending
  | .session sessionId connection _ => .session sessionId connection
  | .ipcClient _ => .ipcClient

/-- The connection that a pairing admits. -/
def Pending.authorized (pending : Pending) : Authorized :=
  ⟨pending.connection, ⟨pending.trustGeneration, pending.pairing.peer⟩⟩

/-- A dial is in a phase that fits its purpose, and has authenticated no identity but the one it is
for; a pairing admits its own connection. -/
def Task.Coherent : Task → Prop
  | .outbound d _ pairs phase => phase.Fits pairs ∧ ∀ d', phase.identity = some d' → d' = d
  | .pairing _ pending _ (.done (.authorized c) _) => c = pending.authorized
  | _ => True

theorem Task.Stepped.kind {sh sh' : Shared} {event : TaskEvent} {task task' : Task}
    (h : Task.Stepped blake3 sh event task task' sh') : task'.kind = task.kind := by
  cases h <;> rfl

theorem Task.Stepped.captured {sh sh' : Shared} {event : TaskEvent} {task task' : Task}
    (h : Task.Stepped blake3 sh event task task' sh') (hk : Keyed sh.store.decisions) {d : DeviceId}
    {g : ℕ} (hc : task'.captured = some (d, g)) :
    task.captured = some (d, g) ∨ g = sh.store.currentGeneration d := by
  cases h with
  | incoming h => exact h.captured d g hc hk
  | outbound h => exact h.captured d g hc hk
  | pairing h => exact Or.inl hc
  | session => exact Or.inl hc
  | ipcClient => cases hc

theorem Task.Stepped.coherent {sh sh' : Shared} {event : TaskEvent} {task task' : Task}
    (h : Task.Stepped blake3 sh event task task' sh') (hk : Keyed sh.store.decisions)
    (ht : task.Coherent) : task'.Coherent := by
  cases h with
  | outbound h =>
    obtain ⟨hfits, hid⟩ := ht
    refine ⟨h.fits _ _ rfl hfits, fun d' hi => ?_⟩
    rcases h.identity d' hi hk with hi | ⟨hd, -⟩
    · exact hid d' hi
    · exact (of_decide_eq_true hd).symm
  | pairing h =>
    cases h with
    | confirms => exact trivial
    | commits => exact trivial
    | completes => rfl
    | refused _ _ _ result _ hr | ends _ _ _ result hr =>
      cases result with
      | authorized c => exact absurd rfl (hr c)
      | _ => exact trivial
  | incoming | session | ipcClient => exact trivial

section Receive

variable (attempts : List PairingAttemptId) (command : PairingCommand) (task : Task)

@[simp] theorem Task.kind_receive : (task.receive attempts command).kind = task.kind := by
  cases task <;> rfl

@[simp] theorem Task.captured_receive : (task.receive attempts command).captured = task.captured := by
  cases task <;> rfl

variable {task} in
theorem Task.Coherent.receive (h : task.Coherent) : (task.receive attempts command).Coherent := by
  cases task with
  | pairing attemptId pending commands phase =>
    cases phase with
    | done result reply => cases result <;> exact h
    | _ => exact trivial
  | _ => exact h

end Receive

/-- The tasks fit the trust store and the registries. -/
structure Tasked (generation : DeviceId → ℕ) (sessions : ExtTreeMap SessionId SessionRecord)
    (outbound : ExtTreeMap DeviceId OutboundRecord) (nextTask nextSession nextDial : ℕ)
    (tasks : ExtTreeMap ℕ Task) : Prop where
  fresh : ∀ (id : ℕ) (t : Task), tasks[id]? = some t → id < nextTask
  captured : ∀ (id : ℕ) (t : Task) (d : DeviceId) (g : ℕ), tasks[id]? = some t →
    t.captured = some (d, g) → g ≤ generation d
  coherent : ∀ (id : ℕ) (t : Task), tasks[id]? = some t → t.Coherent
  session : ∀ (id : ℕ) (t : Task) (s : SessionId) (c : Authorized), tasks[id]? = some t →
    t.kind = .session s c →
    s < nextSession ∧ ∀ r, sessions[s]? = some r → r.info.deviceId = c.remoteDeviceId
  dialled : ∀ (d : DeviceId) (record : OutboundRecord), outbound[d]? = some record →
    ∃ (id : ℕ) (t : Task), tasks[id]? = some t ∧ t.kind = .outbound d record.token record.pairing
  token : ∀ (id : ℕ) (t : Task) (d : DeviceId) (token : ℕ) (pairs : Bool), tasks[id]? = some t →
    t.kind = .outbound d token pairs →
    token < nextDial ∧ ∀ record, outbound[d]? = some record → record.token = token →
      record.pairing = pairs

namespace Tasked

variable {generation generation' : DeviceId → ℕ}
  {sessions sessions' : ExtTreeMap SessionId SessionRecord}
  {outbound outbound' : ExtTreeMap DeviceId OutboundRecord} {nextTask nextSession nextDial : ℕ}
  {tasks : ExtTreeMap ℕ Task}

variable (h : Tasked generation sessions outbound nextTask nextSession nextDial tasks)

include h

theorem step {id : ℕ}
    {t t' : Task} (ht : tasks[id]? = some t) (hk : t'.kind = t.kind)
    (hc : ∀ d g, t'.captured = some (d, g) → t.captured = some (d, g) ∨ g = generation d)
    (hd : t.Coherent → t'.Coherent) :
    Tasked generation sessions outbound nextTask nextSession nextDial (tasks.insert id t') := by
  constructor
  case fresh =>
    intro id' u hu
    rcases Map.insert_eq_some.mp hu with ⟨rfl, -⟩ | ⟨-, hu⟩
    · exact h.fresh id t ht
    · exact h.fresh id' u hu
  case captured =>
    intro id' u d g hu hcap
    rcases Map.insert_eq_some.mp hu with ⟨-, rfl⟩ | ⟨-, hu⟩
    · rcases hc d g hcap with hcap | rfl
      · exact h.captured id t d g ht hcap
      · exact Nat.le_refl _
    · exact h.captured id' u d g hu hcap
  case coherent =>
    intro id' u hu
    rcases Map.insert_eq_some.mp hu with ⟨-, rfl⟩ | ⟨-, hu⟩
    · exact hd (h.coherent id t ht)
    · exact h.coherent id' u hu
  case session =>
    intro id' u s c hu hkind
    rcases Map.insert_eq_some.mp hu with ⟨-, rfl⟩ | ⟨-, hu⟩
    · exact h.session id t s c ht (hk ▸ hkind)
    · exact h.session id' u s c hu hkind
  case dialled =>
    intro d record hr
    obtain ⟨id', u, hu, hkind⟩ := h.dialled d record hr
    by_cases heq : id = id'
    · subst heq
      rw [ht] at hu
      cases hu
      exact ⟨id, t', by simp, hk.trans hkind⟩
    · exact ⟨id', u, by rw [Map.insert_ne heq]; exact hu, hkind⟩
  case token =>
    intro id' u d token pairs hu hkind
    rcases Map.insert_eq_some.mp hu with ⟨-, rfl⟩ | ⟨-, hu⟩
    · exact h.token id t d token pairs ht (hk ▸ hkind)
    · exact h.token id' u d token pairs hu hkind

theorem spawn {t : Task} (hc : ∀ d g, t.captured = some (d, g) → g ≤ generation d) (hd : t.Coherent)
    (hs : ∀ s c, t.kind = .session s c →
      s < nextSession ∧ ∀ r, sessions[s]? = some r → r.info.deviceId = c.remoteDeviceId)
    (htoken : ∀ d token pairs, t.kind = .outbound d token pairs → token < nextDial ∧
      ∀ record, outbound[d]? = some record → record.token = token → record.pairing = pairs) :
    Tasked generation sessions outbound (nextTask + 1) nextSession nextDial
      (tasks.insert nextTask t) := by
  constructor
  case fresh =>
    intro id u hu
    rcases Map.insert_eq_some.mp hu with ⟨rfl, -⟩ | ⟨-, hu⟩
    · exact Nat.lt_succ_self _
    · exact Nat.lt_succ_of_lt (h.fresh id u hu)
  case captured =>
    intro id u d g hu hcap
    rcases Map.insert_eq_some.mp hu with ⟨-, rfl⟩ | ⟨-, hu⟩
    · exact hc d g hcap
    · exact h.captured id u d g hu hcap
  case coherent =>
    intro id u hu
    rcases Map.insert_eq_some.mp hu with ⟨-, rfl⟩ | ⟨-, hu⟩
    · exact hd
    · exact h.coherent id u hu
  case session =>
    intro id u s c hu hkind
    rcases Map.insert_eq_some.mp hu with ⟨-, rfl⟩ | ⟨-, hu⟩
    · exact hs s c hkind
    · exact h.session id u s c hu hkind
  case dialled =>
    intro d record hr
    obtain ⟨id, u, hu, hkind⟩ := h.dialled d record hr
    have hlt := h.fresh id u hu
    have hne : nextTask ≠ id := by omega
    exact ⟨id, u, by rw [Map.insert_ne hne]; exact hu, hkind⟩
  case token =>
    intro id u d token pairs hu hkind
    rcases Map.insert_eq_some.mp hu with ⟨-, rfl⟩ | ⟨-, hu⟩
    · exact htoken d token pairs hkind
    · exact h.token id u d token pairs hu hkind

theorem receive (attempts : List PairingAttemptId) (command : PairingCommand) :
    Tasked generation sessions outbound nextTask nextSession nextDial
      (tasks.map fun _ task => task.receive attempts command) := by
  constructor
  case fresh =>
    intro id u hu
    obtain ⟨t, ht, rfl⟩ := Map.map_eq_some.mp hu
    exact h.fresh id t ht
  case captured =>
    intro id u d g hu hcap
    obtain ⟨t, ht, rfl⟩ := Map.map_eq_some.mp hu
    exact h.captured id t d g ht (by simpa using hcap)
  case coherent =>
    intro id u hu
    obtain ⟨t, ht, rfl⟩ := Map.map_eq_some.mp hu
    exact (h.coherent id t ht).receive attempts command
  case session =>
    intro id u s c hu hkind
    obtain ⟨t, ht, rfl⟩ := Map.map_eq_some.mp hu
    exact h.session id t s c ht (by simpa using hkind)
  case dialled =>
    intro d record hr
    obtain ⟨id, t, ht, hkind⟩ := h.dialled d record hr
    exact ⟨id, _, Map.map_eq_some.mpr ⟨t, ht, rfl⟩, by simpa using hkind⟩
  case token =>
    intro id u d token pairs hu hkind
    obtain ⟨t, ht, rfl⟩ := Map.map_eq_some.mp hu
    exact h.token id t d token pairs ht (by simpa using hkind)

theorem erase {id : ℕ}
    {t : Task} (ht : tasks[id]? = some t)
    (hu : ∀ (d : DeviceId) (record : OutboundRecord), outbound[d]? = some record →
      t.kind ≠ .outbound d record.token record.pairing) :
    Tasked generation sessions outbound nextTask nextSession nextDial (tasks.erase id) := by
  constructor
  case fresh =>
    intro id' u hu'
    exact h.fresh id' u (Map.erase_eq_some.mp hu').2
  case captured =>
    intro id' u d g hu'
    exact h.captured id' u d g (Map.erase_eq_some.mp hu').2
  case coherent =>
    intro id' u hu'
    exact h.coherent id' u (Map.erase_eq_some.mp hu').2
  case session =>
    intro id' u s c hu'
    exact h.session id' u s c (Map.erase_eq_some.mp hu').2
  case dialled =>
    intro d record hr
    obtain ⟨id', u, hu', hkind⟩ := h.dialled d record hr
    refine ⟨id', u, Map.erase_eq_some.mpr ⟨?_, hu'⟩, hkind⟩
    rintro rfl
    rw [ht] at hu'
    cases hu'
    exact hu d record hr hkind
  case token =>
    intro id' u d token pairs hu'
    exact h.token id' u d token pairs (Map.erase_eq_some.mp hu').2

theorem mono (hg : ∀ d, generation d ≤ generation' d)
    (hs : ∀ (s : SessionId) (r : SessionRecord), sessions'[s]? = some r → sessions[s]? = some r)
    (ho : ∀ (d : DeviceId) (record : OutboundRecord), outbound'[d]? = some record →
      ∃ record', outbound[d]? = some record' ∧ record'.token = record.token ∧
        record'.pairing = record.pairing) :
    Tasked generation' sessions' outbound' nextTask nextSession nextDial tasks where
  fresh := h.fresh
  captured id t d g ht hc := (h.captured id t d g ht hc).trans (hg d)
  coherent := h.coherent
  session id t s c ht hk :=
    ⟨(h.session id t s c ht hk).1, fun r hr => (h.session id t s c ht hk).2 r (hs s r hr)⟩
  dialled d record hr := by
    obtain ⟨record', hr', htok, hpair⟩ := ho d record hr
    obtain ⟨id, t, ht, hk⟩ := h.dialled d record' hr'
    exact ⟨id, t, ht, by rw [hk, htok, hpair]⟩
  token id t d token pairs ht hk := by
    obtain ⟨hlt, hpairs⟩ := h.token id t d token pairs ht hk
    refine ⟨hlt, fun record hr heq => ?_⟩
    obtain ⟨record', hr', htok, hpair⟩ := ho d record hr
    exact hpair.symm.trans (hpairs record' hr' (htok.trans heq))

theorem dial (d : DeviceId) (pairing : Bool) :
    Tasked generation sessions (outbound.insert d ⟨nextDial, pairing, [], false⟩) (nextTask + 1)
      nextSession (nextDial + 1)
      (tasks.insert nextTask (.outbound d nextDial pairing .connecting)) := by
  constructor
  case fresh =>
    intro id u hu
    rcases Map.insert_eq_some.mp hu with ⟨rfl, -⟩ | ⟨-, hu⟩
    · exact Nat.lt_succ_self _
    · exact Nat.lt_succ_of_lt (h.fresh id u hu)
  case captured =>
    intro id u d' g hu hcap
    rcases Map.insert_eq_some.mp hu with ⟨-, rfl⟩ | ⟨-, hu⟩
    · cases hcap
    · exact h.captured id u d' g hu hcap
  case coherent =>
    intro id u hu
    rcases Map.insert_eq_some.mp hu with ⟨-, rfl⟩ | ⟨-, hu⟩
    · exact ⟨trivial, nofun⟩
    · exact h.coherent id u hu
  case session =>
    intro id u s c hu hkind
    rcases Map.insert_eq_some.mp hu with ⟨-, rfl⟩ | ⟨-, hu⟩
    · cases hkind
    · exact h.session id u s c hu hkind
  case dialled =>
    intro d' record hr
    rcases Map.insert_eq_some.mp hr with ⟨rfl, rfl⟩ | ⟨-, hr⟩
    · exact ⟨nextTask, _, ExtTreeMap.getElem?_insert_self, rfl⟩
    · obtain ⟨id, u, hu, hkind⟩ := h.dialled d' record hr
      have hlt := h.fresh id u hu
      have hne : nextTask ≠ id := by omega
      exact ⟨id, u, by rw [Map.insert_ne hne]; exact hu, hkind⟩
  case token =>
    intro id u d' token pairs hu hkind
    rcases Map.insert_eq_some.mp hu with ⟨-, rfl⟩ | ⟨-, hu⟩
    · cases hkind
      refine ⟨Nat.lt_succ_self _, fun record hr _ => ?_⟩
      rw [ExtTreeMap.getElem?_insert_self] at hr
      cases hr
      rfl
    · obtain ⟨hlt, hpairs⟩ := h.token id u d' token pairs hu hkind
      refine ⟨Nat.lt_succ_of_lt hlt, fun record hr htok => ?_⟩
      rcases Map.insert_eq_some.mp hr with ⟨-, rfl⟩ | ⟨-, hr⟩
      · exact absurd htok (Nat.ne_of_gt hlt)
      · exact hpairs record hr htok

theorem insert_session (r : SessionRecord) :
    Tasked generation (sessions.insert nextSession r) outbound nextTask (nextSession + 1) nextDial
      tasks where
  fresh := h.fresh
  captured := h.captured
  coherent := h.coherent
  session id t s c ht hk := by
    obtain ⟨hlt, hr⟩ := h.session id t s c ht hk
    refine ⟨Nat.lt_succ_of_lt hlt, fun r' hr' => ?_⟩
    rw [Map.insert_ne (Nat.ne_of_gt hlt)] at hr'
    exact hr r' hr'
  dialled := h.dialled
  token := h.token

end Tasked

end Rift.Daemon
