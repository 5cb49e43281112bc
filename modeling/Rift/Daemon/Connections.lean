import Rift.Daemon.Spawned

/-! # Whose connections the tasks hold

A task holds at most one connection, that of the identity it has authenticated. It is given the next
one there is, keeps it, and closes no other.

The main results are `Task.Stepped.identity` and `Task.step_connection`. -/

namespace Rift.Daemon

open Rift.Lib Rift.Core Rift.Ipc Rift.Protocol Rift.Session Std
open Rift.Trust hiding Event

variable {blake3 : Blake3} {d : DeviceId}

/-! ### Identities -/

/-- The identity that a task has authenticated. -/
def Task.identity : Task → Option DeviceId
  | .incoming phase => phase.identity
  | .outbound _ _ _ phase => phase.identity
  | .pairing _ pending _ _ => some pending.remoteDeviceId
  | .session _ connection _ => some connection.remoteDeviceId
  | .ipcClient _ => none

theorem SetupPhase.identity_of_captured {phase : SetupPhase} {g : ℕ}
    (h : phase.captured = some (d, g)) : phase.identity = some d := by
  cases phase with
  | capturing => cases h
  | _ => exact congrArg (Option.map Prod.fst) h

theorem Task.identity_of_captured {task : Task} {g : ℕ} (h : task.captured = some (d, g)) :
    task.identity = some d := by
  cases task with
  | incoming | outbound => exact SetupPhase.identity_of_captured h
  | pairing | session => exact congrArg (Option.map Prod.fst) h
  | ipcClient => cases h

theorem Task.Stepped.identity {sh sh' : Shared} {event : TaskEvent} {task task' : Task}
    (h : Task.Stepped blake3 sh event task task' sh') (hk : Keyed sh.store.decisions)
    (hd : task'.identity = some d) : task.identity = some d ∨ event.authenticates = some d := by
  cases h with
  | incoming h => exact (h.identity d hd hk).imp_right And.right
  | outbound h => exact (h.identity d hd hk).imp_right And.right
  | pairing | session => exact Or.inl hd
  | ipcClient => cases hd

@[simp] theorem Task.identity_receive (attempts : List PairingAttemptId) (command : PairingCommand)
    (task : Task) : (task.receive attempts command).identity = task.identity := by
  cases task <;> rfl

/-! ### Connections -/

def ConnectionCandidate.connection : ConnectionCandidate → ConnectionId
  | .authorized c => c.connection
  | .pending p => p.connection

/-- The connection that a setup holds. -/
def SetupPhase.connection : SetupPhase → Option ConnectionId
  | .connecting => none
  | .capturing b => some b.connection
  | .receivingIntent b _ => some b.connection
  | .checking b _ _ => some b.connection
  | .exchanging b _ _ _ => some b.connection
  | .admitting b _ _ => some b.connection
  | .deciding b _ _ => some b.connection
  | .pairable b _ => some b.connection
  | .pairing b _ => some b.connection
  | .done (.ok candidate) => some candidate.connection
  | .done (.error _) => none

/-- The connection that a task holds. -/
def Task.connection : Task → Option ConnectionId
  | .incoming phase => phase.connection
  | .outbound _ _ _ phase => phase.connection
  | .pairing _ pending _ _ => some pending.connection
  | .session _ connection _ => some connection.connection
  | .ipcClient _ => none

@[simp] theorem Task.connection_receive (attempts : List PairingAttemptId) (command : PairingCommand)
    (task : Task) : (task.receive attempts command).connection = task.connection := by
  cases task <;> rfl

/-- What a step does to the connections: it takes the next one there is or keeps its own, and closes no
other. -/
structure Wired (sh : Shared) (own : Option ConnectionId) (sh' : Shared)
    (own' : Option ConnectionId) :
    Prop where
  takes : ∀ k, own' = some k → own = some k ∨ k = sh.nextConnection
  closes : ∀ k ∈ sh'.closed, k ∈ sh.closed ∨ own = some k
  next : sh.nextConnection ≤ sh'.nextConnection

namespace Wired

variable {sh sh' : Shared} {own own' : Option ConnectionId}

theorem keeps (hc : sh'.closed = sh.closed) (hn : sh'.nextConnection = sh.nextConnection) :
    Wired sh own sh' own :=
  ⟨fun _ h => Or.inl h, fun _ hk => Or.inl (hc ▸ hk), hn.ge⟩

theorem drops {k : ConnectionId} (hc : sh'.closed = insert k sh.closed)
    (hn : sh'.nextConnection = sh.nextConnection) (ho : ∀ k', own' = some k' → k' = k) :
    Wired sh (some k) sh' own' := by
  refine ⟨fun k' hk' => Or.inl (congrArg some (ho k' hk').symm), fun k' hk' => ?_, hn.ge⟩
  rw [hc] at hk'
  exact (Finset.mem_insert.mp hk').elim (fun heq => Or.inr (congrArg some heq.symm)) Or.inl

end Wired

namespace SetupPhase

variable {dial : Option (DeviceId × Bool)} {sh sh' : Shared} {phase phase' : SetupPhase}
  {event : TaskEvent}

theorem failed_wired (sh : Shared) (phase : SetupPhase) (e : ErrorResponse) :
    Wired sh phase.connection (phase.failed sh e).2 (phase.failed sh e).1.connection := by
  cases phase with
  | connecting | done => exact ⟨fun k hk => (by cases hk), fun _ hk => Or.inl hk, Nat.le_refl _⟩
  | _ => exact .drops rfl rfl fun k hk => by cases hk

/-- **One step of a setup.** -/
theorem step_connection (h : phase.step dial sh event = some (phase', sh')) :
    Wired sh phase.connection sh' phase'.connection := by
  unfold SetupPhase.step at h
  split at h
  · -- connecting, bootstrapped
    split_ifs at h
    cases h
    exact ⟨fun k hk => Or.inr (Option.some.inj hk).symm, fun _ hk => Or.inl hk, Nat.le_succ _⟩
  · cases h; exact failed_wired _ _ _
  · split at h <;> cases h <;> exact .keeps rfl rfl
  · cases h; exact .keeps rfl rfl
  · cases h; exact failed_wired _ _ _
  · simp only at h
    split_ifs at h <;> cases h
    · exact failed_wired _ _ _
    · exact .keeps rfl rfl
  · split_ifs at h <;> cases h
    · exact .keeps rfl rfl
    · exact failed_wired _ _ _
  · cases h; exact failed_wired _ _ _
  · split_ifs at h <;> cases h
    · exact .keeps rfl rfl
    · exact failed_wired _ _ _
  · -- deciding
    split at h
    · cases h; exact failed_wired _ _ _
    · cases h; exact .keeps rfl rfl
    · split_ifs at h <;> cases h
      · exact .keeps rfl rfl
      · exact failed_wired _ _ _
  · split_ifs at h <;> cases h
    · exact failed_wired _ _ _
    · exact .keeps rfl rfl
  · cases h; exact .keeps rfl rfl
  · cases h; exact failed_wired _ _ _
  · cases h

end SetupPhase

theorem PairingTaskPhase.Stepped.wired {pending : Pending} {commands commands' : List PairingCommand}
    {sh sh' : Shared} {phase phase' : PairingTaskPhase} {event : TaskEvent}
    (h : PairingTaskPhase.Stepped blake3 pending commands sh event phase commands' phase' sh') :
    Wired sh (some pending.connection) sh' (some pending.connection) := by
  cases h with
  | confirms | commits | completes => exact .keeps rfl rfl
  | refused | ends => exact .drops rfl rfl fun k hk => (Option.some.inj hk).symm

/-- **One step of a task.** -/
theorem Task.step_connection {σ : Daemon} {task task' : Task} {event : TaskEvent} {sh' : Shared}
    (h : task.step blake3 σ event = some (task', sh')) :
    Wired σ.shared task.connection sh' task'.connection := by
  unfold Task.step at h
  split at h
  · obtain ⟨⟨phase', _⟩, hs, heq⟩ := Option.map_eq_some_iff.mp h
    cases heq
    exact SetupPhase.step_connection hs
  · cases h
  · -- the cancel signal
    split_ifs at h
    cases h
    exact SetupPhase.failed_wired _ _ (operationError .peerNotTrusted "outbound work invalidated")
  · obtain ⟨⟨phase', _⟩, hs, heq⟩ := Option.map_eq_some_iff.mp h
    cases heq
    exact SetupPhase.step_connection hs
  · obtain ⟨⟨commands', phase', _⟩, hs, heq⟩ := Option.map_eq_some_iff.mp h
    cases heq
    exact (PairingTaskPhase.step_spec hs).wired
  · cases h
    exact .drops rfl rfl fun k hk => (Option.some.inj hk).symm
  · cases h
    exact .keeps rfl rfl
  · cases h

end Rift.Daemon
