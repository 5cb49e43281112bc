import Rift.Daemon.Handlers

/-! # Stopping

The loop ends on request or with a fatal error, and the daemon is shut down: no peer is managed any
more, every dial is cancelled, the endpoint is closed, and every pairing and session leaves its
registry. The tasks are joined then, and what they give is dropped.

The files of the runtime, and how a shutdown that takes too long is reported, are not modelled. -/

namespace Rift.Daemon

open Rift.Lib Rift.Lib.Interference Rift.Core Rift.Ipc Rift.Session Std
open Rift.Trust hiding Event

/-- No peer is managed, and every dial is cancelled. -/
def stopDials (σ : Daemon) : Daemon :=
  let error := operationError .shuttingDown "daemon is shutting down"
  let waiting := σ.outbound.toList.flatMap fun entry => entry.2.replies
  { σ with
    state := .shuttingDown
    connectivity := { σ.connectivity with peers := ∅ }
    outbound := σ.outbound.map fun _ record => { record with cancelled := true, replies := [] }
    replies := σ.replies ++ waiting.map (OutboundReply.message (.error error)) }

/-- Every pairing and every session leaves its registry. -/
def closeRegistries (σ : Daemon) : Daemon :=
  let pairings := σ.pendingPairings.toList
  let sessions := σ.sessions.toList
  let closers := pairings.map (fun entry => entry.2.closer) ++
    sessions.map fun entry => entry.2.closer
  { σ with
    pendingPairings := ∅
    sessions := ∅
    shared := { σ.shared with closed := σ.shared.closed ∪ closers.toFinset }
    tasks := σ.tasks.map fun _ task => task.receive (pairings.map Prod.fst) .cancel
    sent := σ.sent ++ pairings.map fun entry => (entry.1, .cancel)
    events := σ.events ++
      pairings.map (fun entry => Event.pairingResolved entry.1 entry.2.info.deviceId .cancelled) ++
      sessions.map fun entry => Event.sessionClosed entry.1 entry.2.info.deviceId .shutdown }

/-- Closes what is open and drops what is pending. -/
def shutdownRuntime (blake3 : Blake3) : Handler Unit := do
  update stopDials
  update (emit · .daemonShuttingDown)
  -- The endpoint closes.
  look blake3 fun _ => ()
  update closeRegistries
  -- The tasks run until they are joined or aborted.
  look blake3 fun _ => ()
  update fun σ => { σ with tasks := ∅, state := .stopped }

/-- A daemon that has stopped. -/
def stop (blake3 : Blake3) (σ : Daemon) (script : List (List TaskStep)) :
    Daemon :=
  (exec (shutdownRuntime blake3) σ script).2

/-- **What a daemon that stops goes through.** -/
theorem stop_eq (blake3 : Blake3) (σ : Daemon)
    (script : List (List TaskStep)) :
    ∃ σ₁ σ₂, Evolves (taskStep blake3) (fun _ => True)
        ((stopDials σ).emit .daemonShuttingDown) σ₁ ∧
      Evolves (taskStep blake3) (fun _ => True) (closeRegistries σ₁) σ₂ ∧
      stop blake3 σ script = { σ₂ with tasks := ∅, state := .stopped } :=
  ⟨_, _, ⟨script.headD [], fun _ _ => trivial, rfl⟩, ⟨script.tail.headD [], fun _ _ => trivial, rfl⟩,
    rfl⟩

end Rift.Daemon
