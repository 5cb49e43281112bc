import Rift.Daemon.Runs

/-! # Sessions are authorized

A session is in the registry only as long as the trust store authorizes it, at the generation at which
its connection was admitted.

The main results are `Reachable.fenced` and `authorization_is_sound`. -/

namespace Rift.Daemon

open Rift.Lib Rift.Lib.Interference Rift.Core Rift.Ipc Rift.Session Std
open Rift.Trust hiding Event

variable {blake3 : Blake3} {σ : Daemon} {d : DeviceId} {g : ℕ}

theorem Reachable.fenced (h : Reachable blake3 σ) (hf : Fenced σ.shared.store d g)
    (steps : List Step) : Fenced (run blake3 σ steps).shared.store d g :=
  (run_keep (P := fun σ => Fenced σ.shared.store d g) (fun _ s hs hf => (hs.handled s).fenced hs hf)
    steps h.sound hf).2

theorem Reachable.lt_of_fenced (h : Reachable blake3 σ) (hf : Fenced σ.shared.store d g)
    {s : SessionId} {r : SessionRecord} (hs : σ.sessions[s]? = some r) (hd : r.info.deviceId = d) :
    g < r.trustGeneration := by
  obtain ⟨ht, hg⟩ := h.sound.registered.authorized s r hs
  rw [hd] at ht hg
  exact (hf.lt ht).trans_eq hg

theorem Reachable.enforced (h : Reachable blake3 σ) {request : Request}
    (hreq : request = .revokePeer d ∨ request = .forgetPeer d) {io : IoOutcome}
    {script : List (List TaskStep)}
    (hok : ∃ response, (exec (executeRequest blake3 request io) σ script).1 = .ok response)
    (reply : ReplyId) :
    Enforced (step blake3 σ (.command (.request request reply io) script)) d
      (σ.shared.store.currentGeneration d) := by
  have hallowed : World.Allowed (unbounded : Bounds).acts ⟨σ, script⟩ := fun _ _ _ _ => trivial
  have halong : Along blake3 unbounded .none _ ⟨σ, script⟩ := .refl h.sound hallowed
  obtain ⟨hcleared, hfenced⟩ := executeRequest_enforces halong hreq io trivial _ _ rfl hok
  rcases hreq with rfl | rfl <;> exact ⟨⟨hcleared.sessions, hcleared.pairings⟩, hfenced⟩

/-- **Authorization is sound.** In every state between two handled events, every session is one of a
device that is trusted, at the current generation. Once a revocation or a forget has succeeded, the
device has neither sessions nor pairings, and whatever was captured up to then, by any task, is of a
lower generation than any session that the device ever has again. -/
theorem authorization_is_sound (h : Reachable blake3 σ) :
    (∀ (s : SessionId) (r : SessionRecord), σ.sessions[s]? = some r →
      σ.shared.store.state r.info.deviceId = some .trusted ∧
        σ.shared.store.currentGeneration r.info.deviceId = r.trustGeneration) ∧
    ∀ (d : DeviceId) (request : Request) (io : IoOutcome) (reply : ReplyId)
      (script : List (List TaskStep)), request = .revokePeer d ∨ request = .forgetPeer d →
      (∃ response, (exec (executeRequest blake3 request io) σ script).1 = .ok response) →
      let after := step blake3 σ (.command (.request request reply io) script)
      (∀ (s : SessionId) (r : SessionRecord), after.sessions[s]? = some r → r.info.deviceId ≠ d) ∧
      (∀ (a : PairingAttemptId) (r : PendingRecord), after.pendingPairings[a]? = some r →
        r.info.deviceId ≠ d) ∧
      (∀ (id : ℕ) (task : Task) (g : ℕ), σ.tasks[id]? = some task → task.captured = some (d, g) →
        g ≤ σ.shared.store.currentGeneration d) ∧
      ∀ (steps : List Step) (s : SessionId) (r : SessionRecord),
        (run blake3 after steps).sessions[s]? = some r → r.info.deviceId = d →
        σ.shared.store.currentGeneration d < r.trustGeneration := by
  refine ⟨h.sound.registered.authorized, fun d request io reply script hreq hok => ?_⟩
  intro after
  have henforced : Enforced after d _ := h.enforced hreq hok reply
  have hafter : Reachable blake3 after := h.after [.command (.request request reply io) script]
  refine ⟨henforced.cleared.sessions, henforced.cleared.pairings,
    fun id task g ht hc => h.sound.tasked.captured id task d g ht hc, fun steps s r hs hd => ?_⟩
  have hfenced := hafter.fenced (henforced.fenced _ (Nat.le_refl _)) steps
  exact (hafter.after steps).lt_of_fenced hfenced hs hd

/-- The session of a trusted peer leaves the registry with the revocation of the peer. -/
theorem sample_session_is_revoked : ∃ σ, Reachable sampleBlake3 σ ∧ σ.sessions.size = 1 ∧
    ∀ (s : SessionId) (r : SessionRecord),
      (step sampleBlake3 σ (.command (.request (.revokePeer samplePeer.deviceId) 0 .ok)
        [])).sessions[s]? = some r → r.info.deviceId ≠ samplePeer.deviceId := by
  obtain ⟨σ, hreach, hσ⟩ := exists_sampleRun (.repeated 1) (some sampleJournal)
    (sampleInbound 0) (fun σ => σ.sessions.size = 1 ∧
      (exec (executeRequest sampleBlake3 (.revokePeer samplePeer.deviceId) .ok) σ []).1 =
        .ok (.peerRevoked samplePeer.deviceId)) (by decide +kernel)
  obtain ⟨hsize, hok⟩ := of_decide_eq_true hσ
  exact ⟨σ, hreach, hsize, ((authorization_is_sound hreach).2 _ _ .ok 0 [] (Or.inl rfl) ⟨_, hok⟩).1⟩

end Rift.Daemon
