import Rift.Daemon.Runs

/-! # The registry is coherent

In every state between two handled events the session registry and the managed peers correspond to
each other, and the registry stays within its bound.

The main result is `registry_is_coherent`. -/

namespace Rift.Daemon

open Rift.Lib Rift.Lib.Interference Rift.Core Rift.Ipc Rift.Session Std Std.Do
open Rift.Trust hiding Event

set_option mvcgen.warning false

variable {blake3 : Blake3} {B : Bounds} {hand : Hand} {σ σ' : Daemon}

/-- The registry stays within its bound. -/
def Capped (σ : Daemon) : Prop := σ.sessions.size ≤ σ.config.maxActiveSessions

theorem Capped.evolved (h : Capped σ) (he : Evolved σ σ') : Capped σ' := by
  unfold Capped
  rw [he.sessions, he.config]
  exact h

theorem capped_registered {d : DeviceId} {existing : Existing}
    (h : Capped σ) (he : Replaces σ d existing) (c : Authorized) (origin : SessionOrigin) :
    Capped (registered σ existing c origin) := by
  rcases existing with _ | ⟨s, r, closed⟩
  · have hle : (σ.sessions.insert σ.nextSessionId (σ.sessionRecord c origin)).size ≤
        σ.sessions.size + 1 := ExtTreeMap.size_insert_le
    exact hle.trans he.1
  · have hmem : s ∈ σ.sessions := Map.mem_iff_exists.mpr ⟨r, he.1⟩
    have hle : ((σ.sessions.erase s).insert σ.nextSessionId
        ((σ.retire s r closed).sessionRecord c origin)).size ≤ (σ.sessions.erase s).size + 1 :=
      ExtTreeMap.size_insert_le
    rw [Map.size_erase_of_mem hmem] at hle
    exact hle.trans h

theorem Move.capped (hm : Move blake3 B hand σ σ') (h : Capped σ) : Capped σ' := by
  cases hm with
  | act => exact h.evolved (taskStep_spec _ _).evolved
  | manage hi =>
    obtain ⟨-, peers, rfl⟩ := mem_of_insertPeer hi
    exact h
  | openSession _ _ _ he => exact capped_registered h he _ _
  | hint | close | drop | resume | resolved | fail | coalesce | dial | pend | commitFails => exact h

theorem Answering.capped (ha : Answering blake3 B σ σ') (h : Capped σ) : Capped σ' := by
  cases ha with
  | yield => exact h
  | disconnect => exact ExtTreeMap.size_erase_le.trans h
  | invalidate _ _ he =>
    have hev := (evolves_spec he).sessions
    refine ExtTreeMap.size_filter_le_size.trans ?_
    rw [hev]
    exact h.trans_eq (congrArg DaemonConfig.maxActiveSessions (evolves_spec he).config.symm)

theorem Opening.capped {s : Step} (ho : Opening σ s hand σ') (h : Capped σ) : Capped σ' := by
  cases ho with
  | sessionJoined => exact ExtTreeMap.size_erase_le.trans h
  | _ => exact h

theorem Closing.capped (hc : Closing blake3 B hand σ σ') (h : Capped σ) : Capped σ' := by
  cases hc with
  | delivered _ _ _ he =>
    have hev : Capped _ := Capped.evolved (σ := σ.setPending _ _) h (evolves_spec he)
    exact hev
  | abandoned _ _ he =>
    have hev : Capped _ := Capped.evolved (σ := σ.setPending _ _) h (evolves_spec he)
    exact hev
  | @resolved _ _ registered _ _ reply _ =>
    unfold resolvePairing
    cases registered <;> cases reply <;> exact h
  | none | respawned | request | answered | waits | refused => exact h

theorem Reachable.capped (h : Reachable blake3 σ) : Capped σ := by
  refine h.keep (fun _ _ σ hb => ?_) fun σ s hs hcap => ?_
  · unfold Capped
    rw [hb.sessions]
    exact Nat.zero_le _
  · exact (hs.handled s).keep (P := fun _ => Capped) Move.capped Opening.capped Answering.capped
      Closing.capped hcap

theorem late_result_ignored {s : SessionId} (h : s ∉ σ.sessions) (d : DeviceId)
    (reason : SessionCloseReason) (failure : ConnectivityFailure) (script : List (List TaskStep)) :
    (exec (handleTaskOutput blake3 (.sessionEnded s d reason failure)) σ script).2 = σ := by
  have hrun : ∀ r w', (handleTaskOutput blake3 (.sessionEnded s d reason failure)).run ⟨σ, script⟩ =
      (r, w') → w'.state = σ := by
    refine run_of_triple ?_
    mvcgen [handleTaskOutput]
    case vc1 w heq hmem =>
      subst heq
      exact absurd (ExtTreeMap.contains_iff_mem.mp hmem) h
    case vc2 w heq _ =>
      subst heq
      rfl
  exact hrun _ _ rfl

/-- **The registry is coherent.** In every state between two handled events a device has at most one
session and there are at most as many as configured; a managed peer points to a session exactly if it
is one of the device, and without one it is not `connected`; and the result of a session that has left
the registry changes nothing. -/
theorem registry_is_coherent (h : Reachable blake3 σ) :
    (∀ (s s' : SessionId) (r r' : SessionRecord), σ.sessions[s]? = some r → σ.sessions[s']? = some r' →
      r.info.deviceId = r'.info.deviceId → s = s') ∧
    σ.sessions.size ≤ σ.config.maxActiveSessions ∧
    (∀ (d : DeviceId) (s : SessionId),
      (∃ p, σ.connectivity.peers[d]? = some p ∧ p.sessionId = some s) ↔
        ∃ r, σ.sessions[s]? = some r ∧ r.info.deviceId = d) ∧
    (∀ (d : DeviceId) (p : Peer), σ.connectivity.peers[d]? = some p → p.sessionId = none →
      p.state ≠ .connected) ∧
    ∀ (s : SessionId) (d : DeviceId) (reason : SessionCloseReason) (failure : ConnectivityFailure)
      (script : List (List TaskStep)), s ∉ σ.sessions →
      (exec (handleTaskOutput blake3 (.sessionEnded s d reason failure)) σ script).2 = σ := by
  have hreg := h.sound.registered
  refine ⟨fun s s' r r' hs hs' hd => hreg.unique hs hs' hd, h.capped, fun d s => ⟨?_, ?_⟩,
    fun d p hp hnone hconn => ?_, fun s d reason failure script hs =>
      late_result_ignored hs d reason failure script⟩
  · rintro ⟨p, hp, hps⟩
    exact hreg.back d p s hp hps
  · rintro ⟨r, hr, rfl⟩
    exact hreg.linked s r hr
  · have hsome := (hreg.wellFormed d p hp).connected hconn
    rw [hnone] at hsome
    cases hsome

/-- An inbound connection of a trusted peer is its one session. -/
theorem sample_session_is_coherent : ∃ σ, Reachable sampleBlake3 σ ∧ σ.sessions.size = 1 ∧
    σ.sessions.size ≤ σ.config.maxActiveSessions := by
  obtain ⟨σ, hreach, hsize⟩ := exists_sampleRun (.repeated 1) (some sampleJournal)
    (sampleInbound 0) (fun σ => σ.sessions.size = 1) (by decide +kernel)
  exact ⟨σ, hreach, of_decide_eq_true hsize, (registry_is_coherent hreach).2.1⟩

end Rift.Daemon
