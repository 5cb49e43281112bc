import Rift.Daemon.Sound

/-! # Fenced generations

A generation that was captured before a device was revoked or forgotten stays behind a fence: the device
is revoked, or its generation has moved on. Trust in it does not come back at that generation.

The main results are `fenced_commit` and `Handled.fenced`. -/

namespace Rift.Daemon

open Rift.Lib Rift.Lib.Interference Rift.Core Rift.Ipc Rift.Session Std
open Rift.Trust hiding Event

variable {blake3 : Blake3} {B : Bounds} {store store' : StoreInner}
  {d : DeviceId} {g : ℕ} {m : TrustMutation} {io : IoOutcome} {hand : Hand} {σ σ' : Daemon}

/-- Nothing that was captured at the generation can be authorized any more. -/
def Fenced (store : StoreInner) (d : DeviceId) (g : ℕ) : Prop :=
  g < store.currentGeneration d ∨ store.state d = some .revoked ∧ g ≤ store.currentGeneration d

theorem Fenced.grows (h : Fenced store d g) (hg : Grows store store') : Fenced store' d g := by
  unfold Fenced
  rw [hg.generation d, hg.revoked d]
  exact h

theorem Fenced.lt (h : Fenced store d g) (ht : store.state d = some .trusted) :
    g < store.currentGeneration d := by
  rcases h with h | ⟨hr, -⟩
  · exact h
  · rw [ht] at hr
    cases hr

/-- **Putting up the fence.** -/
theorem fenced_commit (hb : GenerationsBounded store) (hm : ∀ peer, m ≠ .trust peer)
    (hok : (commit blake3 store m none io).1 = .ok ())
    (hg : g ≤ store.currentGeneration m.deviceId) :
    Fenced (commit blake3 store m none io).2 m.deviceId g := by
  obtain ⟨-, hgen⟩ := hb.commit blake3 m none io
  obtain ⟨-, -, hdec, -⟩ := commit_ok hok
  cases m with
  | trust peer => exact absurd rfl (hm peer)
  | revoke d =>
    refine Or.inr ⟨state_eq_revoked_iff.mpr ?_, ?_⟩
    · rw [hdec]
      exact ExtTreeMap.getElem?_insert_self
    · rw [hgen]
      exact hg.trans (Nat.le_add_right _ _)
  | forget d =>
    refine Or.inl ?_
    rw [hgen, if_pos ⟨rfl, hok⟩]
    exact Nat.lt_succ_of_le hg

theorem Fenced.commit (h : Fenced store d g) (hb : GenerationsBounded store)
    (hm : ∀ peer, m ≠ .trust peer) : Fenced (commit blake3 store m none io).2 d g := by
  cases hok : (Trust.commit blake3 store m none io).1 with
  | error e => exact h.grows (grows_commit_error hok)
  | ok _ =>
    by_cases hd : m.deviceId = d
    · subst hd
      exact fenced_commit hb hm hok (h.elim Nat.le_of_lt And.right)
    · obtain ⟨-, hgen⟩ := hb.commit blake3 m none io
      obtain ⟨-, -, hdec, -⟩ := commit_ok hok
      have hother : (applyMutation store.decisions m)[d]? = store.decisions[d]? := by
        cases m with
        | trust peer => exact absurd rfl (hm peer)
        | revoke d' => exact Map.insert_ne hd
        | forget d' => exact Map.erase_ne hd
      have hstate : (Trust.commit blake3 store m none io).2.state d = store.state d :=
        state_congr (by rw [hdec, hother])
      have hgen' : (Trust.commit blake3 store m none io).2.currentGeneration d =
          store.currentGeneration d := by
        rw [hgen d, if_neg]
        · rfl
        · rintro ⟨rfl, -⟩
          exact hd rfl
      unfold Fenced
      rw [hstate, hgen']
      exact h

/-! ### No handled event takes it down -/

theorem Move.fenced (hm : Move blake3 B hand σ σ') (h : Fenced σ.shared.store d g) :
    Fenced σ'.shared.store d g := by
  cases hm with
  | act => exact h.grows (taskStep_spec _ _).grows
  | commitFails _ he => exact h.grows (grows_commit_error he)
  | manage hi =>
    obtain ⟨-, peers, rfl⟩ := mem_of_insertPeer hi
    exact h
  | @openSession _ _ existing _ _ _ _ _ _ _ =>
    rcases existing with _ | ⟨s, r, closed⟩ <;> exact h
  | hint | close | drop | resume | resolved | fail | coalesce | dial | pend => exact h

theorem Answering.fenced (ha : Answering blake3 B σ σ') (hb : GenerationsBounded σ.shared.store)
    (h : Fenced σ.shared.store d g) : Fenced σ'.shared.store d g := by
  cases ha with
  | yield => exact h
  | disconnect => exact h
  | invalidate hm _ he _ =>
    exact (h.commit hb hm).grows (evolves_spec he).grows

theorem Opening.fenced {s : Step} (ho : Opening σ s hand σ')
    (h : Fenced σ.shared.store d g) : Fenced σ'.shared.store d g := by
  cases ho <;> exact h

theorem Closing.fenced (hc : Closing blake3 B hand σ σ')
    (h : Fenced σ.shared.store d g) : Fenced σ'.shared.store d g := by
  cases hc with
  | delivered _ _ _ he => exact h.grows (evolves_spec he).grows
  | abandoned _ _ he => exact h.grows (evolves_spec he).grows
  | @resolved _ _ registered _ _ reply _ =>
    unfold resolvePairing
    cases registered <;> cases reply <;> exact h
  | none | respawned | request | answered | waits | refused => exact h

/-- **No handled event takes the fence down.** -/
theorem Handled.fenced {s : Step} (hh : Handled blake3 B σ s σ') (hs : Sound σ)
    (h : Fenced σ.shared.store d g) : Fenced σ'.shared.store d g :=
  (hh.keep (P := fun _ σ => Sound σ ∧ Fenced σ.shared.store d g)
    (fun hm h => ⟨hm.sound h.1, hm.fenced h.2⟩) (fun ho h => ⟨ho.sound h.1, ho.fenced h.2⟩)
    (fun ha h => ⟨ha.sound h.1, ha.fenced h.1.bounded h.2⟩)
    (fun hc h => ⟨hc.sound h.1, hc.fenced h.2⟩) ⟨hs, h⟩).2

end Rift.Daemon
