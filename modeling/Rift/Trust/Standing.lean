import Mathlib.Data.Prod.Lex
import Rift.Lib.Map
import Rift.Trust.History

/-! # The standing of an identity

Within one generation an identity only goes forward, from unknown to trusted to revoked; a forget that
succeeds starts it over, and moves its generation. So the pair of the two never goes back, and where it
is the same at two moments it has been the same in between.

The main results are `Call.run_standing` and `standing_between`. -/

namespace Rift.Trust

open Rift.Lib Rift.Core

variable {blake3 : Blake3} {s : StoreInner} {d : DeviceId}

/-- How far an identity has got within its generation. -/
def stage : Option TrustState → ℕ
  | none => 0
  | some .trusted => 1
  | some .revoked => 2

theorem stage_injective : Function.Injective stage := by
  intro x y h
  rcases x with _ | ⟨⟨⟩⟩ <;> rcases y with _ | ⟨⟨⟩⟩ <;> first | rfl | cases h

/-- The generation of an identity and how far it has got, in that order. -/
def StoreInner.standing (s : StoreInner) (d : DeviceId) : ℕ ×ₗ ℕ :=
  toLex (s.currentGeneration d, stage (s.state d))

theorem standing_eq_iff {s' : StoreInner} : s'.standing d = s.standing d ↔
    s'.currentGeneration d = s.currentGeneration d ∧ s'.state d = s.state d := by
  unfold StoreInner.standing
  rw [EmbeddingLike.apply_eq_iff_eq, Prod.mk.injEq, stage_injective.eq_iff]

theorem stage_applyMutation {m : TrustMutation} {file : File} {n : ℕ}
    (ht : validateTransition s.decisions m = .ok ()) (hm : m ≠ .forget d) :
    stage (s.state d) ≤ stage ((s.committed m file n).state d) := by
  have hstate (decisions : Decisions) (hd : decisions[d]? = s.decisions[d]?) :
      ((decisions[d]?).map (trustEntry d)).map TrustEntry.state = s.state d := by rw [hd]; rfl
  change _ ≤ stage ((((applyMutation s.decisions m)[d]?).map (trustEntry d)).map TrustEntry.state)
  cases m with
  | trust peer =>
    by_cases hd : peer.deviceId = d
    · have hnot : s.decisions[d]? ≠ some .revoked := by
        rintro hrevoked
        simp [validateTransition, hd, hrevoked] at ht
      have hle : stage (s.state d) ≤ 1 := by
        unfold StoreInner.state StoreInner.entry
        rcases hs : s.decisions[d]? with _ | (peer | _)
        · exact Nat.zero_le _
        · exact le_rfl
        · exact absurd hs hnot
      simpa [applyMutation, hd, trustEntry, TrustEntry.state, stage] using hle
    · exact le_of_eq (congrArg stage (hstate _ (Map.insert_ne hd)).symm)
  | revoke d' =>
    by_cases hd : d' = d
    · have hle : stage (s.state d) ≤ 2 := by
        rcases s.state d with _ | ⟨⟨⟩⟩ <;> decide
      simpa [applyMutation, hd, trustEntry, TrustEntry.state, stage] using hle
    · exact le_of_eq (congrArg stage (hstate _ (Map.insert_ne hd)).symm)
  | forget d' =>
    have hd : d' ≠ d := fun hd => hm (by rw [hd])
    exact le_of_eq (congrArg stage (hstate _ (Map.erase_ne hd)).symm)

variable (blake3) in
/-- **One call** never takes an identity back. -/
theorem Call.run_standing (h : GenerationsBounded s) (c : Call) (io : IoOutcome) (d : DeviceId) :
    s.standing d ≤ (c.run blake3 s io).2.standing d := by
  obtain ⟨-, hgeneration⟩ := h.commit blake3 c.mutation c.expectedGeneration io
  have hg := hgeneration d
  rw [c.run_eq_commit]
  unfold StoreInner.standing
  rw [Prod.Lex.toLex_le_toLex]
  rcases commit_cases blake3 s c.mutation c.expectedGeneration io with
    ⟨e, -, he⟩ | ⟨record, hc, -, he⟩ | ⟨record, written, e, file, -, -, he, -⟩
  · rw [he]
    exact Or.inr ⟨rfl, le_rfl⟩
  · rw [he] at hg ⊢
    by_cases hm : c.mutation = .forget d
    · rw [if_pos ⟨hm, rfl⟩] at hg
      exact Or.inl (by rw [hg]; exact Nat.lt_succ_self _)
    · rw [if_neg fun hboth => hm hboth.1] at hg
      exact Or.inr ⟨hg.symm, stage_applyMutation (commitChecks_ok_iff.mp hc).2.2.2.1 hm⟩
  · rw [he]
    exact Or.inr ⟨rfl, le_rfl⟩

variable (blake3) in
/-- **Nor does a run.** -/
theorem standing_runCalls (d : DeviceId) : ∀ (calls : List (Call × IoOutcome)) {s : StoreInner},
    GenerationsBounded s → s.standing d ≤ (runCalls blake3 s calls).standing d
  | [], _, _ => le_rfl
  | (c, io) :: calls, s, h => by
    have hrun : GenerationsBounded (c.run blake3 s io).2 := by
      rw [c.run_eq_commit]
      exact (h.commit blake3 _ _ _).1
    exact (Call.run_standing blake3 h c io d).trans (standing_runCalls d calls hrun)

/-- **What is the same at two moments was the same in between.** -/
theorem standing_between (h : GenerationsBounded s) {pre post : List (Call × IoOutcome)}
    (hend : (runCalls blake3 s (pre ++ post)).standing d = s.standing d) :
    (runCalls blake3 s pre).standing d = s.standing d := by
  have hpre : GenerationsBounded (runCalls blake3 s pre) :=
    (h.runCalls_generation blake3 d pre).1
  rw [runCalls_append] at hend
  exact le_antisymm ((standing_runCalls blake3 d post hpre).trans_eq hend)
    (standing_runCalls blake3 d pre h)

end Rift.Trust
