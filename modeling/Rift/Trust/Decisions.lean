import Rift.Lib.Map
import Rift.Lib.Paging
import Rift.Trust.History

/-! # What callers see of the decisions

The effect of each mutation on the decisions and generations, as its callers see it, and the pages in
which the decisions are listed.

The main definition is `Keyed`, the main results `trustIfGeneration_cases` and `listPage_isPage`. -/

namespace Rift.Trust

open Rift.Lib Rift.Core Std

variable {blake3 : Blake3}

/-! ### States -/

@[simp] theorem state_eq_none_iff {s : StoreInner} {d : DeviceId} :
    s.state d = none ↔ s.decisions[d]? = none := by
  simp [StoreInner.state, StoreInner.entry]

theorem state_eq_trusted_iff {s : StoreInner} {d : DeviceId} :
    s.state d = some .trusted ↔ ∃ peer, s.decisions[d]? = some (.trusted peer) := by
  unfold StoreInner.state StoreInner.entry
  cases hd : s.decisions[d]? with
  | none => simp
  | some decision => cases decision <;> simp [trustEntry, TrustEntry.state]

theorem state_congr {s s' : StoreInner} {d : DeviceId} (h : s'.decisions[d]? = s.decisions[d]?) :
    s'.state d = s.state d := by
  unfold StoreInner.state StoreInner.entry
  rw [h]

theorem currentGeneration_congr {s s' : StoreInner} (h : s'.generations = s.generations)
    (d : DeviceId) : s'.currentGeneration d = s.currentGeneration d := by
  unfold StoreInner.currentGeneration
  rw [h]

/-! ### The mutations -/

theorem commit_error {s : StoreInner} {m : TrustMutation} {expected : Option (DeviceId × ℕ)}
    {io : IoOutcome} {e : TrustStoreError} (h : (commit blake3 s m expected io).1 = .error e) :
    (commit blake3 s m expected io).2.decisions = s.decisions ∧
      (commit blake3 s m expected io).2.generations = s.generations := by
  rcases commit_cases blake3 s m expected io with
    ⟨_, -, he⟩ | ⟨_, -, -, he⟩ | ⟨_, _, _, _, -, -, he, -⟩
  · rw [he]; exact ⟨rfl, rfl⟩
  · rw [he] at h; cases h
  · rw [he]; exact ⟨rfl, rfl⟩

theorem commit_ok {s : StoreInner} {m : TrustMutation} {expected : Option (DeviceId × ℕ)}
    {io : IoOutcome} (h : (commit blake3 s m expected io).1 = .ok ()) :
    s.isStale expected = false ∧ validateTransition s.decisions m = .ok () ∧
      (commit blake3 s m expected io).2.decisions = applyMutation s.decisions m ∧
      (commit blake3 s m expected io).2.generations = bumpGeneration s.generations m := by
  rcases commit_cases blake3 s m expected io with
    ⟨_, -, he⟩ | ⟨_, hc, -, he⟩ | ⟨_, _, _, _, -, -, he, -⟩
  · rw [he] at h; cases h
  · rw [he]
    obtain ⟨-, -, hs, ht, -⟩ := commitChecks_ok_iff.mp hc
    exact ⟨hs, ht, rfl, rfl⟩
  · rw [he] at h; cases h

/-- **A pairing's commit** trusts its peer at an unmoved generation, or changes nothing. -/
theorem trustIfGeneration_cases (s : StoreInner) (peer : TrustedPeer) (generation : ℕ)
    (io : IoOutcome) :
    let r := trustIfGeneration blake3 s peer generation io
    r.2.generations = s.generations ∧
    (r.1 = .ok () ∧ s.currentGeneration peer.deviceId = generation ∧
        s.state peer.deviceId ≠ some .revoked ∧
        r.2.decisions = s.decisions.insert peer.deviceId (.trusted peer) ∨
      (∃ e, r.1 = .error e) ∧ r.2.decisions = s.decisions) := by
  intro r
  have hr : r = commit blake3 s (.trust peer) (some (peer.deviceId, generation)) io :=
    (Call.trustIfGeneration peer generation).run_eq_commit s io
  rw [hr]
  cases hc : (commit blake3 s (.trust peer) (some (peer.deviceId, generation)) io).1 with
  | error e =>
    obtain ⟨hd, hg⟩ := commit_error hc
    exact ⟨hg, Or.inr ⟨⟨e, rfl⟩, hd⟩⟩
  | ok =>
    obtain ⟨hs, ht, hd, hg⟩ := commit_ok hc
    refine ⟨hg, Or.inl ⟨rfl, by simpa [StoreInner.isStale] using hs, fun hrev => ?_, hd⟩⟩
    have := state_eq_revoked_iff.mp hrev
    simp [validateTransition, this] at ht

/-! ### Keys -/

/-- A trusted peer is stored under its own identity. -/
def Keyed (decisions : Decisions) : Prop :=
  ∀ (d : DeviceId) (peer : TrustedPeer), decisions[d]? = some (.trusted peer) → peer.deviceId = d

theorem Keyed.applyMutation {decisions : Decisions} (h : Keyed decisions) (m : TrustMutation) :
    Keyed (applyMutation decisions m) := by
  intro d peer hd
  cases m with
  | trust p =>
    rcases Map.insert_eq_some.mp hd with ⟨hp, hpeer⟩ | ⟨-, hd⟩
    · cases hpeer; exact hp
    · exact h d peer hd
  | revoke d' =>
    rcases Map.insert_eq_some.mp hd with ⟨-, hpeer⟩ | ⟨-, hd⟩
    · cases hpeer
    · exact h d peer hd
  | forget d' => exact h d peer (Map.erase_eq_some.mp hd).2

theorem keyed_run : ∀ (es : List Entry) {st : ReplayResult}, Keyed st.decisions →
    Keyed ((journalLog blake3).run st es).decisions
  | [], _, h => h
  | e :: es, _, h => keyed_run es (h.applyMutation e.mutation)

theorem openStore_keyed {fails : OpenStep → Bool} {existing : Option Bytes} {s : StoreInner}
    (h : openStore blake3 fails existing = .ok s) : Keyed s.decisions := by
  obtain ⟨-, -, es, hr⟩ := openStore_refines h
  rw [hr.decisions]
  exact @keyed_run blake3 es replayStart fun d peer hd => by simp [replayStart] at hd

theorem Keyed.commit {s : StoreInner} (h : Keyed s.decisions) (m : TrustMutation)
    (expected : Option (DeviceId × ℕ)) (io : IoOutcome) :
    Keyed (commit blake3 s m expected io).2.decisions := by
  cases hc : (Trust.commit blake3 s m expected io).1 with
  | error e => rw [(commit_error hc).1]; exact h
  | ok => rw [(commit_ok hc).2.2.1]; exact h.applyMutation m

theorem Keyed.runCalls {s : StoreInner} (h : Keyed s.decisions) :
    ∀ calls : List (Call × IoOutcome), Keyed (runCalls blake3 s calls).decisions
  | [] => h
  | (c, io) :: calls => by
    have hstep : Keyed (c.run blake3 s io).2.decisions := by
      rw [c.run_eq_commit]
      exact Keyed.commit h c.mutation c.expectedGeneration io
    exact hstep.runCalls calls

variable (blake3) in
/-- The store when request number `i` is served; `calls i` are those made since the one before. -/
def storeAt (s : StoreInner) (calls : ℕ → List (Call × IoOutcome)) : ℕ → StoreInner
  | 0 => runCalls blake3 s (calls 0)
  | i + 1 => runCalls blake3 (storeAt s calls i) (calls (i + 1))

theorem Keyed.storeAt {s : StoreInner} (h : Keyed s.decisions)
    (calls : ℕ → List (Call × IoOutcome)) : ∀ i, Keyed (storeAt blake3 s calls i).decisions
  | 0 => h.runCalls _
  | i + 1 => (h.storeAt calls i).runCalls _

/-! ### Listing -/

/-- The greatest number of entries of one page. -/
def maxListPageSize : ℕ := 128

theorem ordered_toList (decisions : Decisions) : Paging.Ordered decisions.toList :=
  ExtTreeMap.ordered_keys_toList

/-- One bounded page of entries after an exclusive cursor. -/
def StoreInner.listPage (inner : StoreInner) (after : Option DeviceId) (limit : ℕ) :
    Except TrustStoreError (List TrustEntry × Option DeviceId) :=
  if limit = 0 then .error .invalidPageLimit
  else
    let limit := min limit maxListPageSize
    let found := ((Paging.after inner.decisions.toList after).take (limit + 1)).map
      fun entry => trustEntry entry.1 entry.2
    let entries := found.take limit
    .ok (entries, if limit < found.length then entries.getLast?.map TrustEntry.deviceId else none)

theorem Keyed.trustEntry_deviceId {decisions : Decisions} (h : Keyed decisions)
    (e : DeviceId × StoredDecision) (he : e ∈ decisions.toList) :
    (trustEntry e.1 e.2).deviceId = e.1 := by
  obtain ⟨d, decision⟩ := e
  rw [ExtTreeMap.mem_toList_iff_getElem?_eq_some] at he
  cases decision with
  | trusted peer => exact h d peer he
  | revoked => rfl

theorem listPage_isPage {inner : StoreInner} (hk : Keyed inner.decisions) (cursor : Option DeviceId)
    {limit : ℕ} (hlimit : 0 < limit) :
    ∃ r, inner.listPage cursor limit = .ok r ∧
      Paging.IsPage TrustEntry.deviceId (inner.decisions.toList.map fun e => trustEntry e.1 e.2)
        cursor (min limit maxListPageSize) r := by
  unfold StoreInner.listPage
  rw [if_neg (by omega)]
  refine ⟨_, rfl, Paging.isPage_truncate ?_⟩
  rw [Paging.left_map hk.trustEntry_deviceId, List.map_take]

/-- Every entry, page by page. -/
def StoreInner.listPages (inner : StoreInner) (limit : ℕ) : List TrustEntry :=
  (Paging.pages inner.decisions.toList (min limit maxListPageSize) (inner.decisions.size + 1)
    none).map fun entry => trustEntry entry.1 entry.2

theorem listPages_eq (inner : StoreInner) {limit : ℕ} (h : 0 < limit) :
    inner.listPages limit = inner.decisions.toList.map fun entry => trustEntry entry.1 entry.2 := by
  have hlimit : 0 < min limit maxListPageSize := Nat.lt_min.mpr ⟨h, by decide⟩
  have hfuel : inner.decisions.toList.length < inner.decisions.size + 1 := by
    rw [ExtTreeMap.length_toList]
    omega
  unfold StoreInner.listPages
  rw [Paging.pages_eq (ordered_toList _) hlimit hfuel]

end Rift.Trust
