import Rift.Trust.Refinement

/-! # Recovery from a torn append

A journal that successful commits wrote, cut anywhere behind its header, replays to the state after
the commits whose records are complete, and opening it gives the store of those commits.

The main results are `AllOk.refines_take`, `replay_take`, `torn_append_recovery`,
`Lasting.commit` and `Lasting.abandoned`. -/

namespace Rift.Trust

open Rift.Lib Rift.Core Std

variable {blake3 : Blake3}

/-- Every call of the sequence succeeds. -/
def AllOk (blake3 : Blake3) :
    StoreInner → List (Call × IoOutcome) → Prop
  | _, [] => True
  | s, (c, io) :: calls => (c.run blake3 s io).1 = .ok () ∧ AllOk blake3 (c.run blake3 s io).2 calls

theorem commit_poisoned_of_ok {s : StoreInner} {m : TrustMutation}
    {expected : Option (DeviceId × ℕ)} {io : IoOutcome}
    (h : (commit blake3 s m expected io).1 = .ok ()) :
    (commit blake3 s m expected io).2.poisoned = s.poisoned := by
  rcases commit_cases blake3 s m expected io with
    ⟨e, -, he⟩ | ⟨record, -, -, he⟩ | ⟨_, _, e, _, -, -, he, -⟩
  · rw [he]
  · rw [he]; rfl
  · rw [he] at h; cases h

/-- **Successful commits** append one entry each: the store after the first `k` of them holds the
first `k` of these entries. -/
theorem AllOk.refines_take : ∀ {s : StoreInner} {es₀ : List Entry}
    {calls : List (Call × IoOutcome)}, AllOk blake3 s calls → Refines blake3 s es₀ →
      s.poisoned = false →
      ∃ es : List Entry, es.map Entry.payload = calls.map (fun c => encodeMutation c.1.mutation) ∧
        ∀ k, (runCalls blake3 s (calls.take k)).poisoned = false ∧
          Refines blake3 (runCalls blake3 s (calls.take k)) (es₀ ++ es.take k)
  | s, es₀, [], _, h, hp => ⟨[], rfl, fun k => by simpa [runCalls] using ⟨hp, h⟩⟩
  | s, es₀, (c, io) :: calls, ⟨hok, hall⟩, h, hp => by
    have hok' := hok
    rw [c.run_eq_commit] at hok'
    obtain ⟨hv, he⟩ := h.commit_ok hok'
    have hp' := commit_poisoned_of_ok hok'
    rw [← c.run_eq_commit] at he hp'
    obtain ⟨es, hpay, htake⟩ := hall.refines_take he (hp'.trans hp)
    refine ⟨Entry.ofMutation _ hv :: es, by simp [hpay, Entry.ofMutation], fun k => ?_⟩
    cases k with
    | zero => simpa [runCalls] using ⟨hp, h⟩
    | succ k =>
      have := htake k
      rw [List.append_assoc] at this
      exact this

/-- **The file of successful commits** on a new store is the journal of their entries, and the store
after each number of them holds as many entries. -/
theorem AllOk.journal {calls : List (Call × IoOutcome)} (h : AllOk blake3 createdStore calls) :
    ∃ es : List Entry, es.length = calls.length ∧
      es.map Entry.payload = calls.map (fun c => encodeMutation c.1.mutation) ∧
      Refines blake3 (runCalls blake3 createdStore calls) es ∧
      ∀ k, (runCalls blake3 createdStore (calls.take k)).poisoned = false ∧
        Refines blake3 (runCalls blake3 createdStore (calls.take k)) (es.take k) := by
  obtain ⟨es, hpay, htake⟩ := h.refines_take refines_created rfl
  have hlen : es.length = calls.length := by simpa using congrArg List.length hpay
  refine ⟨es, hlen, hpay, ?_, htake⟩
  have := (htake calls.length).2
  rwa [List.take_of_length_le hlen.le, List.take_length, List.nil_append] at this

/-- **A cut journal** replays to the state after its complete records. -/
theorem replay_take {es : List Entry} (h : LegalJournal blake3 es) {n : ℕ} (hn : headerLen ≤ n) :
    replay blake3 ((journal blake3 es).take n) =
      .ok (replayed blake3 (es.take ((journalLog blake3).complete (n - headerLen) es))) := by
  obtain ⟨t, ht, htorn⟩ := (journalLog blake3).take_bytes (n - headerLen) es
  have hcut : (journal blake3 es).take n =
      journal blake3 (es.take ((journalLog blake3).complete (n - headerLen) es)) ++ t := by
    rw [journal, List.take_append, length_header,
      List.take_of_length_le (by rw [length_header]; exact hn), ht, journal, List.append_assoc]
  rw [hcut]
  refine replay_torn blake3 (RecordLog.Log.Legal.take h _) ?_
  rcases htorn with rfl | ⟨e, -, q, hq, he⟩
  · rfl
  · exact replayRecord_torn blake3 _ hq he

theorem length_journal_take_le_iff {es : List Entry} {n j : ℕ} (hn : headerLen ≤ n)
    (hj : j ≤ es.length) : (journal blake3 (es.take j)).length ≤ n ↔
      j ≤ (journalLog blake3).complete (n - headerLen) es := by
  rw [← (journalLog blake3).length_bytes_take_le_iff (n - headerLen) es hj, journal,
    List.length_append, length_header]
  omega

/-- **Opening** a file that replays to what a store holds, and begins with the file of that store,
gives that store again. -/
theorem Refines.reopen_torn {s : StoreInner} {es : List Entry} (h : Refines blake3 s es)
    (hp : s.poisoned = false) {b : Bytes} (hlen : b.length ≤ maxStoreSize)
    (hb : Trust.replay blake3 b = .ok ⟨s.decisions, s.fileLen, s.recordCount⟩)
    (hcut : b.take s.fileLen = s.file.bytes) (fails : OpenStep → Bool) :
    (∃ step, fails step = true ∧
        openStore blake3 fails (some b) = .error (.io step.operation)) ∨
      openStore blake3 fails (some b) = .ok { s with generations := ∅ } := by
  rcases openExisting_cases blake3 fails b with he | ⟨hl, -⟩ | ⟨-, he⟩
  · exact Or.inl he
  · omega
  · right
    have hle : s.fileLen ≤ b.length := by
      have hl := congrArg List.length hcut
      rw [h.bytes, ← h.fileLen, List.length_take] at hl
      omega
    have hfile : { (File.mk b 0).setLen s.fileLen with pos := s.fileLen } = s.file := by
      simp only [File.setLen, hcut, Nat.sub_eq_zero_of_le hle, List.replicate_zero, List.append_nil]
      rw [← h.pos hp]
    change openExisting blake3 fails b = _
    rw [he, hb]
    change Except.ok (reopened _ _) = _
    simp only [reopened, fromParts, hfile]
    rw [← hp]

/-- **Torn-append recovery.** Let any commits succeed on a new store, and cut its file to `n` bytes
behind the header. There is a number `k` of commits, those whose records end within the cut, such
that the cut file replays to the state after them, so does the file cut at the length replay
reports, and opening the cut file gives the store after them, with its file ending there and no
generation moved, unless a file-system step fails. -/
theorem torn_append_recovery (blake3 : Blake3)
    (calls : List (Call × IoOutcome)) (hok : AllOk blake3 createdStore calls) (n : ℕ)
    (hn : headerLen ≤ n) :
    let after k := runCalls blake3 createdStore (calls.take k)
    let torn := (runCalls blake3 createdStore calls).file.bytes.take n
    ∃ k ≤ calls.length, (∀ j ≤ calls.length, (after j).fileLen ≤ n ↔ j ≤ k) ∧
      replay blake3 torn = .ok ⟨(after k).decisions, (after k).fileLen, (after k).recordCount⟩ ∧
      replay blake3 (torn.take (after k).fileLen) = replay blake3 torn ∧
      ∀ fails : OpenStep → Bool,
        (∃ step, fails step = true ∧
          openStore blake3 fails (some torn) = .error (.io step.operation)) ∨
        openStore blake3 fails (some torn) = .ok { after k with generations := ∅ } := by
  intro after torn
  obtain ⟨es, hlen, -, hall, htake⟩ := hok.journal
  have href : ∀ k, Refines blake3 (after k) (es.take k) := fun k => (htake k).2
  set k := (journalLog blake3).complete (n - headerLen) es with hk
  have hkle : k ≤ calls.length := hlen ▸ (journalLog blake3).complete_le (n - headerLen) es
  have hlongest : ∀ j ≤ calls.length, (after j).fileLen ≤ n ↔ j ≤ k := fun j hj => by
    rw [(href j).fileLen]
    exact length_journal_take_le_iff hn (hlen ▸ hj)
  have hreplay : replay blake3 torn =
      .ok ⟨(after k).decisions, (after k).fileLen, (after k).recordCount⟩ := by
    have h₁ : torn = (journal blake3 es).take n := by rw [← hall.bytes]
    have h₂ := (href k).replay
    rw [(href k).bytes, replay_journal blake3 (href k).legal] at h₂
    rw [h₁, replay_take hall.legal hn, h₂]
  -- the file the recovered store is left with
  have hcut : torn.take (after k).fileLen = (after k).file.bytes := by
    have hkn := (hlongest k hkle).mpr le_rfl
    have hsplit : journal blake3 es =
        journal blake3 (es.take k) ++ (journalLog blake3).bytes (es.drop k) := by
      rw [← journal_append, List.take_append_drop]
    change ((runCalls blake3 createdStore calls).file.bytes.take n).take _ = _
    rw [hall.bytes, List.take_take, Nat.min_eq_left hkn, (href k).fileLen, (href k).bytes]
    rw [hsplit, List.take_left' rfl]
  refine ⟨k, hkle, hlongest, hreplay, ?_, fun fails => ?_⟩
  · rw [hcut, (href k).replay, hreplay]
  · have hsmall : torn.length ≤ maxStoreSize := by
      have h₁ : torn.length ≤ (journal blake3 es).length := by
        rw [← hall.bytes]; exact List.length_take_le' _ _
      exact h₁.trans hall.small
    exact (href k).reopen_torn (htake k).1 hsmall hreplay hcut fails

/-- Of a trust and a revocation, the file is cut in the middle of the revocation's record: the peer is
trusted again. -/
theorem torn_revocation_recovery :
    let calls : List (Call × IoOutcome) :=
      [(.trust samplePeer, .ok), (.revoke samplePeer.deviceId, .ok)]
    let trusted := runCalls sampleBlake3 createdStore (calls.take 1)
    AllOk sampleBlake3 createdStore calls ∧
      replay sampleBlake3 ((runCalls sampleBlake3 createdStore calls).file.bytes.take 100) =
        .ok ⟨trusted.decisions, trusted.fileLen, trusted.recordCount⟩ := by
  intro calls trusted
  have hok : AllOk sampleBlake3 createdStore calls := ⟨by decide, by decide, trivial⟩
  obtain ⟨k, -, hlongest, hreplay, -⟩ :=
    torn_append_recovery sampleBlake3 calls hok 100 (by decide)
  have h₁ : 1 ≤ k := (hlongest 1 (by decide)).mp (by decide)
  have h₂ : ¬ 2 ≤ k := mt (hlongest 2 (by decide)).mpr (by decide)
  obtain rfl : k = 1 := by omega
  exact ⟨hok, hreplay⟩

/-! ### What is left to replay -/

/-- **A record that was written in part** behind a journal counts as a whole or not at all. -/
theorem Refines.replay_partial {s : StoreInner} {es : List Entry} (h : Refines blake3 s es)
    {m : TrustMutation} {expected : Option (DeviceId × ℕ)} {record : Bytes}
    (hc : commitChecks blake3 s m expected = .ok record) (written : ℕ) {r : ReplayResult}
    (hr : Trust.replay blake3 (s.file.write (record.take written)).bytes = .ok r) :
    r.decisions = s.decisions ∨ r.decisions = applyMutation s.decisions m := by
  have hend : s.file.pos = s.file.bytes.length := by
    rw [h.pos (commitChecks_ok_iff.mp hc).2.1, h.fileLen, h.bytes]
  obtain ⟨hv, hwhole⟩ := h.committed hc
  have hjournal : journal blake3 (es ++ [Entry.ofMutation m hv]) = journal blake3 es ++ record := by
    rw [← hwhole.bytes, ← h.bytes]
    exact congrArg File.bytes (File.write_at_end hend record)
  have hcut : (s.file.write (record.take written)).bytes =
      (journal blake3 (es ++ [Entry.ofMutation m hv])).take
        ((journal blake3 es).length + written) := by
    rw [hjournal, List.take_length_add_append, ← h.bytes]
    exact congrArg File.bytes (File.write_at_end hend _)
  have hlen : headerLen ≤ (journal blake3 es).length + written := by
    rw [journal, List.length_append, length_header]
    omega
  rw [hcut, replay_take hwhole.legal hlen] at hr
  obtain rfl := Except.ok.inj hr
  -- All the old records are complete, so that it is only about the last one.
  have hwithin : (journal blake3 ((es ++ [Entry.ofMutation m hv]).take es.length)).length ≤
      (journal blake3 es).length + written := by
    rw [List.take_left]
    omega
  have hold := (length_journal_take_le_iff hlen (by simp)).mp hwithin
  generalize (journalLog blake3).complete _ _ = k at hold ⊢
  by_cases hk : k = es.length
  · rw [hk, List.take_left]
    exact Or.inl h.decisions.symm
  · rw [List.take_of_length_le (by rw [List.length_append, List.length_singleton]; omega)]
    exact Or.inr hwhole.decisions.symm

/-- The store refines its journal unless it is poisoned, and what its file replays to, if it does, has
a property. -/
structure Lasting (blake3 : Blake3) (P : Decisions → Prop)
    (s : StoreInner) : Prop where
  refines : s.poisoned = false → ∃ es, Refines blake3 s es
  replays : ∀ r, replay blake3 s.file.bytes = .ok r → P r.decisions

namespace Lasting

variable {P : Decisions → Prop} {s : StoreInner} {m : TrustMutation}
  {expected : Option (DeviceId × ℕ)}

theorem ofRefines {es : List Entry} (h : Refines blake3 s es) (hP : P s.decisions) :
    Lasting blake3 P s where
  refines _ := ⟨es, h⟩
  replays r hr := by
    rw [h.replay] at hr
    obtain rfl := Except.ok.inj hr
    exact hP

theorem abandoned (h : Lasting blake3 P s) (hs : P s.decisions)
    (hm : ∀ record, commitChecks blake3 s m expected = .ok record →
      P (applyMutation s.decisions m)) (written : ℕ) {r : ReplayResult}
    (hr : replay blake3 (commitAbandoned blake3 s m expected written).file.bytes = .ok r) :
    P r.decisions := by
  cases hc : commitChecks blake3 s m expected with
  | error e =>
    simp only [commitAbandoned, hc] at hr
    exact h.replays r hr
  | ok record =>
    simp only [commitAbandoned, hc] at hr
    obtain ⟨es, hes⟩ := h.refines (commitChecks_ok_iff.mp hc).2.1
    rcases hes.replay_partial hc written hr with heq | heq
    · rw [heq]
      exact hs
    · rw [heq]
      exact hm record hc

/-- **One commit**, whatever becomes of it: the file replays to the decisions before it or after it. -/
theorem commit (h : Lasting blake3 P s) (hs : P s.decisions)
    (hm : ∀ record, commitChecks blake3 s m expected = .ok record →
      P (applyMutation s.decisions m)) (io : IoOutcome) :
    Lasting blake3 P (commit blake3 s m expected io).2 := by
  cases hc : commitChecks blake3 s m expected with
  | error e =>
    rw [commit_of_error hc]
    exact h
  | ok record =>
    obtain ⟨es, hes⟩ := h.refines (commitChecks_ok_iff.mp hc).2.1
    have hback (b : Bytes) := hes.rolledBack (commitChecks_ok_iff.mp hc).2.1 b
    obtain ⟨persist, rollback⟩ := io
    cases persist with
    | done =>
      rw [commit_of_done hc rfl]
      obtain ⟨_, hdone⟩ := hes.committed hc
      exact .ofRefines hdone (hm record hc)
    | fails failure written =>
      cases rollback with
      | done | syncFails =>
        simp only [Trust.commit, hc, persistRecord, rollbackRecord]
        exact .ofRefines (hback _) hs
      | truncateFails =>
        simp only [Trust.commit, hc, persistRecord, rollbackRecord]
        refine ⟨fun hpoisoned => Bool.noConfusion hpoisoned, fun r hr => ?_⟩
        rcases hes.replay_partial hc written hr with heq | heq
        · rw [heq]
          exact hs
        · rw [heq]
          exact hm record hc

end Lasting

end Rift.Trust
