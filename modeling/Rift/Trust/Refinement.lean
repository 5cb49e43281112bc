import Rift.Trust.Store

/-! # The store refines its journal

What a store keeps in memory is what replaying its file gives. `Refines s es` says that the file is
the journal of the entries `es`, and that the decisions, the length and the count in memory are those
of `es`. Opening establishes it for some entries; a commit either appends one entry to them or, when
it is rejected or fails and is rolled back, leaves them as they are.

The main results are `Refines.commit_ok`, `Refines.commit_error`, `Refines.runCalls`,
`Refines.replay`, `Refines.reopen` and `mutations_refine_replay`. -/

namespace Rift.Trust

open Rift.Lib Rift.Core Std

variable {blake3 : Blake3}

/-- The store holds, in its file and in memory, the entries `es`; as long as it is not poisoned the
next append goes to the end of the file. -/
structure Refines (blake3 : Blake3) (s : StoreInner) (es : List Entry) :
    Prop where
  legal : LegalJournal blake3 es
  bytes : s.file.bytes = journal blake3 es
  decisions : s.decisions = (replayed blake3 es).decisions
  fileLen : s.fileLen = (journal blake3 es).length
  recordCount : s.recordCount = es.length
  small : (journal blake3 es).length ≤ maxStoreSize
  pos : s.poisoned = false → s.file.pos = s.fileLen

/-! ### Opening -/

theorem refines_created : Refines blake3 (fromParts ⟨header, headerLen⟩ ∅ headerLen 0) [] where
  legal := trivial
  bytes := (List.append_nil header).symm
  decisions := rfl
  fileLen := (length_journal_nil blake3).symm
  recordCount := rfl
  small := by rw [length_journal_nil]; decide
  pos _ := rfl

theorem refines_reopened {b : Bytes} {r : ReplayResult} (h : replay blake3 b = .ok r)
    (hlen : b.length ≤ maxStoreSize) : ∃ es, Refines blake3 (reopened b r) es := by
  obtain ⟨es, t, hes, rfl, rfl⟩ := replay_ok blake3 h
  refine ⟨es, hes, ?_, rfl, replayed_validLen blake3 es, replayed_recordCount blake3 es, ?_,
    fun _ => rfl⟩
  · change ((File.mk (journal blake3 es ++ t) 0).setLen _).bytes = _
    rw [replayed_validLen, File.setLen_append]
  · rw [List.length_append] at hlen; omega

/-- **Opening** a store establishes the refinement, with no generation moved. -/
theorem openStore_refines {fails : OpenStep → Bool} {existing : Option Bytes} {s : StoreInner}
    (h : openStore blake3 fails existing = .ok s) :
    s.poisoned = false ∧ s.generations = ∅ ∧ ∃ es, Refines blake3 s es := by
  cases existing with
  | none =>
    unfold openStore at h
    rcases OpenStep.create.attempt_cases fails with h₁ | ⟨-, h₁⟩ <;> rw [h₁] at h
    swap; · cases h
    rcases OpenStep.writeHeader.attempt_cases fails with h₂ | ⟨-, h₂⟩ <;> rw [h₂] at h
    swap; · cases h
    rcases OpenStep.flushHeader.attempt_cases fails with h₃ | ⟨-, h₃⟩ <;> rw [h₃] at h
    swap; · cases h
    rcases OpenStep.syncHeader.attempt_cases fails with h₄ | ⟨-, h₄⟩ <;> rw [h₄] at h
    swap; · cases h
    cases h
    exact ⟨rfl, rfl, [], refines_created⟩
  | some b =>
    obtain ⟨hlen, r, hr, rfl⟩ := openStore_some_ok h
    exact ⟨rfl, rfl, refines_reopened hr hlen⟩

/-! ### One commit -/

namespace Refines

variable {s : StoreInner} {es : List Entry} {m : TrustMutation} {expected : Option (DeviceId × ℕ)}
  {io : IoOutcome}

theorem committed (h : Refines blake3 s es) {record : Bytes}
    (hc : commitChecks blake3 s m expected = .ok record) :
    ∃ hv : validateMutation m = .ok (),
      Refines blake3 (s.committed m (s.file.write record) record.length)
        (es ++ [Entry.ofMutation m hv]) := by
  obtain ⟨hv, hp, -, ht, hn, hs, rfl⟩ := commitChecks_ok_iff.mp hc
  have hend : s.file.pos = s.file.bytes.length := by rw [h.pos hp, h.fileLen, h.bytes]
  refine ⟨hv, ?_, ?_, ?_, ?_, ?_, ?_, ?_⟩
  · exact (legalJournal_concat blake3).mpr ⟨h.legal, h.recordCount ▸ hn, h.decisions ▸ ht⟩
  · rw [journal_concat, ← h.bytes]
    change (s.file.write _).bytes = _
    rw [File.write_at_end hend]
    rfl
  · rw [replayed_concat, ← h.decisions]; rfl
  · rw [journal_concat, List.length_append, ← h.fileLen]; rfl
  · rw [List.length_append, ← h.recordCount]; rfl
  · rw [journal_concat, List.length_append, ← h.fileLen]; exact hs
  · intro _
    change (s.file.write _).pos = s.fileLen + _
    rw [File.write_at_end hend, h.bytes, ← h.fileLen]

theorem rolledBack (h : Refines blake3 s es) (hp : s.poisoned = false) (b : Bytes) :
    Refines blake3 { s with file := (s.file.write b).setLen s.fileLen, poisoned := true } es := by
  have hend : s.file.pos = s.file.bytes.length := by rw [h.pos hp, h.fileLen, h.bytes]
  refine ⟨h.legal, ?_, h.decisions, h.fileLen, h.recordCount, h.small, fun hf => by cases hf⟩
  change ((s.file.write b).setLen s.fileLen).bytes = _
  rw [File.write_at_end hend, h.fileLen, ← h.bytes, File.setLen_append]

/-- **A commit that succeeds** appends the entry of its mutation. -/
theorem commit_ok (h : Refines blake3 s es) (hok : (commit blake3 s m expected io).1 = .ok ()) :
    ∃ hv : validateMutation m = .ok (),
      Refines blake3 (commit blake3 s m expected io).2 (es ++ [Entry.ofMutation m hv]) := by
  rcases commit_cases blake3 s m expected io with
    ⟨e, -, he⟩ | ⟨record, hc, -, he⟩ | ⟨_, _, e, _, -, -, he, -⟩
  · rw [he] at hok; cases hok
  · rw [he]; exact h.committed hc
  · rw [he] at hok; cases hok

/-- **A commit that fails** leaves the entries as they are, if its rollback succeeds. -/
theorem commit_error (h : Refines blake3 s es) (hio : io.rollback = .done)
    (herr : (commit blake3 s m expected io).1 ≠ .ok ()) :
    Refines blake3 (commit blake3 s m expected io).2 es := by
  rcases commit_cases blake3 s m expected io with
    ⟨e, -, he⟩ | ⟨record, -, -, he⟩ | ⟨record, written, e, file, hc, -, he, hf⟩
  · rw [he]; exact h
  · rw [he] at herr; exact absurd rfl herr
  · rw [he, hf (by simp [hio])]
    exact h.rolledBack (commitChecks_ok_iff.mp hc).2.1 _

/-- **One commit**, whatever becomes of it. -/
theorem commit (h : Refines blake3 s es) (hio : io.rollback = .done) :
    ∃ es', Refines blake3 (Trust.commit blake3 s m expected io).2 es' := by
  by_cases hok : (Trust.commit blake3 s m expected io).1 = .ok ()
  · obtain ⟨_, hr⟩ := h.commit_ok hok
    exact ⟨_, hr⟩
  · exact ⟨es, h.commit_error hio hok⟩

/-! ### Replaying and reopening -/

/-- **Replaying the file** gives what is in memory. -/
theorem replay (h : Refines blake3 s es) :
    Trust.replay blake3 s.file.bytes = .ok ⟨s.decisions, s.fileLen, s.recordCount⟩ := by
  rw [h.bytes, replay_journal blake3 h.legal, h.decisions, h.fileLen, h.recordCount,
    ← replayed_validLen, ← replayed_recordCount blake3 es]

/-- **Reopening the file** fails for an I/O error only, and gives what was in memory. -/
theorem reopen (h : Refines blake3 s es) (fails : OpenStep → Bool) :
    (∃ step, fails step = true ∧
        openStore blake3 fails (some s.file.bytes) = .error (.io step.operation)) ∨
      openStore blake3 fails (some s.file.bytes) =
        .ok (fromParts ⟨s.file.bytes, s.fileLen⟩ s.decisions s.fileLen s.recordCount) := by
  have hlen : s.file.bytes.length = s.fileLen := by rw [h.bytes, h.fileLen]
  have hsmall : s.file.bytes.length ≤ maxStoreSize := by rw [h.bytes]; exact h.small
  rcases openExisting_cases blake3 fails s.file.bytes with he | ⟨hl, -⟩ | ⟨-, he⟩
  · exact Or.inl he
  · omega
  · right
    change openExisting blake3 fails s.file.bytes = _
    rw [he, h.replay]
    change Except.ok (reopened _ _) = _
    simp [reopened, File.setLen, hlen, List.take_of_length_le hlen.le]

end Refines

/-! ### Sequences of calls -/

/-- The store after a sequence of calls, each with what the file system does during it. -/
def runCalls (blake3 : Blake3) (s : StoreInner) :
    List (Call × IoOutcome) → StoreInner
  | [] => s
  | (c, io) :: calls => runCalls blake3 (c.run blake3 s io).2 calls

theorem Refines.runCalls : ∀ {s : StoreInner} {es : List Entry}, Refines blake3 s es →
    ∀ {calls : List (Call × IoOutcome)}, (∀ c ∈ calls, c.2.rollback = .done) →
      ∃ es', Refines blake3 (runCalls blake3 s calls) es'
  | s, es, h, [], _ => ⟨es, h⟩
  | s, es, h, (c, io) :: calls, hio => by
    rw [Trust.runCalls, c.run_eq_commit]
    obtain ⟨es', h'⟩ := h.commit (hio (c, io) List.mem_cons_self)
    exact h'.runCalls fun c' hc' => hio c' (List.mem_cons_of_mem _ hc')

/-! ### Failing calls -/

theorem validateMutation_ne_io {m : TrustMutation} {op : String} :
    validateMutation m ≠ .error (.io op) := by
  cases m with
  | trust peer =>
    simp only [validateMutation, validatePeer]
    split_ifs <;> simp
  | revoke d => simp [validateMutation]
  | forget d => simp [validateMutation]

theorem validateTransition_ne_io {decisions : Decisions} {m : TrustMutation} {op : String} :
    validateTransition decisions m ≠ .error (.io op) := by
  cases m with
  | trust peer =>
    simp only [validateTransition]
    split_ifs <;> simp
  | revoke d => simp [validateTransition]
  | forget d => simp [validateTransition]

theorem commitChecks_ne_io {s : StoreInner} {m : TrustMutation} {expected : Option (DeviceId × ℕ)}
    {op : String} : commitChecks blake3 s m expected ≠ .error (.io op) := by
  cases hv : validateMutation m with
  | error e =>
    rw [commitChecks_of_invalid s hv]
    intro h
    cases h
    exact validateMutation_ne_io hv
  | ok =>
    rw [commitChecks_of_valid s hv]
    cases s.poisoned
    · cases s.isStale expected
      · cases ht : validateTransition s.decisions m with
        | error e =>
          intro h
          cases h
          exact validateTransition_ne_io ht
        | ok =>
          simp only [Bool.false_eq_true, if_false]
          split_ifs <;> simp
      · simp
    · simp

theorem Call.poisoned_of_io {s : StoreInner} {c : Call} {io : IoOutcome} {op : String}
    (h : (c.run blake3 s io).1 = .error (.io op)) : (c.run blake3 s io).2.poisoned = true := by
  rw [c.run_eq_commit] at h ⊢
  rcases commit_cases blake3 s c.mutation c.expectedGeneration io with
    ⟨e, hc, he⟩ | ⟨record, -, -, he⟩ | ⟨record, written, e, file, -, -, he, -⟩
  · rw [he] at h
    cases h
    exact absurd hc commitChecks_ne_io
  · rw [he] at h; cases h
  · rw [he]

/-- **A poisoned store** rejects every call, invalid metadata first, and stays as it is. -/
theorem Call.run_of_poisoned {s : StoreInner} (hp : s.poisoned = true) (c : Call) (io : IoOutcome) :
    c.run blake3 s io = (match validateMutation c.mutation with
      | .ok () => .error .storePoisoned
      | .error e => .error e, s) := by
  rw [c.run_eq_commit]
  cases hv : validateMutation c.mutation with
  | error e => exact commit_of_error (commitChecks_of_invalid s hv _) io
  | ok =>
    refine commit_of_error ?_ io
    rw [commitChecks_of_valid s hv, if_pos hp]

theorem runCalls_of_poisoned {s : StoreInner} (hp : s.poisoned = true) :
    ∀ calls : List (Call × IoOutcome), runCalls blake3 s calls = s
  | [] => rfl
  | (c, io) :: calls => by
    rw [runCalls, c.run_of_poisoned hp]
    exact runCalls_of_poisoned hp calls

/-- **The store refines its journal over every history.** On an opened store, after any calls whose
failed appends were rolled back: replaying the file gives the decisions, the length and the count in
memory; a call that fails changes none of the three; once a call has returned an I/O error, every
later mutation is rejected, as poisoned if its metadata is valid and for its metadata otherwise; and
reopening the file can only fail with an I/O error. -/
theorem mutations_refine_replay (blake3 : Blake3)
    (fails : OpenStep → Bool) (existing : Option Bytes) (s₀ : StoreInner)
    (hopen : openStore blake3 fails existing = .ok s₀)
    (calls : List (Call × IoOutcome)) (hio : ∀ c ∈ calls, c.2.rollback = .done) (s : StoreInner)
    (hs : s = runCalls blake3 s₀ calls) :
    replay blake3 s.file.bytes = .ok ⟨s.decisions, s.fileLen, s.recordCount⟩ ∧
    (∀ (c : Call) (io : IoOutcome), io.rollback = .done → (c.run blake3 s io).1 ≠ .ok () →
      (c.run blake3 s io).2.decisions = s.decisions ∧
        (c.run blake3 s io).2.fileLen = s.fileLen ∧
        (c.run blake3 s io).2.recordCount = s.recordCount) ∧
    (∀ (c : Call) (io : IoOutcome) (op : String), (c.run blake3 s io).1 = .error (.io op) →
      ∀ (between : List (Call × IoOutcome)) (later : Call) (io' : IoOutcome),
        (later.run blake3 (runCalls blake3 (c.run blake3 s io).2 between) io').1 =
          match validateMutation later.mutation with
          | .ok () => .error .storePoisoned
          | .error e => .error e) ∧
    (∀ fails' : OpenStep → Bool,
      (∃ op, openStore blake3 fails' (some s.file.bytes) = .error (.io op)) ∨
        ∃ s', openStore blake3 fails' (some s.file.bytes) = .ok s' ∧
          s'.decisions = s.decisions ∧ s'.fileLen = s.fileLen ∧
          s'.recordCount = s.recordCount) := by
  obtain ⟨-, -, es₀, h₀⟩ := openStore_refines hopen
  obtain ⟨es, h⟩ := h₀.runCalls hio
  rw [← hs] at h
  refine ⟨h.replay, ?_, ?_, ?_⟩
  · intro c io hr herr
    rw [c.run_eq_commit] at herr ⊢
    have h' := h.commit_error hr herr
    exact ⟨h'.decisions.trans h.decisions.symm, h'.fileLen.trans h.fileLen.symm,
      h'.recordCount.trans h.recordCount.symm⟩
  · intro c io op herr between later io'
    have hp := Call.poisoned_of_io herr
    rw [runCalls_of_poisoned hp, later.run_of_poisoned hp]
  · intro fails'
    rcases h.reopen fails' with ⟨step, -, he⟩ | he
    · exact Or.inl ⟨_, he⟩
    · exact Or.inr ⟨_, he, rfl, rfl, rfl⟩

/-- A trusted peer, then a revocation that fails at the sync after forty bytes. -/
theorem failed_revoke_refines_replay :
    let s := runCalls sampleBlake3 createdStore [(.trust samplePeer, .ok)]
    let failing : IoOutcome := ⟨.fails .sync 40, .done⟩
    replay sampleBlake3 s.file.bytes = .ok ⟨s.decisions, s.fileLen, s.recordCount⟩ ∧
      ((Call.revoke samplePeer.deviceId).run sampleBlake3 s failing).1 = .error (.io "sync") ∧
      ((Call.forget samplePeer.deviceId).run sampleBlake3
        ((Call.revoke samplePeer.deviceId).run sampleBlake3 s failing).2 .ok).1 =
          .error .storePoisoned := by
  have h := mutations_refine_replay sampleBlake3 (fun _ => false) none createdStore rfl
    [(.trust samplePeer, .ok)] (by decide) _ rfl
  have herr : ((Call.revoke samplePeer.deviceId).run sampleBlake3
      (runCalls sampleBlake3 createdStore [(.trust samplePeer, .ok)]) ⟨.fails .sync 40, .done⟩).1 =
        .error (.io "sync") := by decide
  exact ⟨h.1, herr, h.2.2.1 _ _ _ herr [] (.forget samplePeer.deviceId) .ok⟩

/-- **A poisoned store does not answer every mutation as poisoned**: after a revocation that was
rolled back, trusting a peer whose platform has 65 bytes is refused for the platform. -/
theorem poisoned_store_reports_long_platform :
    let failing : IoOutcome := ⟨.fails .sync 40, .done⟩
    let poisoned := ((Call.revoke samplePeer.deviceId).run sampleBlake3 createdStore failing).2
    ((Call.revoke samplePeer.deviceId).run sampleBlake3 createdStore failing).1 =
        .error (.io "sync") ∧
      ((Call.trust { samplePeer with platform := String.ofList (List.replicate 65 'a') }).run
        sampleBlake3 poisoned .ok).1 = .error (.metadataTooLong "platform" 65 64) := by
  decide

end Rift.Trust
