import Rift.Trust.Refinement

/-! # Abandoned commits

The future of a commit may be dropped while its record is being written. The lock is then released
with part of the record behind the length the store knows, and the next record goes behind that part.
A run is a list of calls and of abandoned commits; the records that were acknowledged are kept beside
the store, with the places they were written to.

As long as nothing is committed behind what an abandoned commit left, and an abandoned commit leaves
less than its record or changes no decision (`StoreStep.Clean`), the file replays to the decisions in
memory and every acknowledged record stays in it. Nothing in the code ensures that.

The main results are `Synced.step`, `clean_run_synced` and `abandoned_commit_loses_revocation`. -/

namespace Rift.Trust

open Rift.Lib Rift.Core Std

/-- A store, and the records it has acknowledged with their places in the file. -/
structure Tracked where
  store : StoreInner
  acknowledged : List (ℕ × Bytes)

/-- A call that returns, or one that is dropped after some bytes of its record reached the file. -/
inductive StoreStep
  | call (call : Call) (io : IoOutcome)
  | abandon (call : Call) (written : ℕ)

section

variable (blake3 : Blake3)

/-- The store and what was acknowledged after a step. -/
def Tracked.step (t : Tracked) : StoreStep → Tracked
  | .call c io =>
    { store := (c.run blake3 t.store io).2
      acknowledged :=
        match (c.run blake3 t.store io).1 with
        | .ok () => t.acknowledged ++
            [(t.store.file.pos, recordBytes blake3 (encodeMutation c.mutation))]
        | .error _ => t.acknowledged }
  | .abandon c written =>
    { t with store := commitAbandoned blake3 t.store c.mutation c.expectedGeneration written }

/-- The same after some steps. -/
def Tracked.run (t : Tracked) : List StoreStep → Tracked
  | [] => t
  | step :: steps => Tracked.run (t.step blake3 step) steps

/-- The record lies in the file at its place. -/
def Tracked.Holds (t : Tracked) (place : ℕ × Bytes) : Prop :=
  (t.store.file.bytes.drop place.1).take place.2.length = place.2

instance (t : Tracked) (place : ℕ × Bytes) : Decidable (t.Holds place) := by
  unfold Tracked.Holds
  infer_instance

/-- If the step commits or leaves bytes behind, the file ends where the store knows it to end; a failed
append is cut off again; and an abandoned commit leaves less than its record or one that changes no
decision. -/
def StoreStep.Clean (t : Tracked) : StoreStep → Prop
  | .call c io => ∀ record,
      commitChecks blake3 t.store c.mutation c.expectedGeneration = .ok record →
        if io.persist = .done then t.store.file.bytes.length = t.store.fileLen
        else io.rollback ≠ .truncateFails
  | .abandon c written => ∀ record,
      commitChecks blake3 t.store c.mutation c.expectedGeneration = .ok record → written ≠ 0 →
        t.store.file.bytes.length = t.store.fileLen ∧
          (written < record.length ∨
            applyMutation t.store.decisions c.mutation = t.store.decisions)

/-- Every step of the run is clean where it is taken. -/
def CleanRun : Tracked → List StoreStep → Prop
  | _, [] => True
  | t, step :: steps => step.Clean blake3 t ∧ CleanRun (t.step blake3 step) steps

/-- The store holds the entries `es`, its file ends with a residue that replay does not count, and
the acknowledged records lie within the length the store knows. -/
structure Synced (t : Tracked) (es : List Entry) (residue : Bytes) : Prop where
  legal : LegalJournal blake3 es
  bytes : t.store.file.bytes = journal blake3 es ++ residue
  decisions : t.store.decisions = (replayed blake3 es).decisions
  fileLen : t.store.fileLen = (journal blake3 es).length
  recordCount : t.store.recordCount = es.length
  small : (journal blake3 es).length ≤ maxStoreSize
  pos : t.store.poisoned = false → t.store.file.pos = t.store.file.bytes.length
  replays : ∃ r, replay blake3 t.store.file.bytes = .ok r ∧ r.decisions = t.store.decisions
  holds : ∀ place ∈ t.acknowledged,
    place.1 + place.2.length ≤ t.store.fileLen ∧ t.Holds place

end

variable {blake3 : Blake3}

namespace Synced

variable {t : Tracked} {es : List Entry} {residue : Bytes}

theorem refines (h : Synced blake3 t es residue)
    (hlen : t.store.file.bytes.length = t.store.fileLen) : Refines blake3 t.store es := by
  have hnil : residue = [] := by
    have := congrArg List.length h.bytes
    rw [List.length_append, hlen, h.fileLen] at this
    exact List.length_eq_zero_iff.mp (by omega)
  refine ⟨h.legal, ?_, h.decisions, h.fileLen, h.recordCount, h.small, fun hp => ?_⟩
  · rw [h.bytes, hnil, List.append_nil]
  · rw [h.pos hp, hlen]

theorem ofRefines (h : Refines blake3 t.store es)
    (hholds : ∀ place ∈ t.acknowledged,
      place.1 + place.2.length ≤ t.store.fileLen ∧ t.Holds place) : Synced blake3 t es [] where
  legal := h.legal
  bytes := by rw [h.bytes, List.append_nil]
  decisions := h.decisions
  fileLen := h.fileLen
  recordCount := h.recordCount
  small := h.small
  pos hp := by rw [h.pos hp, h.fileLen, h.bytes]
  replays := ⟨_, h.replay, rfl⟩
  holds := hholds

end Synced

theorem Tracked.holds_of_take {t t' : Tracked} {n : ℕ} {place : ℕ × Bytes}
    (hsame : t'.store.file.bytes.take n = t.store.file.bytes.take n)
    (hn : place.1 + place.2.length ≤ n) (h : t.Holds place) : t'.Holds place := by
  unfold Tracked.Holds at h ⊢
  have hcut : ∀ b : Bytes,
      (b.drop place.1).take place.2.length = ((b.take n).drop place.1).take place.2.length := by
    intro b
    rw [List.drop_take, List.take_take, Nat.min_eq_left (by omega)]
  rw [hcut, hsame, ← hcut]
  exact h

namespace Synced

variable {t : Tracked} {es : List Entry} {residue : Bytes}

theorem committed (h : Synced blake3 t es residue)
    (hlen : t.store.file.bytes.length = t.store.fileLen) {m : TrustMutation}
    {expected : Option (DeviceId × ℕ)} {record : Bytes}
    (hc : commitChecks blake3 t.store m expected = .ok record) :
    ∃ es', Synced blake3
      ⟨t.store.committed m (t.store.file.write record) record.length,
        t.acknowledged ++ [(t.store.file.pos, recordBytes blake3 (encodeMutation m))]⟩ es' [] := by
  have hp := (commitChecks_ok_iff.mp hc).2.1
  have hrec : record = recordBytes blake3 (encodeMutation m) :=
    (commitChecks_ok_iff.mp hc).2.2.2.2.2.2
  obtain ⟨hv, hr⟩ := (h.refines hlen).committed hc
  have hfile := File.write_at_end (h.pos hp) record
  refine ⟨_, ofRefines hr fun place hplace => ?_⟩
  change _ ≤ t.store.fileLen + record.length ∧ _
  rcases List.mem_append.mp hplace with hold | hnew
  · obtain ⟨hle, hholds⟩ := h.holds place hold
    refine ⟨by omega, Tracked.holds_of_take (n := t.store.fileLen) ?_ hle hholds⟩
    change (t.store.file.write record).bytes.take _ = _
    rw [hfile, ← hlen, List.take_left' rfl, List.take_length]
  · obtain rfl := List.mem_singleton.mp hnew
    refine ⟨by rw [h.pos hp, hlen, hrec], ?_⟩
    change ((t.store.file.write record).bytes.drop _).take _ = _
    rw [hfile, h.pos hp, List.drop_left' rfl, ← hrec, List.take_length]

theorem rolledBack (h : Synced blake3 t es residue) (hp : t.store.poisoned = false) (b : Bytes) :
    Refines blake3
      { t.store with file := (t.store.file.write b).setLen t.store.fileLen, poisoned := true } es := by
  refine ⟨h.legal, ?_, h.decisions, h.fileLen, h.recordCount, h.small, fun hf => by cases hf⟩
  change ((t.store.file.write b).setLen t.store.fileLen).bytes = _
  rw [File.write_at_end (h.pos hp), h.bytes, h.fileLen, List.append_assoc, File.setLen_append]

theorem call (h : Synced blake3 t es residue) {c : Call} {io : IoOutcome}
    (hclean : (StoreStep.call c io).Clean blake3 t) :
    ∃ es' residue', Synced blake3 (t.step blake3 (.call c io)) es' residue' := by
  simp only [Tracked.step, c.run_eq_commit]
  rcases commit_cases blake3 t.store c.mutation c.expectedGeneration io with
    ⟨e, -, he⟩ | ⟨record, hc, hio, he⟩ | ⟨record, written, e, file, hc, hio, he, hf⟩
  · rw [he]
    exact ⟨es, residue, h⟩
  · have hlen : t.store.file.bytes.length = t.store.fileLen := by
      simpa only [if_pos hio] using hclean record hc
    rw [he]
    obtain ⟨es', h'⟩ := h.committed hlen hc
    exact ⟨es', [], h'⟩
  · have hcut : io.rollback ≠ .truncateFails := by
      simpa only [if_neg hio] using hclean record hc
    rw [he, hf hcut]
    have hr := h.rolledBack (commitChecks_ok_iff.mp hc).2.1 (record.take written)
    refine ⟨es, [], ofRefines hr fun place hplace => ?_⟩
    obtain ⟨hle, hholds⟩ := h.holds place hplace
    refine ⟨hle, Tracked.holds_of_take (n := t.store.fileLen) ?_ hle hholds⟩
    refine (congrArg (List.take t.store.fileLen) hr.bytes).trans ?_
    rw [h.bytes, h.fileLen, List.take_length, List.take_left' rfl]

theorem abandoned (h : Synced blake3 t es residue)
    (hlen : t.store.file.bytes.length = t.store.fileLen) {m : TrustMutation}
    {expected : Option (DeviceId × ℕ)} {record : Bytes}
    (hc : commitChecks blake3 t.store m expected = .ok record) {written : ℕ}
    (hw : written < record.length ∨ applyMutation t.store.decisions m = t.store.decisions) :
    Synced blake3
      { t with store := { t.store with file := t.store.file.write (record.take written) } } es
      (record.take written) := by
  obtain ⟨hv, hp, -, ht, hn, -, rfl⟩ := commitChecks_ok_iff.mp hc
  have hr := h.refines hlen
  have hfile := File.write_at_end (h.pos hp)
    ((recordBytes blake3 (encodeMutation m)).take written)
  have hbytes : (t.store.file.write ((recordBytes blake3 (encodeMutation m)).take written)).bytes =
      journal blake3 es ++ (recordBytes blake3 (encodeMutation m)).take written := by
    rw [hfile, hr.bytes]
  refine ⟨h.legal, hbytes, h.decisions, h.fileLen, h.recordCount, h.small, fun _ => ?_, ?_, ?_⟩
  · change (t.store.file.write _).pos = (t.store.file.write _).bytes.length
    rw [hfile, List.length_append]
  · change ∃ r, replay blake3 (t.store.file.write _).bytes = .ok r ∧ r.decisions = t.store.decisions
    rw [hbytes]
    by_cases hshort : written < (recordBytes blake3 (encodeMutation m)).length
    · refine ⟨_, replay_torn blake3 h.legal (replayRecord_torn blake3 _
        (e := Entry.ofMutation m hv) (q := (recordBytes blake3 (encodeMutation m)).drop written)
        ?_ (List.take_append_drop _ _)), h.decisions.symm⟩
      exact fun hnil => by
        have := congrArg List.length hnil
        rw [List.length_drop, List.length_nil] at this
        omega
    · have hlegal : LegalJournal blake3 (es ++ [Entry.ofMutation m hv]) :=
        (legalJournal_concat blake3).mpr ⟨h.legal, h.recordCount ▸ hn, h.decisions ▸ ht⟩
      refine ⟨replayed blake3 (es ++ [Entry.ofMutation m hv]), ?_, ?_⟩
      · rw [List.take_of_length_le (by omega), ← replay_journal blake3 hlegal, journal_concat]
        rfl
      · rw [replayed_concat, ← h.decisions]
        exact hw.resolve_left hshort
  · intro place hplace
    obtain ⟨hle, hholds⟩ := h.holds place hplace
    refine ⟨hle, Tracked.holds_of_take (n := t.store.fileLen) ?_ hle hholds⟩
    change (t.store.file.write _).bytes.take _ = _
    rw [hfile, ← hlen, List.take_left' rfl, List.take_length]

/-- **One clean step.** -/
theorem step (h : Synced blake3 t es residue) {step : StoreStep} (hclean : step.Clean blake3 t) :
    ∃ es' residue', Synced blake3 (t.step blake3 step) es' residue' := by
  cases step with
  | call c io => exact h.call hclean
  | abandon c written =>
    simp only [Tracked.step, commitAbandoned]
    cases hc : commitChecks blake3 t.store c.mutation c.expectedGeneration with
    | error e => exact ⟨es, residue, h⟩
    | ok record =>
      by_cases hw : written = 0
      · have hp := (commitChecks_ok_iff.mp hc).2.1
        have hsame : t.store.file.write (record.take written) = t.store.file := by
          rw [hw, List.take_zero, File.write_at_end (h.pos hp), List.append_nil, List.length_nil,
            Nat.add_zero, ← h.pos hp]
        simp only [hsame]
        exact ⟨es, residue, h⟩
      · obtain ⟨hlen, hkeeps⟩ := hclean record hc hw
        exact ⟨es, _, h.abandoned hlen hc hkeeps⟩

theorem run : ∀ {t : Tracked} {es : List Entry} {residue : Bytes} {steps : List StoreStep},
    Synced blake3 t es residue → CleanRun blake3 t steps →
      ∃ es' residue', Synced blake3 (t.run blake3 steps) es' residue'
  | _, es, residue, [], h, _ => ⟨es, residue, h⟩
  | _, _, _, _ :: _, h, ⟨hclean, hrest⟩ => by
    obtain ⟨_, _, h'⟩ := h.step hclean
    exact h'.run hrest

end Synced

/-- **Clean runs stay in step.** On an opened store, after any calls and abandoned commits that are
clean where they happen, the file replays to the decisions in memory and holds every record that was
acknowledged, also after a failed commit was rolled back. -/
theorem clean_run_synced (blake3 : Blake3) (fails : OpenStep → Bool)
    (existing : Option Bytes) (s₀ : StoreInner)
    (hopen : openStore blake3 fails existing = .ok s₀) (steps : List StoreStep)
    (hclean : CleanRun blake3 ⟨s₀, []⟩ steps) :
    let t := Tracked.run blake3 ⟨s₀, []⟩ steps
    (∃ r, replay blake3 t.store.file.bytes = .ok r ∧ r.decisions = t.store.decisions) ∧
      ∀ place ∈ t.acknowledged, t.Holds place := by
  intro t
  obtain ⟨-, -, es, hr⟩ := openStore_refines hopen
  have h₀ : Synced blake3 ⟨s₀, []⟩ es [] := Synced.ofRefines hr fun _ hplace => by cases hplace
  obtain ⟨_, _, h⟩ := h₀.run hclean
  exact ⟨h.replays, fun place hplace => (h.holds place hplace).2⟩

/-- A revocation, then a forget that is abandoned in the middle of its record, and one whose append
fails and is rolled back, together with what the first has left. -/
theorem clean_run_with_abandoned_forget :
    let steps : List StoreStep :=
      [.call (.revoke samplePeer.deviceId) .ok, .abandon (.forget samplePeer.deviceId) 20,
        .call (.forget samplePeer.deviceId) ⟨.fails .sync 69, .syncFails⟩]
    let t := Tracked.run sampleBlake3 ⟨createdStore, []⟩ steps
    (∃ r, replay sampleBlake3 t.store.file.bytes = .ok r ∧ r.decisions = t.store.decisions) ∧
      ∀ place ∈ t.acknowledged, t.Holds place := by
  refine clean_run_synced sampleBlake3 (fun _ => false) none createdStore rfl _
    ⟨fun _ _ => rfl, fun record hc _ => ⟨by decide +kernel, Or.inl ?_⟩, fun _ _ => by decide, trivial⟩
  have hrec := (commitChecks_ok_iff.mp hc).2.2.2.2.2.2
  rw [hrec]
  decide

/-- **A lost revocation.** A trust is abandoned when the whole of its record is in the file: nobody was
told that it succeeded, but the file replays to it. A revocation is committed behind it, and the next
commit fails. The rollback then cuts the acknowledged record off: in memory the peer is revoked, and
the file replays to no decision at all. -/
theorem abandoned_commit_loses_revocation :
    let d := samplePeer.deviceId
    let decided (t : Tracked) :=
      (replay sampleBlake3 t.store.file.bytes).map fun r => r.decisions[d]?
    let abandoned := Tracked.run sampleBlake3 ⟨createdStore, []⟩ [.abandon (.trust samplePeer) 78]
    let revoked := abandoned.step sampleBlake3 (.call (.revoke d) .ok)
    let failed := revoked.step sampleBlake3 (.call (.forget d) ⟨.fails .write 0, .done⟩)
    abandoned.store.state d = none ∧ decided abandoned = .ok (some (.trusted samplePeer)) ∧
      (∀ place ∈ revoked.acknowledged, revoked.Holds place) ∧
      failed.store.state d = some .revoked ∧ decided failed = .ok none ∧
      ∃ place ∈ failed.acknowledged, ¬ failed.Holds place := by
  decide +kernel

end Rift.Trust
