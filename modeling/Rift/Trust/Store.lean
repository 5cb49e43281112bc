import Rift.Lib.File
import Rift.Trust.Replay

/-! # The trust store

One store instance: the open journal file and what the process keeps in memory about it. `commit` is
the only way a decision changes. What the file system does is an argument: which step of opening
fails, and how the append of a record ends (`IoOutcome`). A commit whose future is dropped inside
`persist_record` is `commitAbandoned`.

The main results are `commitChecks_ok_iff`, `Call.run_eq_commit`, `commit_cases` and
`openExisting_cases`. -/

namespace Rift.Trust

open Rift.Lib Rift.Core Std

/-- The guarded state of a store. The generations fence pairing attempts and are not durable. -/
structure StoreInner where
  file : File
  decisions : Decisions
  fileLen : ℕ
  recordCount : ℕ
  generations : ExtTreeMap DeviceId ℕ
  poisoned : Bool
  deriving DecidableEq

/-- One current entry of the store. -/
inductive TrustEntry
  | trusted (peer : TrustedPeer)
  | revoked (deviceId : DeviceId)
  deriving DecidableEq

/-- The identity that is the key of an entry. -/
def TrustEntry.deviceId : TrustEntry → DeviceId
  | .trusted peer => peer.deviceId
  | .revoked deviceId => deviceId

/-- The local authorization state of an entry. -/
def TrustEntry.state : TrustEntry → TrustState
  | .trusted _ => .trusted
  | .revoked _ => .revoked

/-- A decision with its identity. -/
def trustEntry (d : DeviceId) : StoredDecision → TrustEntry
  | .trusted peer => .trusted peer
  | .revoked => .revoked d

namespace StoreInner

/-- One current decision for an identity. -/
def entry (inner : StoreInner) (d : DeviceId) : Option TrustEntry :=
  inner.decisions[d]?.map (trustEntry d)

/-- The local decision, or `none` when the identity is unknown. -/
def state (inner : StoreInner) (d : DeviceId) : Option TrustState :=
  (inner.entry d).map TrustEntry.state

/-- The generation that fences pairing attempts for a peer. -/
def currentGeneration (inner : StoreInner) (d : DeviceId) : ℕ := inner.generations[d]?.getD 0

/-- The generation a commit insists on has moved. -/
def isStale (inner : StoreInner) : Option (DeviceId × ℕ) → Bool
  | none => false
  | some (d, generation) => inner.currentGeneration d ≠ generation

end StoreInner

/-! ### What the file system may do -/

/-- The point of `persist_record` at which it fails. -/
inductive PersistFailure
  | write
  | flush
  | sync
  deriving DecidableEq

/-- The operation that failed, as the error names it. -/
def PersistFailure.operation : PersistFailure → String
  | .write => "append"
  | .flush => "flush"
  | .sync => "sync"

/-- How an append ends: it is done, or it fails after a number of bytes reached the file. -/
inductive PersistOutcome
  | done
  | fails (failure : PersistFailure) (written : ℕ)
  deriving DecidableEq

/-- How a rollback ends. -/
inductive RollbackOutcome
  | done
  | truncateFails
  | syncFails
  deriving DecidableEq

/-- What the file system does during one commit. -/
structure IoOutcome where
  persist : PersistOutcome
  rollback : RollbackOutcome
  deriving DecidableEq

/-- The file system of one commit that does what it is asked to. -/
def IoOutcome.ok : IoOutcome := ⟨.done, .done⟩

/-- Appends a record. -/
def persistRecord (file : File) (record : Bytes) : PersistOutcome →
    Except TrustStoreError Unit × File
  | .done => (.ok (), file.write record)
  | .fails failure written => (.error (.io failure.operation), file.write (record.take written))

/-- Takes the record back. -/
def rollbackRecord (file : File) (previousLen : ℕ) : RollbackOutcome →
    Except TrustStoreError Unit × File
  | .done => (.ok (), file.setLen previousLen)
  | .truncateFails => (.error (.io "truncate failed commit"), file)
  | .syncFails => (.error (.io "sync failed-commit rollback"), file.setLen previousLen)

/-! ### Commit -/

/-- The largest `u64`, at which a generation stays. -/
def u64Max : ℕ := 2 ^ 64 - 1

section Commit

variable (blake3 : Blake3)

/-- The checks of `commit` up to the append, and the record to append. -/
def commitChecks (inner : StoreInner) (mutation : TrustMutation)
    (expectedGeneration : Option (DeviceId × ℕ)) : Except TrustStoreError Bytes := do
  validateMutation mutation
  let payload := encodeMutation mutation
  if maxRecordLen < payload.length then
    throw (.recordTooLarge 0 payload.length maxRecordLen)
  let record ← encodeRecord blake3 payload
  if inner.poisoned then throw .storePoisoned
  if inner.isStale expectedGeneration then throw .staleTrustAttempt
  validateTransition inner.decisions mutation
  if maxRecords ≤ inner.recordCount then throw (.tooManyRecords maxRecords)
  let nextLen := inner.fileLen + record.length
  if maxStoreSize < nextLen then throw (.storeTooLarge nextLen maxStoreSize)
  return record

/-- A successful forget moves the generation of its identity. -/
def bumpGeneration (generations : ExtTreeMap DeviceId ℕ) : TrustMutation → ExtTreeMap DeviceId ℕ
  | .trust _ => generations
  | .revoke _ => generations
  | .forget d => generations.insert d (min (generations[d]?.getD 0 + 1) u64Max)

/-- What a commit makes visible once its record is durable. -/
def StoreInner.committed (inner : StoreInner) (mutation : TrustMutation) (file : File)
    (recordLen : ℕ) : StoreInner :=
  { file
    decisions := applyMutation inner.decisions mutation
    fileLen := inner.fileLen + recordLen
    recordCount := inner.recordCount + 1
    generations := bumpGeneration inner.generations mutation
    poisoned := inner.poisoned }

/-- Makes a mutation durable and visible, or neither. -/
def commit (inner : StoreInner) (mutation : TrustMutation)
    (expectedGeneration : Option (DeviceId × ℕ)) (io : IoOutcome) :
    Except TrustStoreError Unit × StoreInner :=
  match commitChecks blake3 inner mutation expectedGeneration with
  | .error e => (.error e, inner)
  | .ok record =>
    match persistRecord inner.file record io.persist with
    | (.error commit, file) =>
      match rollbackRecord file inner.fileLen io.rollback with
      | (.error rollback, file) =>
        (.error (.rollbackFailed commit rollback), { inner with file, poisoned := true })
      | (.ok (), file) => (.error commit, { inner with file, poisoned := true })
    | (.ok (), file) => (.ok (), inner.committed mutation file record.length)

/-- A commit whose future is dropped inside `persist_record`, after some bytes of the record reached
the file: nothing that follows the await runs. -/
def commitAbandoned (inner : StoreInner) (mutation : TrustMutation)
    (expectedGeneration : Option (DeviceId × ℕ)) (written : ℕ) : StoreInner :=
  match commitChecks blake3 inner mutation expectedGeneration with
  | .error _ => inner
  | .ok record => { inner with file := inner.file.write (record.take written) }

/-! ### The public mutations -/

def trust (inner : StoreInner) (peer : TrustedPeer) (io : IoOutcome) :
    Except TrustStoreError Unit × StoreInner :=
  match validatePeer peer with
  | .error e => (.error e, inner)
  | .ok () => commit blake3 inner (.trust peer) none io

/-- Trusts a peer unless the identity was revoked or forgotten since. -/
def trustIfGeneration (inner : StoreInner) (peer : TrustedPeer) (generation : ℕ) (io : IoOutcome) :
    Except TrustStoreError Unit × StoreInner :=
  match validatePeer peer with
  | .error e => (.error e, inner)
  | .ok () => commit blake3 inner (.trust peer) (some (peer.deviceId, generation)) io

def revoke (inner : StoreInner) (d : DeviceId) (io : IoOutcome) :
    Except TrustStoreError Unit × StoreInner :=
  commit blake3 inner (.revoke d) none io

def forget (inner : StoreInner) (d : DeviceId) (io : IoOutcome) :
    Except TrustStoreError Unit × StoreInner :=
  commit blake3 inner (.forget d) none io

/-- A call of one of the public mutations. -/
inductive Call
  | trust (peer : TrustedPeer)
  | trustIfGeneration (peer : TrustedPeer) (generation : ℕ)
  | revoke (deviceId : DeviceId)
  | forget (deviceId : DeviceId)
  deriving DecidableEq

namespace Call

/-- What a call returns and leaves. -/
def run (inner : StoreInner) (io : IoOutcome) : Call → Except TrustStoreError Unit × StoreInner
  | .trust peer => Trust.trust blake3 inner peer io
  | .trustIfGeneration peer generation => Trust.trustIfGeneration blake3 inner peer generation io
  | .revoke d => Trust.revoke blake3 inner d io
  | .forget d => Trust.forget blake3 inner d io

/-- The mutation a call commits. -/
def mutation : Call → TrustMutation
  | .trust peer => .trust peer
  | .trustIfGeneration peer _ => .trust peer
  | .revoke d => .revoke d
  | .forget d => .forget d

/-- The generation a call insists on. -/
def expectedGeneration : Call → Option (DeviceId × ℕ)
  | .trustIfGeneration peer generation => some (peer.deviceId, generation)
  | _ => none

end Call

end Commit

/-! ### Opening -/

/-- The file-system steps of opening a store, each of which may fail. -/
inductive OpenStep
  | create
  | writeHeader
  | flushHeader
  | syncHeader
  | openFile
  | inspect
  | read
  | truncate
  | syncRecovered
  | seek
  deriving DecidableEq

/-- The step that failed, as the error names it. -/
def OpenStep.operation : OpenStep → String
  | .create => "create"
  | .writeHeader => "write header"
  | .flushHeader => "flush header"
  | .syncHeader => "sync header"
  | .openFile => "open"
  | .inspect => "inspect"
  | .read => "read"
  | .truncate => "truncate incomplete tail"
  | .syncRecovered => "sync recovered journal"
  | .seek => "seek"

/-- One file-system step of opening, under a choice of the steps that fail. -/
def OpenStep.attempt (fails : OpenStep → Bool) (step : OpenStep) : Except TrustStoreError Unit :=
  if fails step then .error (.io step.operation) else .ok ()

/-- The store of a journal that was opened. -/
def fromParts (file : File) (decisions : Decisions) (fileLen recordCount : ℕ) : StoreInner :=
  { file, decisions, fileLen, recordCount, generations := ∅, poisoned := false }

section Open

variable (blake3 : Blake3) (fails : OpenStep → Bool)

/-- Cuts an interrupted append off the journal. -/
def truncateTail (validLen fileLen : ℕ) : Except TrustStoreError Unit :=
  if validLen = fileLen then .ok ()
  else do
    OpenStep.truncate.attempt fails
    OpenStep.syncRecovered.attempt fails

/-- Opens an existing journal. One process owns the file, so its length is the number of bytes that
are read from it. -/
def openExisting (bytes : Bytes) : Except TrustStoreError StoreInner := do
  OpenStep.openFile.attempt fails
  OpenStep.inspect.attempt fails
  if maxStoreSize < bytes.length then .error (.storeTooLarge bytes.length maxStoreSize) else
  OpenStep.read.attempt fails
  let replay ← replay blake3 bytes
  truncateTail fails replay.validLen bytes.length
  OpenStep.seek.attempt fails
  let file := { (File.mk bytes 0).setLen replay.validLen with pos := replay.validLen }
  return fromParts file replay.decisions replay.validLen replay.recordCount

/-- Creates or opens and fully validates a journal; `existing` is the file at the path, if any. -/
def openStore : Option Bytes → Except TrustStoreError StoreInner
  | none => do
    OpenStep.create.attempt fails
    OpenStep.writeHeader.attempt fails
    OpenStep.flushHeader.attempt fails
    OpenStep.syncHeader.attempt fails
    return fromParts ⟨header, headerLen⟩ ∅ headerLen 0
  | some bytes => openExisting blake3 fails bytes

end Open

/-! ### When a commit reaches the file -/

section Facts

variable {blake3 : Blake3}

theorem encodeRecord_encodeMutation {m : TrustMutation} (h : validateMutation m = .ok ()) :
    encodeRecord blake3 (encodeMutation m) = .ok (recordBytes blake3 (encodeMutation m)) := by
  have hl := length_encodeMutation_le h
  unfold maxRecordLen at hl
  unfold encodeRecord
  rw [if_neg (by omega)]

theorem commitChecks_of_valid (inner : StoreInner) {m : TrustMutation}
    (h : validateMutation m = .ok ()) (expected : Option (DeviceId × ℕ)) :
    commitChecks blake3 inner m expected =
      if inner.poisoned then .error .storePoisoned
      else if inner.isStale expected then .error .staleTrustAttempt
      else
        match validateTransition inner.decisions m with
        | .error e => .error e
        | .ok () =>
          if maxRecords ≤ inner.recordCount then .error (.tooManyRecords maxRecords)
          else if maxStoreSize < inner.fileLen + (recordBytes blake3 (encodeMutation m)).length then
            .error (.storeTooLarge (inner.fileLen + (recordBytes blake3 (encodeMutation m)).length)
              maxStoreSize)
          else .ok (recordBytes blake3 (encodeMutation m)) := by
  have hl := length_encodeMutation_le h
  unfold commitChecks
  rw [h]
  simp only [bind, Except.bind, pure, Except.pure, throw, throwThe, MonadExceptOf.throw,
    encodeRecord_encodeMutation h, if_neg (Nat.not_lt.mpr hl)]
  cases inner.poisoned
  · cases inner.isStale expected
    · cases validateTransition inner.decisions m with
      | error e => rfl
      | ok => simp only [Bool.false_eq_true, if_false]
    · rfl
  · rfl

theorem commitChecks_of_invalid (inner : StoreInner) {m : TrustMutation} {e : TrustStoreError}
    (h : validateMutation m = .error e) (expected : Option (DeviceId × ℕ)) :
    commitChecks blake3 inner m expected = .error e := by
  unfold commitChecks
  rw [h]
  rfl

/-- **When a mutation reaches the file**, and what is written. -/
theorem commitChecks_ok_iff {inner : StoreInner} {m : TrustMutation}
    {expected : Option (DeviceId × ℕ)} {record : Bytes} :
    commitChecks blake3 inner m expected = .ok record ↔
      validateMutation m = .ok () ∧ inner.poisoned = false ∧ inner.isStale expected = false ∧
        validateTransition inner.decisions m = .ok () ∧ inner.recordCount < maxRecords ∧
        inner.fileLen + record.length ≤ maxStoreSize ∧
        record = recordBytes blake3 (encodeMutation m) := by
  cases hv : validateMutation m with
  | error e => simp [commitChecks_of_invalid inner hv]
  | ok =>
    rw [commitChecks_of_valid inner hv]
    constructor
    · intro h
      by_cases hp : inner.poisoned
      · rw [if_pos hp] at h; cases h
      by_cases hg : inner.isStale expected
      · rw [if_neg hp, if_pos hg] at h; cases h
      rw [if_neg hp, if_neg hg] at h
      split at h
      · cases h
      · next ht =>
        split_ifs at h with hc hs
        cases h
        exact ⟨rfl, by simpa using hp, by simpa using hg, ht, by omega, by omega, rfl⟩
    · rintro ⟨-, hp, hg, ht, hc, hs, rfl⟩
      simp only [hp, hg, ht, if_neg (Nat.not_le.mpr hc), if_neg (Nat.not_lt.mpr hs)]
      rfl

theorem Call.run_eq_commit (inner : StoreInner) (io : IoOutcome) (c : Call) :
    c.run blake3 inner io = commit blake3 inner c.mutation c.expectedGeneration io := by
  cases c with
  | trust peer =>
    simp only [Call.run, Trust.trust, Call.mutation, Call.expectedGeneration]
    cases hv : validatePeer peer with
    | error e => simp [commit, commitChecks_of_invalid (m := .trust peer) inner hv]
    | ok => rfl
  | trustIfGeneration peer generation =>
    simp only [Call.run, Trust.trustIfGeneration, Call.mutation, Call.expectedGeneration]
    cases hv : validatePeer peer with
    | error e => simp [commit, commitChecks_of_invalid (m := .trust peer) inner hv]
    | ok => rfl
  | revoke d => rfl
  | forget d => rfl

theorem commit_of_error {inner : StoreInner} {m : TrustMutation}
    {expected : Option (DeviceId × ℕ)} {e : TrustStoreError}
    (h : commitChecks blake3 inner m expected = .error e) (io : IoOutcome) :
    commit blake3 inner m expected io = (.error e, inner) := by
  simp [commit, h]

theorem commit_of_done {inner : StoreInner} {m : TrustMutation}
    {expected : Option (DeviceId × ℕ)} {record : Bytes}
    (h : commitChecks blake3 inner m expected = .ok record) {io : IoOutcome}
    (hio : io.persist = .done) :
    commit blake3 inner m expected io =
      (.ok (), inner.committed m (inner.file.write record) record.length) := by
  simp [commit, h, hio, persistRecord]

theorem commit_of_fails {inner : StoreInner} {m : TrustMutation}
    {expected : Option (DeviceId × ℕ)} {record : Bytes}
    (h : commitChecks blake3 inner m expected = .ok record) {io : IoOutcome}
    {failure : PersistFailure} {written : ℕ} (hio : io.persist = .fails failure written) :
    ∃ e file, commit blake3 inner m expected io =
      (.error e, { inner with file, poisoned := true }) ∧
      (io.rollback ≠ .truncateFails →
        file = (inner.file.write (record.take written)).setLen inner.fileLen) := by
  rcases hr : io.rollback with _ | _ | _ <;>
    simp [commit, h, hio, persistRecord, rollbackRecord, hr]

variable (blake3) in
/-- **The three ways a commit ends.** -/
theorem commit_cases (inner : StoreInner) (m : TrustMutation) (expected : Option (DeviceId × ℕ))
    (io : IoOutcome) :
    (∃ e, commitChecks blake3 inner m expected = .error e ∧
      commit blake3 inner m expected io = (.error e, inner)) ∨
    (∃ record, commitChecks blake3 inner m expected = .ok record ∧ io.persist = .done ∧
      commit blake3 inner m expected io =
        (.ok (), inner.committed m (inner.file.write record) record.length)) ∨
    (∃ record written e file, commitChecks blake3 inner m expected = .ok record ∧
      io.persist ≠ .done ∧
      commit blake3 inner m expected io = (.error e, { inner with file, poisoned := true }) ∧
      (io.rollback ≠ .truncateFails →
        file = (inner.file.write (record.take written)).setLen inner.fileLen)) := by
  cases h : commitChecks blake3 inner m expected with
  | error e => exact Or.inl ⟨e, rfl, commit_of_error h io⟩
  | ok record =>
    cases hio : io.persist with
    | done => exact Or.inr (Or.inl ⟨record, rfl, rfl, commit_of_done h hio⟩)
    | fails failure written =>
      obtain ⟨e, file, he, hf⟩ := commit_of_fails h hio
      exact Or.inr (Or.inr ⟨record, written, e, file, rfl, by simp, he, hf⟩)

theorem OpenStep.attempt_cases (fails : OpenStep → Bool) (step : OpenStep) :
    step.attempt fails = .ok () ∨
      fails step = true ∧ step.attempt fails = .error (.io step.operation) := by
  unfold OpenStep.attempt
  split_ifs with h
  · exact Or.inr ⟨h, rfl⟩
  · exact Or.inl rfl

theorem truncateTail_cases (fails : OpenStep → Bool) (validLen fileLen : ℕ) :
    truncateTail fails validLen fileLen = .ok () ∨
      ∃ step, fails step = true ∧
        truncateTail fails validLen fileLen = .error (.io step.operation) := by
  unfold truncateTail
  split_ifs
  · exact Or.inl rfl
  · rcases OpenStep.truncate.attempt_cases fails with h | ⟨hf, h⟩
    · rw [h]
      exact (OpenStep.syncRecovered.attempt_cases fails).imp_right fun h' => ⟨_, h'⟩
    · rw [h]; exact Or.inr ⟨_, hf, rfl⟩

/-- The store that holds what was replayed from a file. -/
def reopened (b : Bytes) (r : ReplayResult) : StoreInner :=
  fromParts { (File.mk b 0).setLen r.validLen with pos := r.validLen }
    r.decisions r.validLen r.recordCount

variable (blake3) in
/-- **Opening an existing file** reports the step that failed, or that the file is too large, or what
replaying it reports; otherwise the store holds what was replayed. -/
theorem openExisting_cases (fails : OpenStep → Bool) (b : Bytes) :
    (∃ step, fails step = true ∧ openExisting blake3 fails b = .error (.io step.operation)) ∨
    (maxStoreSize < b.length ∧
      openExisting blake3 fails b = .error (.storeTooLarge b.length maxStoreSize)) ∨
    (b.length ≤ maxStoreSize ∧
      openExisting blake3 fails b = (replay blake3 b).map (reopened b)) := by
  unfold openExisting
  rcases OpenStep.openFile.attempt_cases fails with h | ⟨hf, h⟩
  swap
  · rw [h]; exact Or.inl ⟨_, hf, rfl⟩
  rcases OpenStep.inspect.attempt_cases fails with h₁ | ⟨hf, h₁⟩
  swap
  · rw [h, h₁]; exact Or.inl ⟨_, hf, rfl⟩
  rw [h, h₁]
  by_cases hlen : maxStoreSize < b.length
  · exact Or.inr (Or.inl ⟨hlen, if_pos hlen⟩)
  simp only [if_neg hlen]
  rcases OpenStep.read.attempt_cases fails with h₂ | ⟨hf, h₂⟩
  swap
  · rw [h₂]; exact Or.inl ⟨_, hf, rfl⟩
  rw [h₂]
  cases hr : replay blake3 b with
  | error e => exact Or.inr (Or.inr ⟨Nat.not_lt.mp hlen, rfl⟩)
  | ok r =>
    rcases truncateTail_cases fails r.validLen b.length with h₃ | ⟨step, hf, h₃⟩
    swap
    · simp only [bind, Except.bind, h₃]; exact Or.inl ⟨_, hf, rfl⟩
    rcases OpenStep.seek.attempt_cases fails with h₄ | ⟨hf, h₄⟩
    · simp only [bind, Except.bind, h₃, h₄]
      exact Or.inr (Or.inr ⟨Nat.not_lt.mp hlen, rfl⟩)
    · simp only [bind, Except.bind, h₃, h₄]; exact Or.inl ⟨_, hf, rfl⟩

theorem openStore_some_ok {fails : OpenStep → Bool} {b : Bytes} {s : StoreInner}
    (h : openStore blake3 fails (some b) = .ok s) :
    b.length ≤ maxStoreSize ∧ ∃ r, replay blake3 b = .ok r ∧ s = reopened b r := by
  change openExisting blake3 fails b = .ok s at h
  rcases openExisting_cases blake3 fails b with ⟨_, -, he⟩ | ⟨-, he⟩ | ⟨hlen, he⟩
  · rw [he] at h; cases h
  · rw [he] at h; cases h
  · cases hr : replay blake3 b with
    | error e => rw [he, hr] at h; cases h
    | ok r =>
      rw [he, hr] at h
      cases h
      exact ⟨hlen, r, rfl, rfl⟩

theorem openStore_of_replay {b : Bytes} {r : ReplayResult} (hlen : b.length ≤ maxStoreSize)
    (h : replay blake3 b = .ok r) :
    openStore blake3 (fun _ => false) (some b) = .ok (reopened b r) := by
  change openExisting blake3 _ b = _
  rcases openExisting_cases blake3 (fun _ => false) b with ⟨_, hf, -⟩ | ⟨hl, -⟩ | ⟨-, he⟩
  · cases hf
  · omega
  · rw [he, h]
    rfl

end Facts

/-! ### A store to compute with -/

def samplePeer : TrustedPeer := ⟨DeviceId.repeated 2, "pc", "linux"⟩

/-- The BLAKE3 of the three mutations of `samplePeer`, zeros elsewhere. -/
def sampleBlake3 (payload : Bytes) : FixedBytes checksumLen :=
  if payload = encodeMutation (.trust samplePeer) then
    ⟨[37, 94, 161, 197, 140, 189, 76, 222, 149, 106, 193, 209, 208, 170, 15, 63, 98, 13, 180, 229,
      124, 216, 100, 15, 244, 61, 149, 85, 30, 85, 20, 200], rfl⟩
  else if payload = encodeMutation (.revoke samplePeer.deviceId) then
    ⟨[195, 164, 182, 183, 97, 16, 74, 81, 11, 85, 175, 19, 95, 5, 247, 2, 9, 136, 58, 209, 28, 137,
      173, 54, 220, 48, 8, 147, 233, 252, 175, 172], rfl⟩
  else if payload = encodeMutation (.forget samplePeer.deviceId) then
    ⟨[144, 236, 138, 86, 178, 55, 2, 171, 199, 195, 41, 2, 225, 12, 111, 150, 35, 254, 251, 148,
      164, 225, 219, 79, 34, 68, 205, 139, 237, 30, 46, 219], rfl⟩
  else FixedBytes.replicate checksumLen 0

/-- A store that was just created. -/
def createdStore : StoreInner := fromParts ⟨header, headerLen⟩ ∅ headerLen 0

end Rift.Trust
