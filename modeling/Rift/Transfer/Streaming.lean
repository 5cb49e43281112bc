import Rift.Lib.AsyncIo
import Rift.Lib.History
import Rift.Protocol.Transfer

/-! # Sending and receiving a payload

The two workers of a transfer. The sender hashes the whole source before it writes anything and hashes
it again while it writes the suffix; the receiver rehashes what it has staged, appends exactly the
missing suffix and verifies the whole. Sources, streams and staging files are arbitrary; BLAKE3 is a
parameter. -/

namespace Rift.Transfer

open Rift.Lib Rift.Core Rift.Protocol Std.Do

set_option mvcgen.warning false

/-! ### Failures -/

/-- Stable outcomes of the workers. -/
inductive TransferIoError
  | cancelled
  | idleTimeout
  | invalidIdleTimeout
  | invalidRange
  | sourceChanged
  | shortPayload
  | extraPayload
  | integrity
  | invalidPartial
  | localIo (kind : ErrorKind)
  | streamIo (kind : ErrorKind)
  deriving DecidableEq

/-- What a step on a local file fails with. -/
def localIo : StepError → TransferIoError
  | .cancelled => .cancelled
  | .idleTimeout => .idleTimeout
  | .failed kind => .localIo kind

/-- What a step on the stream fails with. -/
def streamIo : StepError → TransferIoError
  | .cancelled => .cancelled
  | .idleTimeout => .idleTimeout
  | .failed kind => .streamIo kind

/-- The fixed buffer of hashing and of the payload loops. -/
def streamBufferSize : ℕ := 64 * 1024

/-- A worker: a program on a state that can fail and keeps what it did before it failed. -/
abbrev Work (σ : Type) := ExceptT TransferIoError (StateM σ)

/-- One step under the control of the attempt. -/
def step {σ α : Type} (fail : StepError → TransferIoError) (operation : IoStep σ α) :
    Work σ α := do
  match operation (← get) with
  | (.ok a, s) =>
    set s
    return a
  | (.error e, s) =>
    set s
    throw (fail e)

/-- Fails with `error` unless the condition holds. -/
def require {σ : Type} (condition : Prop) [Decidable condition] (error : TransferIoError) :
    Work σ Unit := do
  unless condition do throw error

/-! ### Progress -/

/-- What was last reported, how much has to be new, and all reports so far. -/
structure Progress where
  last : ℕ
  step : ℕ
  reported : List ℕ
  deriving DecidableEq

/-- Nothing has been reported yet. -/
def Progress.new (total offset : ℕ) : Progress where
  last := offset
  step := max (1024 * 1024) ((total + 99) / 100)
  reported := []

/-- Reports a total that is a step beyond the last. -/
def Progress.observe (progress : Progress) (total : ℕ) : Progress :=
  if progress.step ≤ total - progress.last then
    { progress with last := total, reported := progress.reported ++ [total] }
  else progress

/-- The two ends of a worker, and its progress. -/
structure Ends (R W : Type) where
  reader : R
  writer : W
  progress : Progress

section Ends

variable {R W α : Type}

/-- Work at the reading end only. -/
def atReader (work : Work R α) : Work (Ends R W) α := do
  match work.run.run (← get).reader with
  | (.ok a, reader) =>
    modify fun ends => { ends with reader }
    return a
  | (.error e, reader) =>
    modify fun ends => { ends with reader }
    throw e

/-- Work at the writing end only. -/
def atWriter (work : Work W α) : Work (Ends R W) α := do
  match work.run.run (← get).writer with
  | (.ok a, writer) =>
    modify fun ends => { ends with writer }
    return a
  | (.error e, writer) =>
    modify fun ends => { ends with writer }
    throw e

/-- The reporter sees a total. -/
def observe (total : ℕ) : Work (Ends R W) Unit :=
  modify fun ends => { ends with progress := ends.progress.observe total }

end Ends

variable (blake3 : Hasher (FixedBytes 32))

/-! ### Hashing -/

section Reading

variable {R : Type} [AsyncRead R]

/-- Hashes exactly `remaining` bytes. -/
def hashPrefix (remaining : ℕ) (hasher : blake3.State) : Work R blake3.State := do
  if _h : remaining = 0 then return hasher
  else
    let bytes ← step localIo (AsyncRead.read (min remaining streamBufferSize))
    if _hb : bytes = [] then throw .sourceChanged
    else hashPrefix (remaining - bytes.length) (blake3.update hasher bytes)
termination_by remaining
decreasing_by
  have := List.length_pos_of_ne_nil _hb
  omega

/-- The source has no more bytes than promised. -/
def requireSourceEof : Work R Unit := do
  let extra ← step localIo (AsyncRead.read 1)
  require (extra = []) .sourceChanged

/-- Hashes an exactly sized source from the beginning. -/
def hashSource [AsyncSeek R] (byteLen : ℕ) : Work R (FixedBytes 32) := do
  require (byteLen ≤ maxTransferBytes) .invalidRange
  let _ ← step localIo (AsyncSeek.seek .start)
  let hasher ← hashPrefix blake3 byteLen blake3.new
  requireSourceEof
  return blake3.finalize hasher

end Reading

/-! ### Copying the suffix -/

/-- What the steps of a payload loop fail with: reading, writing, and an early end. -/
structure Failures where
  read : StepError → TransferIoError
  write : StepError → TransferIoError
  short : TransferIoError

/-- How copying to a peer fails. -/
def sendFailures : Failures := ⟨localIo, streamIo, .sourceChanged⟩

/-- How copying from a peer fails. -/
def receiveFailures : Failures := ⟨streamIo, localIo, .shortPayload⟩

section Copying

variable {R W : Type} [AsyncRead R] [AsyncWrite W] (failures : Failures)

/-- Writes the bytes that were read, in as many steps as the writer takes. -/
def writeAll (bytes : Bytes) (total : ℕ) : Work (Ends R W) Unit := do
  if _h : bytes = [] then return ()
  else
    let count ← atWriter (step failures.write (AsyncWrite.write bytes))
    if _hc : count = 0 then throw (failures.write (.failed .writeZero))
    else
      observe (total + count)
      writeAll (bytes.drop count) (total + count)
termination_by bytes.length
decreasing_by
  have := List.length_pos_of_ne_nil _h
  rw [List.length_drop]
  omega

/-- Copies what is missing of `byteLen` bytes and hashes it. When a piece is written, the total has
grown by its length. -/
def copySuffix (byteLen total : ℕ) (hasher : blake3.State) : Work (Ends R W) blake3.State := do
  if _h : total < byteLen then
    let bytes ← atReader (step failures.read (AsyncRead.read (min (byteLen - total) streamBufferSize)))
    if _hb : bytes = [] then throw failures.short
    else
      writeAll failures bytes total
      copySuffix byteLen (total + bytes.length) (blake3.update hasher bytes)
  else return hasher
termination_by byteLen - total
decreasing_by
  have := List.length_pos_of_ne_nil _hb
  omega

end Copying

/-! ### The workers -/

variable (metadata : TransferMetadata) (offset : ℕ)

/-- Revalidates the source, then sends only the accepted suffix. -/
def sendPayload {R W : Type} [AsyncRead R] [AsyncSeek R] [AsyncWrite W] : Work (Ends R W) Unit := do
  require (offset ≤ metadata.byteLen) .invalidRange
  let digest ← atReader (hashSource blake3 metadata.byteLen)
  require (digest = metadata.blake3) .sourceChanged
  let _ ← atReader (step localIo (AsyncSeek.seek .start))
  let hasher ← atReader (hashPrefix blake3 offset blake3.new)
  modify fun ends => { ends with progress := .new metadata.byteLen offset }
  let hasher ← copySuffix blake3 sendFailures metadata.byteLen offset hasher
  atReader requireSourceEof
  require (blake3.finalize hasher = metadata.blake3) .sourceChanged

/-- What a staged prefix that cannot be hashed is reported as. -/
def stagingFailure (error : TransferIoError) : TransferIoError :=
  if error = .sourceChanged then .invalidPartial else error

/-- Appends one exact suffix to an exclusively owned accepted staging file. -/
def receivePayload {R S : Type} [AsyncRead R] [AsyncRead S] [AsyncWrite S] [AsyncSeek S] :
    Work (Ends R S) Unit := do
  require (offset ≤ metadata.byteLen) .invalidRange
  let actual ← atWriter (step localIo (AsyncSeek.seek .ending))
  require (actual = offset) .invalidPartial
  let _ ← atWriter (step localIo (AsyncSeek.seek .start))
  let hasher ← atWriter ((hashPrefix blake3 offset blake3.new).adapt stagingFailure)
  modify fun ends => { ends with progress := .new metadata.byteLen offset }
  let hasher ← copySuffix blake3 receiveFailures metadata.byteLen offset hasher
  let extra ← atReader (step streamIo (AsyncRead.read 1))
  require (extra = []) .extraPayload
  require (blake3.finalize hasher = metadata.blake3) .integrity
  atWriter (step localIo AsyncWrite.flush)

/-! ### What the loops do -/

section Steps

variable {σ α : Type} {fail : StepError → TransferIoError} {operation : IoStep σ α} {s s' : σ}

theorem run_step : (step fail operation).run.run s =
    ((operation s).1.mapError fail, (operation s).2) := by
  have h : ∀ x : Except StepError α × σ,
      (ExceptT.run (match x with
        | (.ok a, s) => do set s; return a
        | (.error e, s) => do set s; throw (fail e) : Work σ α)).run s =
      (x.1.mapError fail, x.2) := by
    rintro ⟨e | a, s'⟩ <;> rfl
  exact h (operation s)

theorem step_state {r : Except TransferIoError α}
    (h : (step fail operation).run.run s = (r, s')) : (operation s).2 = s' := by
  rw [run_step] at h
  exact congrArg Prod.snd h

theorem step_ok {a : α} (h : (step fail operation).run.run s = (.ok a, s')) :
    operation s = (.ok a, s') := by
  rw [run_step] at h
  rcases ho : operation s with ⟨e | a, s''⟩
  · rw [ho] at h
    cases h
  · rw [ho] at h
    cases h
    rfl

theorem step_error {e : TransferIoError} (h : (step fail operation).run.run s = (.error e, s')) :
    ∃ e', operation s = (.error e', s') := by
  rw [run_step] at h
  rcases ho : operation s with ⟨e | a, s''⟩
  · rw [ho] at h
    cases h
    exact ⟨e, rfl⟩
  · rw [ho] at h
    cases h

end Steps

section Specs

variable {R W : Type} {failures : Failures}

theorem writeAll_spec [Sink W] (bytes : Bytes) : ∀ (total : ℕ) (e₀ : Ends R W), Sink.ready e₀.writer →
    ⦃fun e => ⌜e = e₀⌝⦄ writeAll failures bytes total
    ⦃post⟨fun _ e => ⌜e.reader = e₀.reader ∧ Sink.ready e.writer ∧
        Sink.taken e.writer = Sink.taken e₀.writer ++ bytes⌝,
      fun _ e => ⌜∃ y, y <+: bytes ∧ Sink.taken e.writer = Sink.taken e₀.writer ++ y⌝⟩⦄ := by
  induction hn : bytes.length using Nat.strongRecOn generalizing bytes with
  | ind n ih =>
    subst hn
    have ih' := fun (x : Bytes) (hx : x.length < bytes.length) => ih _ hx x rfl
    intro total e₀ hready
    unfold writeAll
    mvcgen [atWriter, observe, ih']
    case vc1 hz e heq =>
      subst heq hz
      exact ⟨rfl, hready, (List.append_nil _).symm⟩
    case vc2 hz e heq count w' hr _ hc =>
      subst heq
      obtain ⟨-, -, ht⟩ := Sink.of_ok hready (step_ok hr)
      exact ⟨bytes.take count, List.take_prefix _ _, ht⟩
    case vc3 hz e heq count w' hr _ hc _ =>
      have := List.length_pos_of_ne_nil hz
      rw [List.length_drop]
      omega
    case vc4 hz e heq count w' hr _ hc _ =>
      subst heq
      exact (Sink.of_ok hready (step_ok hr)).1
    case vc5 hz e heq count w' hr _ hc _ _ e' =>
      subst heq
      intro hreader hready' htaken
      obtain ⟨-, -, ht⟩ := Sink.of_ok hready (step_ok hr)
      refine ⟨hreader, hready', htaken.trans ?_⟩
      change Sink.taken w' ++ _ = _
      rw [ht, List.append_assoc, List.take_append_drop]
    case vc6 hz e heq count w' hr _ hc _ _ e' =>
      subst heq
      rintro ⟨y, hy, htaken⟩
      obtain ⟨-, -, ht⟩ := Sink.of_ok hready (step_ok hr)
      refine ⟨bytes.take count ++ y, ?_, htaken.trans ?_⟩
      · obtain ⟨z, hz⟩ := hy
        exact ⟨z, by rw [List.append_assoc, hz, List.take_append_drop]⟩
      · change Sink.taken w' ++ _ = _
        rw [ht, List.append_assoc]
    case vc7 hz e heq err w' hr _ =>
      subst heq
      obtain ⟨err', hw⟩ := step_error hr
      exact Sink.of_error hready hw

variable [AsyncRead R]

theorem hashPrefix_spec (remaining : ℕ) : ∀ (hasher : blake3.State) (r₀ : R),
    ⦃fun r => ⌜r = r₀⌝⦄ hashPrefix blake3 remaining hasher
    ⦃post⟨fun hasher' r => ⌜∃ x, x.length = remaining ∧ Delivers r₀ x r ∧
        ∀ b, blake3.Fed hasher b → blake3.Fed hasher' (b ++ x)⌝,
      fun _ r => ⌜Reads r₀ r⌝⟩⦄ := by
  induction remaining using Nat.strongRecOn with
  | ind remaining ih =>
    intro hasher r₀
    unfold hashPrefix
    mvcgen [step, ih]
    case vc1 hz r heq =>
      subst heq
      exact ⟨[], hz.symm, .refl _, fun b hb => by simpa using hb⟩
    case vc2 _ r heq bytes r' hr _ =>
      subst heq
      have := Reads.once (min remaining streamBufferSize) r
      rwa [hr] at this
    case vc3 hz r heq bytes r' hr hb =>
      have := List.length_pos_of_ne_nil hb
      omega
    case vc4 hz r heq bytes r' hr hb hasher' r'' =>
      subst heq
      rintro ⟨x, hx, hd, hf⟩
      have hle := AsyncRead.length_read_le (n := min remaining streamBufferSize) (s := r)
        (congrArg Prod.fst hr)
      refine ⟨bytes ++ x, by rw [List.length_append]; omega, .read (congrArg Prod.fst hr) ?_, ?_⟩
      · rwa [hr]
      · intro b hfed
        rw [← List.append_assoc]
        exact hf _ (hfed.update bytes)
    case vc5 _ r heq bytes r' hr _ _ r'' =>
      subst heq
      intro hreads
      have := Reads.once (min remaining streamBufferSize) r
      rw [hr] at this
      exact this.trans hreads
    case vc6 _ r heq _ r' hr =>
      subst heq
      have := Reads.once (min remaining streamBufferSize) r
      rwa [hr] at this

theorem hashPrefix_ok {remaining : ℕ} {hasher hasher' : blake3.State} {r r' : R}
    (h : (hashPrefix blake3 remaining hasher).run.run r = (.ok hasher', r')) :
    ∃ x, x.length = remaining ∧ Delivers r x r' ∧
      ∀ b, blake3.Fed hasher b → blake3.Fed hasher' (b ++ x) := by
  rcases cases_of_triple (hashPrefix_spec blake3 remaining hasher r) rfl with
    ⟨v, hv, hx⟩ | ⟨e, he, -⟩
  · rw [h] at hv hx
    cases hv
    exact hx
  · rw [h] at he
    cases he

theorem hashPrefix_error {remaining : ℕ} {hasher : blake3.State} {e : TransferIoError} {r r' : R}
    (h : (hashPrefix blake3 remaining hasher).run.run r = (.error e, r')) : Reads r r' := by
  rcases cases_of_triple (hashPrefix_spec blake3 remaining hasher r) rfl with
    ⟨v, hv, -⟩ | ⟨e, he, hx⟩
  · rw [h] at hv
    cases hv
  · rwa [h] at hx

/-- Copying the suffix feeds the hasher and the writer the same bytes, as the reader delivers them; if
it fails, the writer has taken a beginning of what was delivered. -/
theorem copySuffix_spec [Sink W] (byteLen total : ℕ) :
    ∀ (hasher : blake3.State) (e₀ : Ends R W), Sink.ready e₀.writer →
    ⦃fun e => ⌜e = e₀⌝⦄ copySuffix blake3 failures byteLen total hasher
    ⦃post⟨fun hasher' e => ⌜∃ x, x.length = byteLen - total ∧ Delivers e₀.reader x e.reader ∧
        Sink.ready e.writer ∧ Sink.taken e.writer = Sink.taken e₀.writer ++ x ∧
        ∀ b, blake3.Fed hasher b → blake3.Fed hasher' (b ++ x)⌝,
      fun _ e => ⌜∃ x y r, x.length ≤ byteLen - total ∧ Delivers e₀.reader x r ∧ y <+: x ∧
        Sink.taken e.writer = Sink.taken e₀.writer ++ y⌝⟩⦄ := by
  induction hn : byteLen - total using Nat.strongRecOn generalizing total with
  | ind n ih =>
    subst hn
    have ih' := fun (t : ℕ) (ht : byteLen - t < byteLen - total) => ih _ ht t rfl
    intro hasher e₀ hready
    unfold copySuffix
    mvcgen [atReader, writeAll_spec, ih']
    case vc1 hlt e heq bytes r' hr _ hb =>
      subst heq
      exact ⟨[], [], e.reader, by simp, .refl _, List.prefix_refl _, (List.append_nil _).symm⟩
    case vc2 hlt e heq bytes r' hr _ hb =>
      subst heq
      exact hready
    case vc3 hlt e heq bytes r' hr _ hb _ e' hw hasher' e'' =>
      subst heq
      have hreader : e'.reader = r' := hw.1
      have htaken : Sink.taken e'.writer = Sink.taken e.writer ++ bytes := hw.2.2
      rintro ⟨x, hx, hd, hready', ht, hf⟩
      have hread := congrArg Prod.fst (step_ok hr)
      have hle := AsyncRead.length_read_le hread
      refine ⟨bytes ++ x, by rw [List.length_append]; omega, .read hread ?_, hready', ?_, ?_⟩
      · rw [step_ok hr, ← hreader]
        exact hd
      · rw [ht, htaken, List.append_assoc]
      · intro b hfed
        rw [← List.append_assoc]
        exact hf _ (hfed.update bytes)
    case vc4 hlt e heq bytes r' hr _ hb _ e' hw _ e'' =>
      subst heq
      have hreader : e'.reader = r' := hw.1
      have htaken : Sink.taken e'.writer = Sink.taken e.writer ++ bytes := hw.2.2
      rintro ⟨x, y, r, hx, hd, hy, ht⟩
      have hread := congrArg Prod.fst (step_ok hr)
      have hle := AsyncRead.length_read_le hread
      refine ⟨bytes ++ x, bytes ++ y, r, by rw [List.length_append]; omega, .read hread ?_, ?_, ?_⟩
      · rw [step_ok hr, ← hreader]
        exact hd
      · exact (List.prefix_append_right_inj bytes).mpr hy
      · rw [ht, htaken, List.append_assoc]
    case vc5 hlt e heq bytes r' hr _ hb _ =>
      intro _ _ _ _
      have := List.length_pos_of_ne_nil hb
      omega
    case vc6 => exact fun _ _ hready' _ => hready'
    case vc7 hlt e heq bytes r' hr _ hb _ e' =>
      subst heq
      rintro ⟨y, hy, ht⟩
      have hread := congrArg Prod.fst (step_ok hr)
      have hle := AsyncRead.length_read_le hread
      refine ⟨bytes ++ [], y, r', by rw [List.append_nil]; omega, .read hread ?_, ?_, ht⟩
      · rw [step_ok hr]
        exact .refl _
      · rwa [List.append_nil]
    case vc8 hlt e heq _ r' hr _ =>
      subst heq
      exact ⟨[], [], e.reader, by simp, .refl _, List.prefix_refl _, (List.append_nil _).symm⟩
    case vc9 hge e heq =>
      subst heq
      refine ⟨[], by simp; omega, .refl _, hready, (List.append_nil _).symm, fun b hb => ?_⟩
      rwa [List.append_nil]

end Specs

/-! ### Undisturbed loops -/

section Calm

variable {R : Type} {failures : Failures}

theorem streamBufferSize_pos : 0 < streamBufferSize := by decide

theorem hashPrefix_calm (remaining : ℕ) : ∀ hasher : blake3.State,
    ⦃fun f : ScriptedFile => ⌜f.Calm ∧ remaining ≤ f.rest.length⌝⦄ hashPrefix blake3 remaining hasher
    ⦃post⟨fun _ f => ⌜f.Calm⌝, fun _ _ => ⌜False⌝⟩⦄ := by
  induction remaining using Nat.strongRecOn with
  | ind remaining ih =>
    intro hasher
    unfold hashPrefix
    have hbuffer := streamBufferSize_pos
    mvcgen [step, ih]
    case vc1 h => exact h.1
    case vc2 hz f h bytes f' hr hb =>
      have hne : f.rest ≠ [] := List.ne_nil_of_length_pos (by omega)
      exact (h.1.of_read (by omega) hr).2.2 hne hb
    case vc3 hz f h bytes f' hr hb =>
      have := List.length_pos_of_ne_nil hb
      omega
    case vc4 hz f h bytes f' hr hb =>
      obtain ⟨hcalm, hlen, -⟩ := h.1.of_read (by omega) hr
      exact ⟨hcalm, by omega⟩
    case vc5 hz f h _ f' hr => exact h.1.read_ne_error (by omega) hr

theorem writeAll_calm (bytes : Bytes) : ∀ (total : ℕ) (r₀ : R),
    ⦃fun e : Ends R ScriptedFile => ⌜e.reader = r₀ ∧ e.writer.Calm⌝⦄ writeAll failures bytes total
    ⦃post⟨fun _ e => ⌜e.reader = r₀ ∧ e.writer.Calm⌝, fun _ _ => ⌜False⌝⟩⦄ := by
  induction hn : bytes.length using Nat.strongRecOn generalizing bytes with
  | ind n ih =>
    subst hn
    have ih' := fun (x : Bytes) (hx : x.length < bytes.length) => ih _ hx x rfl
    intro total r₀
    unfold writeAll
    mvcgen [atWriter, observe, ih']
    case vc2 hb e h count w' hw _ hc => exact (h.2.of_write hb (step_ok hw)).2 hc
    case vc3 hb e h count w' hw _ hc _ =>
      have := List.length_pos_of_ne_nil hb
      rw [List.length_drop]
      omega
    case vc4 hb e h count w' hw _ hc _ => exact ⟨h.1, (h.2.of_write hb (step_ok hw)).1⟩
    case vc5 hb e h _ w' hw _ =>
      obtain ⟨e', hw'⟩ := step_error hw
      exact h.2.write_ne_error hb hw'

theorem copySuffix_calm (byteLen total : ℕ) : ∀ hasher : blake3.State,
    ⦃fun e : Ends ScriptedFile ScriptedFile =>
      ⌜e.reader.Calm ∧ e.writer.Calm ∧ byteLen - total ≤ e.reader.rest.length⌝⦄
    copySuffix blake3 failures byteLen total hasher
    ⦃post⟨fun _ e => ⌜e.reader.Calm ∧ e.writer.Calm⌝, fun _ _ => ⌜False⌝⟩⦄ := by
  induction hn : byteLen - total using Nat.strongRecOn generalizing total with
  | ind n ih =>
    subst hn
    have ih' := fun (t : ℕ) (ht : byteLen - t < byteLen - total) => ih _ ht t rfl
    intro hasher
    unfold copySuffix
    have hbuffer := streamBufferSize_pos
    mvcgen [atReader, writeAll_calm, ih']
    case vc1 hlt e h bytes r' hr _ hb =>
      have hne : e.reader.rest ≠ [] := List.ne_nil_of_length_pos (by omega)
      exact (h.1.of_read (by omega) (step_ok hr)).2.2 hne hb
    case vc2 hlt e h bytes r' hr _ hb => exact ⟨trivial, h.2.1⟩
    case vc3 hlt e h bytes r' hr _ hb _ e' hw =>
      obtain ⟨hcalm, hlen, -⟩ := h.1.of_read (by omega) (step_ok hr)
      have hreader : e'.reader = r' := hw.1
      rw [hreader]
      exact ⟨hcalm, hw.2, by omega⟩
    case vc4 hlt e h bytes r' hr _ hb _ =>
      intro _ _ _
      have := List.length_pos_of_ne_nil hb
      omega
    case vc5 hlt e h _ r' hr _ =>
      obtain ⟨e', hr'⟩ := step_error hr
      exact h.1.read_ne_error (by omega) hr'
    case vc6 h => exact ⟨h.1, h.2.1⟩

theorem hashPrefix_done (remaining : ℕ) (hasher : blake3.State) (f₀ : ScriptedFile) :
    ⦃fun f => ⌜f = f₀ ∧ f.Calm ∧ remaining ≤ f.rest.length⌝⦄ hashPrefix blake3 remaining hasher
    ⦃post⟨fun hasher' f => ⌜f.Calm ∧ f.content = f₀.content ∧ f.pos = f₀.pos + remaining ∧
        ∀ b, blake3.Fed hasher b → blake3.Fed hasher' (b ++ f₀.rest.take remaining)⌝,
      fun _ _ => ⌜False⌝⟩⦄ := by
  refine triple_of_cases fun f hpre => ?_
  obtain ⟨rfl, hcalm, hlen⟩ := hpre
  rcases cases_of_triple (hashPrefix_calm blake3 remaining hasher) ⟨hcalm, hlen⟩ with
    ⟨hasher', hok, hcalm'⟩ | ⟨_, _, hfalse⟩
  · obtain ⟨x, hx, hd, hf⟩ := hashPrefix_ok blake3 (Prod.ext hok rfl)
    have ha : f.rest = x ++ _ := Tape.ahead_delivers hd
    have htake : f.rest.take remaining = x := by rw [ha, ← hx, List.take_left]
    refine Or.inl ⟨hasher', hok, hcalm', ScriptedFile.content_reads hd.reads, ?_, ?_⟩
    · rw [ScriptedFile.pos_delivers hd, hx]
    · rwa [htake]
  · exact hfalse.elim

theorem copySuffix_done (byteLen total : ℕ) (hasher : blake3.State)
    (e₀ : Ends ScriptedFile ScriptedFile) (hready : Sink.ready e₀.writer) :
    ⦃fun e => ⌜e = e₀ ∧ e.reader.Calm ∧ e.writer.Calm ∧ byteLen - total ≤ e.reader.rest.length⌝⦄
    copySuffix blake3 failures byteLen total hasher
    ⦃post⟨fun hasher' e => ⌜e.reader.Calm ∧ e.writer.Calm ∧
        e₀.reader.rest = e₀.reader.rest.take (byteLen - total) ++ e.reader.rest ∧
        ∀ b, blake3.Fed hasher b →
          blake3.Fed hasher' (b ++ e₀.reader.rest.take (byteLen - total))⌝,
      fun _ _ => ⌜False⌝⟩⦄ := by
  refine triple_of_cases fun e hpre => ?_
  obtain ⟨rfl, hreader, hwriter, hlen⟩ := hpre
  rcases cases_of_triple (copySuffix_calm blake3 byteLen total hasher) ⟨hreader, hwriter, hlen⟩ with
    ⟨hasher', hok, hreader', hwriter'⟩ | ⟨_, _, hfalse⟩
  · rcases cases_of_triple (copySuffix_spec blake3 byteLen total hasher e hready) rfl with
      ⟨hasher'', hok', x, hx, hd, -, -, hf⟩ | ⟨_, herr, -⟩
    · obtain rfl : hasher' = hasher'' := by
        rw [hok] at hok'
        exact Except.ok.inj hok'
      have ha : e.reader.rest = x ++ _ := Tape.ahead_delivers hd
      have htake : e.reader.rest.take (byteLen - total) = x := by rw [ha, ← hx, List.take_left]
      rw [htake]
      exact Or.inl ⟨hasher', hok, hreader', hwriter', ha, hf⟩
    · rw [hok] at herr
      cases herr
  · exact hfalse.elim

end Calm

end Rift.Transfer
