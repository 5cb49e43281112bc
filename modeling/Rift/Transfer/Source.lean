import Rift.Protocol.FileName
import Rift.Transfer.Payload

/-! # From a local source to the peer's staging file

Preparing a source reads it once for the offer; every attempt to send it reads it again. The source is
not frozen in between: whatever its reads return, what arrives is what the preparation has read.

The main results are `prepareSource_ok`, `prepareSource_calm` and `prepared_source_arrives`. -/

namespace Rift.Transfer

open Rift.Lib Rift.Core Rift.Protocol Std.Do

set_option mvcgen.warning false

/-! ### Preparing -/

/-- What a handle tells of its file. -/
structure Metadata where
  isFile : Bool
  len : ℕ
  deriving DecidableEq

/-- A file that can be asked for its metadata. -/
class AsyncStat (R : Type) where
  metadata : IoStep R Metadata

instance : AsyncStat ScriptedFile where
  metadata f :=
    match f.next 0 with
    | .stop error _ => (.error error, f.skip)
    | .move _ => (.ok ⟨true, f.content.length⟩, f.skip)

/-- Preparation failures. -/
inductive SourcePreparationError
  | invalidLimit
  | missingFileName
  | metadata (error : TransferMetadataError)
  | notRegular
  | tooLarge
  | io (error : TransferIoError)
  deriving DecidableEq

variable (blake3 : Hasher (FixedBytes 32))

/-- Prepares immutable offer metadata from an opened source. `fileName` is the last component of its
path, if there is one that is UTF-8. -/
def prepareSource {R : Type} [AsyncRead R] [AsyncSeek R] [AsyncStat R] (fileName : Option String)
    (maxFileBytes : ℕ) (source : R) : Except SourcePreparationError TransferMetadata × R :=
  if maxFileBytes = 0 ∨ maxTransferBytes < maxFileBytes then (.error .invalidLimit, source)
  else
    match fileName.map TransferFileName.new with
    | none => (.error .missingFileName, source)
    | some (.error e) => (.error (.metadata e), source)
    | some (.ok name) =>
      match (step localIo AsyncStat.metadata).run.run source with
      | (.error e, source) => (.error (.io e), source)
      | (.ok before, source) =>
        if before.isFile = false then (.error .notRegular, source)
        else if maxFileBytes < before.len then (.error .tooLarge, source)
        else
          match (hashSource blake3 before.len).run.run source with
          | (.error e, source) => (.error (.io e), source)
          | (.ok digest, source) =>
            match (step localIo AsyncStat.metadata).run.run source with
            | (.error e, source) => (.error (.io e), source)
            | (.ok after, source) =>
              if after.len ≠ before.len then (.error (.io .sourceChanged), source)
              else ((TransferMetadata.new name before.len digest).mapError .metadata, source)

/-! ### What a preparation has seen -/

section Reading

variable {R : Type} [AsyncRead R] [AsyncSeek R]

/-- From the beginning of the source its reads gave these bytes, and then it ended. -/
def ReadWhole (source : R) (file : Bytes) : Prop :=
  (∃ n, (AsyncSeek.seek .start source).1 = .ok n) ∧
    ∃ r, Delivers (AsyncSeek.seek .start source).2 file r ∧ (AsyncRead.read 1 r).1 = .ok []

theorem hashSource_ok {byteLen : ℕ} {r r' : R} {digest : FixedBytes 32}
    (h : (hashSource blake3 byteLen).run.run r = (.ok digest, r')) :
    ∃ file, ReadWhole r file ∧ file.length = byteLen ∧ blake3.hash file = digest := by
  have hs : ⦃fun s => ⌜s = r⌝⦄ hashSource blake3 byteLen ⦃post⟨fun d _ => ⌜∃ file, ReadWhole r file ∧
      file.length = byteLen ∧ blake3.hash file = d⌝, fun _ _ => ⌜True⌝⟩⦄ := by
    mvcgen [hashSource, requireSourceEof, require, step, hashPrefix_spec]
    case vc1 heq _ n _ hseek hasher r₁ hx bytes _ hr hnil =>
      subst heq hnil
      obtain ⟨file, hlen, hd, hf⟩ := hx
      refine ⟨file, ⟨⟨n, by rw [hseek]⟩, r₁, by rwa [hseek], congrArg Prod.fst hr⟩, hlen, ?_⟩
      exact (hf [] Hasher.fed_new).finalize.symm
  rcases cases_of_triple hs rfl with ⟨_, hok, hfile⟩ | ⟨_, herror, -⟩
  · rw [h] at hok
    cases hok
    exact hfile
  · rw [h] at herror
    cases herror

variable [AsyncStat R] {fileName : Option String} {maxFileBytes : ℕ} {source source' : R}
  {metadata : TransferMetadata}

/-- **A preparation that succeeds** was of a regular file within the limit, whose reads gave a file of
this length and digest from beginning to end. -/
theorem prepareSource_ok
    (h : prepareSource blake3 fileName maxFileBytes source = (.ok metadata, source')) :
    fileName = some metadata.fileName.value ∧ metadata.byteLen ≤ maxFileBytes ∧
      ∃ opened file, AsyncStat.metadata source = (.ok ⟨true, metadata.byteLen⟩, opened) ∧
        ReadWhole opened file ∧ file.length = metadata.byteLen ∧
        blake3.hash file = metadata.blake3 := by
  unfold prepareSource at h
  split_ifs at h
  · cases h
  rcases fileName with _ | text
  · cases h
  rcases hname : TransferFileName.new text with e | name <;> simp only [Option.map_some, hname] at h
  · cases h
  rcases hb : (step localIo AsyncStat.metadata).run.run source with ⟨e | ⟨isFile, len⟩, opened⟩ <;>
    simp only [hb] at h
  · cases h
  split_ifs at h with hfile hlimit
  · cases h
  · cases h
  rcases hd : (hashSource blake3 len).run.run opened with ⟨e | digest, hashed⟩ <;> simp only [hd] at h
  · cases h
  rcases ha : (step localIo AsyncStat.metadata).run.run hashed with ⟨e | after, closed⟩ <;>
    simp only [ha] at h
  · cases h
  split_ifs at h with hlen
  · cases h
  obtain ⟨file, hwhole, hlength, hhash⟩ := hashSource_ok blake3 hd
  obtain rfl : isFile = true := by simpa using hfile
  unfold TransferMetadata.new at h
  split_ifs at h <;> cases h
  exact ⟨congrArg some (new_eq_ok_iff.mp hname).symm, Nat.not_lt.mp hlimit, opened, file, step_ok hb,
    hwhole, hlength, hhash⟩

end Reading

theorem prepareSource_calm {f : ScriptedFile} (hcalm : f.Calm) (name : TransferFileName)
    {maxFileBytes : ℕ} (hpos : maxFileBytes ≠ 0) (hmax : maxFileBytes ≤ maxTransferBytes)
    (hlen : f.content.length ≤ maxFileBytes) :
    (prepareSource blake3 (some name.value) maxFileBytes f).1 =
      .ok ⟨name, f.content.length, blake3.hash f.content, hlen.trans hmax⟩ := by
  have hmetadata : ∀ {g : ScriptedFile}, g.Calm → (step localIo AsyncStat.metadata).run.run g =
      (.ok ⟨true, g.content.length⟩, g.skip) := by
    intro g hg
    obtain ⟨k, hk⟩ := hg.next 0
    simp [run_step, AsyncStat.metadata, hk, Except.mapError]
  have hskip : f.skip.Calm := hcalm.tail rfl
  rcases hd : (hashSource blake3 f.content.length).run.run f.skip with ⟨result, hashed⟩
  obtain ⟨_, rfl, rfl, hhashed, hcontent⟩ := run_of_done
    (hashSource_calm blake3 f.content (hlen.trans hmax)) ⟨hskip, rfl⟩ hd
  unfold prepareSource
  rw [if_neg (by simp [hpos, hmax])]
  simp only [Option.map_some, TransferFileName.new_value, hmetadata hcalm, hd, hmetadata hhashed,
    hcontent]
  simp [Nat.not_lt.mpr hlen, TransferMetadata.new, Nat.not_lt.mpr (hlen.trans hmax), Except.mapError]

/-! ### What arrives -/

/-- **A prepared source arrives as it was prepared.** A preparation reads a regular file from beginning
to end and offers what it has read, under the last component of its path. If no other file has this
length and digest, then whatever is done to the source afterwards, every attempt to send it that
succeeds, at whatever offset and in whatever pieces, has sent what the preparation has read behind the
offset; and every attempt to receive it that succeeds, from whatever peer, leaves exactly this file. -/
theorem prepared_source_arrives {R W T : Type} [AsyncRead R] [AsyncSeek R] [AsyncStat R] [Sink W]
    [AsyncRead T] (fileName : Option String) (maxFileBytes : ℕ) (source source' : R)
    (metadata : TransferMetadata)
    (hprepared : prepareSource blake3 fileName maxFileBytes source = (.ok metadata, source')) :
    fileName = some metadata.fileName.value ∧ metadata.byteLen ≤ maxFileBytes ∧
    ∃ opened file, AsyncStat.metadata source = (.ok ⟨true, file.length⟩, opened) ∧
      ReadWhole opened file ∧ file.length = metadata.byteLen ∧
      blake3.hash file = metadata.blake3 ∧
      ((∀ x : Bytes, x.length = metadata.byteLen → blake3.hash x = metadata.blake3 → x = file) →
      (∀ (sender sent : Ends R W) (offset : ℕ), Sink.ready sender.writer →
        (sendPayload blake3 metadata offset).run.run sender = (.ok (), sent) →
        Sink.taken sent.writer = Sink.taken sender.writer ++ file.drop offset) ∧
      (∀ (receiver received : Ends T ScriptedFile) (offset : ℕ),
        (receivePayload blake3 metadata offset).run.run receiver = (.ok (), received) →
        received.writer.content = file)) := by
  obtain ⟨hname, hlimit, opened, file, hopened, hwhole, hlen, hhash⟩ := prepareSource_ok blake3 hprepared
  refine ⟨hname, hlimit, opened, file, hlen ▸ hopened, hwhole, hlen, hhash,
    fun collisionFree => ⟨?_, ?_⟩⟩
  · intro sender sent offset hready hsend
    have hspec := sendPayload_spec blake3 metadata offset (P := fun _ : R => True)
      (fun _ _ _ => trivial) (fun _ _ => trivial) sender trivial hready
    rcases cases_of_triple hspec rfl with ⟨_, -, hle, p, x, hpass, hx, hsum, ht, -⟩ | ⟨_, herror, -⟩
    · rw [hsend] at ht
      obtain ⟨_, _, _, -, -, hp, -⟩ := hpass
      have hboth : p ++ x = file :=
        collisionFree _ (by rw [List.length_append]; omega) hsum
      rw [ht, ← hboth, ← hp, List.drop_left]
    · rw [hsend] at herror
      cases herror
  · intro receiver received offset hreceive
    rcases cases_of_triple (receivePayload_spec blake3 metadata offset receiver) rfl with
      ⟨_, -, hle, hstaged, x, r, hx, -, -, hcontent, hsum⟩ | ⟨_, herror, -⟩
    · rw [hreceive] at hcontent
      rw [show received.writer.content = _ from hcontent]
      exact collisionFree _ (by rw [List.length_append]; omega) hsum
    · rw [hreceive] at herror
      cases herror

/-- A file of one byte is prepared, and sent as it was read then. -/
theorem prepared_byte_sent :
    let source : ScriptedFile := .ofContent [7] []
    let sender : Ends ScriptedFile ScriptedFile := ⟨source, .ofContent [] [], .new 0 0⟩
    (prepareSource firstByte (some "a") 1 source).1 = .ok oneByte ∧ ∃ opened file,
      ReadWhole (R := ScriptedFile) opened file ∧ file.length = 1 ∧
        ((sendPayload firstByte oneByte 0).run.run sender).2.writer.content = file := by
  intro source sender
  have hcalm (content : Bytes) : (ScriptedFile.ofContent content []).Calm :=
    fun _ hs => absurd hs List.not_mem_nil
  have hprepared : (prepareSource firstByte (some "a") 1 source).1 = .ok oneByte :=
    prepareSource_calm firstByte (hcalm [7]) oneByte.fileName (by decide) (by decide) (le_refl 1)
  obtain ⟨_, hsent, -⟩ := run_of_done
    (sendPayload_calm firstByte oneByte 0 (rfl : ([7] : Bytes).length = 1) rfl (Nat.zero_le _))
    (s := sender) ⟨hcalm _, rfl, hcalm _, rfl⟩ rfl
  obtain ⟨-, -, opened, file, -, hwhole, hlen, hhash, harrives⟩ :=
    prepared_source_arrives (W := ScriptedFile) (T := ScriptedFile) firstByte (some "a") 1 source _
      oneByte (Prod.ext hprepared rfl)
  obtain ⟨hsend, -⟩ := harrives fun x hx hxh => firstByte_inj hx hlen (hxh.trans hhash.symm)
  exact ⟨hprepared, opened, file, hwhole, hlen, hsend sender _ 0 rfl (Prod.ext hsent rfl)⟩

end Rift.Transfer
