import Rift.Transfer.Payload

/-! # Resuming a transfer

A file is sent over any number of attempts. Each starts where the staging file ends, and any step of
it can stop on either side; the receiver gets some beginning of what the sender wrote.

The main results are `attempt_staged` and `resume_end_to_end`. -/

namespace Rift.Transfer

open Rift.Lib Rift.Core Rift.Protocol Std.Do

/-- How one attempt goes: the steps on the source, on the two ends of the stream and on the staging
file, and how much of what was sent is delivered before the stream ends. -/
structure Attempt where
  source : List ScriptStep
  sending : List ScriptStep
  delivered : ℕ
  receiving : List ScriptStep
  staging : List ScriptStep

/-- What the two workers of an attempt return. -/
structure AttemptResult where
  sender : Except TransferIoError Unit
  receiver : Except TransferIoError Unit

variable (blake3 : Hasher (FixedBytes 32)) (metadata : TransferMetadata) (file : Bytes)

/-- The sender of an attempt that starts at `offset`: its result, and what it wrote. -/
def sendAttempt (a : Attempt) (offset : ℕ) : Except TransferIoError Unit × Bytes :=
  let run := (sendPayload blake3 metadata offset).run.run
    ⟨ScriptedFile.ofContent file a.source, ScriptedFile.ofContent [] a.sending, .new 0 0⟩
  (run.1, run.2.writer.content)

/-- The receiver of an attempt: its result, and the staging file after it. -/
def receiveAttempt (a : Attempt) (sent staged : Bytes) : Except TransferIoError Unit × Bytes :=
  let run := (receivePayload blake3 metadata staged.length).run.run
    ⟨ScriptedFile.ofContent (sent.take a.delivered) a.receiving,
      ScriptedFile.ofContent staged a.staging, .new 0 0⟩
  (run.1, run.2.writer.content)

/-- One attempt, from the end of the staging file. -/
def attempt : Machine Attempt AttemptResult Bytes := fun a staged =>
  let sent := sendAttempt blake3 metadata file a staged.length
  let received := receiveAttempt blake3 metadata a sent.2 staged
  (⟨sent.1, received.1⟩, received.2)

variable {file} {a : Attempt} {offset : ℕ} {staged : Bytes}

theorem drop_of_secondPass {p x : Bytes}
    (h : SecondPass (fun f : ScriptedFile => f.content = file) offset p x) :
    x <+: file.drop offset := by
  obtain ⟨f, n, f', hf, hs, hp, hd⟩ := h
  have heq : AsyncSeek.seek .start f = (.ok n, (AsyncSeek.seek .start f).2) := Prod.ext hs rfl
  have hmoved := (ScriptedFile.eq_of_seek heq).2
  rw [hmoved] at hd
  have hahead : f.content = p ++ x ++ f'.rest := Tape.ahead_delivers hd
  rw [← hf, hahead, ← hp, List.append_assoc, List.drop_left]
  exact List.prefix_append _ _

theorem sendAttempt_begins :
    (sendAttempt blake3 metadata file a offset).2 <+: file.drop offset := by
  have hspec := sendPayload_spec blake3 metadata offset
    (P := fun f : ScriptedFile => f.content = file) (W := ScriptedFile)
    (fun n f hf => (ScriptedFile.content_read n f).trans hf)
    (fun f hf => (ScriptedFile.content_seek _ f).trans hf)
    ⟨.ofContent file a.source, .ofContent [] a.sending, .new 0 0⟩ rfl rfl
  rcases cases_of_triple hspec rfl with ⟨_, -, -, p, x, hpass, -, -, ht, -⟩ | ⟨_, -, h⟩
  · exact (congrArg (· <+: file.drop offset) ht).mpr (drop_of_secondPass hpass)
  · rcases h with ht | ⟨p, x, y, hpass, -, hy, ht, -⟩
    · exact (congrArg (· <+: file.drop offset) ht).mpr List.nil_prefix
    · exact (congrArg (· <+: file.drop offset) ht).mpr (hy.trans (drop_of_secondPass hpass))

/-- The receiver of a beginning of what is missing extends the staging file towards the file, and it
succeeds only with the whole of it. -/
theorem receiveAttempt_staged {sent : Bytes} (hlen : file.length = metadata.byteLen)
    (hstaged : staged <+: file) (hsent : sent <+: file.drop staged.length) :
    staged <+: (receiveAttempt blake3 metadata a sent staged).2 ∧
      (receiveAttempt blake3 metadata a sent staged).2 <+: file ∧
      ((receiveAttempt blake3 metadata a sent staged).1 = .ok () →
        (receiveAttempt blake3 metadata a sent staged).2 = file) := by
  have hfile : file = staged ++ file.drop staged.length := by
    obtain ⟨rest, rfl⟩ := hstaged
    rw [List.drop_left]
  -- Whatever the stream delivers is missing from the staging file.
  have hdelivered {x : Bytes} {f : ScriptedFile}
      (hd : Delivers (ScriptedFile.ofContent (sent.take a.delivered) a.receiving) x f) :
      x <+: file.drop staged.length := by
    have hahead : sent.take a.delivered = x ++ f.rest := Tape.ahead_delivers hd
    exact (hahead ▸ List.prefix_append x f.rest).trans (List.IsPrefix.trans (List.take_prefix _ _) hsent)
  rcases cases_of_triple (receivePayload_spec blake3 metadata staged.length
      ⟨ScriptedFile.ofContent (sent.take a.delivered) a.receiving,
        ScriptedFile.ofContent staged a.staging, .new 0 0⟩) rfl with
    ⟨_, hok, hle, -, x, f, hx, hd, -, hcontent, -⟩ | ⟨_, herr, x, y, f, -, hd, hy, hcontent⟩
  · have hall : x = file.drop staged.length :=
      (hdelivered hd).eq_of_length (by rw [hx, List.length_drop, hlen])
    have hnow : (receiveAttempt blake3 metadata a sent staged).2 = file := by
      rw [hfile, ← hall]
      exact hcontent
    exact ⟨hnow ▸ hstaged, hnow ▸ List.prefix_refl _, fun _ => hnow⟩
  · have hnow : (receiveAttempt blake3 metadata a sent staged).2 = staged ++ y := hcontent
    refine ⟨hnow ▸ List.prefix_append _ _, ?_, fun hok => ?_⟩
    · rw [hnow, hfile, List.prefix_append_right_inj]
      exact hy.trans (hdelivered hd)
    · have : (.ok () : Except TransferIoError Unit) = .error _ := hok.symm.trans herr
      cases this

/-- **One attempt.** The staging file grows towards the file, and a success is the whole file. -/
theorem attempt_staged (hlen : file.length = metadata.byteLen) (hstaged : staged <+: file) :
    staged <+: (attempt blake3 metadata file a staged).2 ∧
      (attempt blake3 metadata file a staged).2 <+: file ∧
      ((attempt blake3 metadata file a staged).1.receiver = .ok () →
        (attempt blake3 metadata file a staged).2 = file) :=
  receiveAttempt_staged blake3 metadata hlen hstaged (sendAttempt_begins blake3 metadata)

/-- No step of the script stops. -/
def Undisturbed (script : List ScriptStep) : Prop := ∀ s ∈ script, ∃ n, s = .move n

theorem sendAttempt_undisturbed (hlen : file.length = metadata.byteLen)
    (hhash : blake3.hash file = metadata.blake3) (hle : offset ≤ metadata.byteLen)
    (hsource : Undisturbed a.source) (hsending : Undisturbed a.sending) :
    (sendAttempt blake3 metadata file a offset).1 = .ok () ∧
      (sendAttempt blake3 metadata file a offset).2 = file.drop offset := by
  obtain ⟨_, hok, -⟩ := run_of_done (sendPayload_calm blake3 metadata offset hlen hhash hle)
    (s := ⟨.ofContent file a.source, .ofContent [] a.sending, .new 0 0⟩)
    ⟨hsource, rfl, hsending, rfl⟩ rfl
  refine ⟨hok, (sendAttempt_begins blake3 metadata).eq_of_length ?_⟩
  have hspec := sendPayload_spec blake3 metadata offset (P := fun _ : ScriptedFile => True)
    (W := ScriptedFile) (fun _ _ _ => trivial) (fun _ _ => trivial)
    ⟨.ofContent file a.source, .ofContent [] a.sending, .new 0 0⟩ trivial rfl
  rcases cases_of_triple hspec rfl with ⟨_, -, -, p, x, -, hx, -, ht, -⟩ | ⟨_, herr, -⟩
  · have hsent : (sendAttempt blake3 metadata file a offset).2 = x := ht
    rw [hsent, hx, List.length_drop, hlen]
  · have : (.ok () : Except TransferIoError Unit) = .error _ := hok.symm.trans herr
    cases this

theorem receiveAttempt_undisturbed {sent : Bytes} (hlen : file.length = metadata.byteLen)
    (hhash : blake3.hash file = metadata.blake3) (hstaged : staged <+: file)
    (hdelivered : sent.take a.delivered = file.drop staged.length)
    (hreceiving : Undisturbed a.receiving) (hstaging : Undisturbed a.staging) :
    (receiveAttempt blake3 metadata a sent staged).1 = .ok () := by
  have hle : staged.length ≤ metadata.byteLen := hlen ▸ hstaged.length_le
  obtain ⟨_, hok, -⟩ := run_of_done
    (receivePayload_calm blake3 metadata staged.length hlen hhash hle)
    (s := ⟨.ofContent (sent.take a.delivered) a.receiving, .ofContent staged a.staging, .new 0 0⟩)
    ⟨hreceiving, hdelivered, hstaging, List.prefix_iff_eq_take.mp hstaged⟩ rfl
  exact hok

/-- **Resume end to end.** After any attempts the staging file is a prefix of the file, not shorter
than before. An undisturbed sender then writes all that is missing, an undisturbed receiver that gets
all of it succeeds, and if the receiver succeeds the staging file is the file. -/
theorem resume_end_to_end (hlen : file.length = metadata.byteLen)
    (hhash : blake3.hash file = metadata.blake3) (hstaged : staged <+: file)
    (attempts : List Attempt) (a : Attempt) :
    let before := (attempt blake3 metadata file).after staged attempts
    let sent := (sendAttempt blake3 metadata file a before.length).2
    let (result, now) := attempt blake3 metadata file a before
    staged <+: before ∧ before <+: now ∧ now <+: file ∧
      (Undisturbed a.source → Undisturbed a.sending →
        result.sender = .ok () ∧ sent = file.drop before.length) ∧
      (sent.take a.delivered = file.drop before.length → Undisturbed a.receiving →
        Undisturbed a.staging → result.receiver = .ok ()) ∧
      (result.receiver = .ok () → now = file) := by
  intro before sent
  have hbefore : staged <+: before ∧ before <+: file :=
    (attempt blake3 metadata file).invariant
      (P := fun _ now => staged <+: now ∧ now <+: file) ⟨List.prefix_refl _, hstaged⟩
      (fun _ _ _ h =>
        have hnow := attempt_staged blake3 metadata hlen h.2
        ⟨h.1.trans hnow.1, hnow.2.1⟩)
      attempts
  obtain ⟨hfrom, hprefix⟩ := hbefore
  obtain ⟨hgrown, hnow, hok⟩ := attempt_staged blake3 metadata (a := a) hlen hprefix
  have hle : before.length ≤ metadata.byteLen := hlen ▸ hprefix.length_le
  exact ⟨hfrom, hgrown, hnow, sendAttempt_undisturbed blake3 metadata hlen hhash hle,
    receiveAttempt_undisturbed blake3 metadata hlen hhash hprefix, hok⟩

/-- The metadata of the file of the bytes 7, 8 and 9. -/
def threeBytes : TransferMetadata := { oneByte with byteLen := 3, byteLen_le := by decide }

/-- One byte of three is delivered before the stream is lost; the next attempt sends the other two. -/
theorem resume_three_bytes :
    let before := (attempt firstByte threeBytes [7, 8, 9]).after [] [⟨[], [], 1, [], []⟩]
    let next : Attempt := ⟨[], [], 2, [], []⟩
    before = [7] ∧ (sendAttempt firstByte threeBytes [7, 8, 9] next before.length).2 = [8, 9] ∧
      (attempt firstByte threeBytes [7, 8, 9] next before).2 = [7, 8, 9] := by
  intro before next
  have hbefore : before = [7] := by decide +kernel
  have hnil : Undisturbed [] := fun _ hs => absurd hs List.not_mem_nil
  obtain ⟨-, -, -, hsend, hreceive, hok⟩ := resume_end_to_end firstByte threeBytes
    (rfl : ([7, 8, 9] : Bytes).length = 3) rfl List.nil_prefix [⟨[], [], 1, [], []⟩] next
  have hmissing : ([7, 8, 9] : Bytes).drop before.length = [8, 9] := by rw [hbefore]; rfl
  have hsent : (sendAttempt firstByte threeBytes [7, 8, 9] next before.length).2 = [8, 9] :=
    (hsend hnil hnil).2.trans hmissing
  refine ⟨hbefore, hsent, hok (hreceive ?_ hnil hnil)⟩
  exact (congrArg (List.take 2) hsent).trans hmissing.symm

end Rift.Transfer
