import Rift.Lib.FrameIo
import Rift.Protocol.Codec

/-! # Control messages from a stream

Frames are read off a stream in two steps, the length and the payload, each however the stream splits
it. This is the decoding of a complete frame, of which the stream holds as many bytes as it declares.

The main results are `readValue_ok_iff`, `readValue_frame` and
`stream_framing_is_frame_decoding`. -/

namespace Rift.Protocol

open Rift.Lib Rift.Lib.Postcard Rift.Lib.Framing Rift.Core

section Reading

variable {R α : Type} [AsyncRead R] (take : Take α)

/-- Reads one bounded frame. -/
def readValue (r : R) : Except FrameError α × R :=
  match readExact lengthLen r with
  | (.error _, r) => (.error .truncatedLengthPrefix, r)
  | (.ok lengthBytes, r) =>
    match ensureFrameSize (declaredLength lengthBytes) with
    | .error e => (.error e, r)
    | .ok () =>
      match readExact (declaredLength lengthBytes) r with
      | (.error _, r) => (.error .truncatedPayload, r)
      | (.ok payload, r) => (decodePayload take payload, r)

/-- Reads one message from a stream. -/
def readMessage (r : R) : Except FrameError ControlMessage × R := readValue takeControl r

/-- Successive reads of messages. -/
def readMessages : ℕ → R → List (Except FrameError ControlMessage) × R
  | 0, r => ([], r)
  | n + 1, r =>
    let (message, r) := readMessage r
    let (messages, r) := readMessages n r
    (message :: messages, r)

end Reading

/-- Writes one bounded frame, first its length. -/
def writeMessage {W : Type} [AsyncWrite W] (w : W) (message : ControlMessage) :
    Except FrameError Unit × W :=
  match encodeMessage message with
  | .error e => (.error e, w)
  | .ok frame =>
    match writeAll (frame.take lengthLen) w with
    | (.error _, w) => (.error .write, w)
    | (.ok (), w) =>
      let (result, w) := writeAll (frame.drop lengthLen) w
      (result.mapError fun _ => .write, w)

theorem writeMessage_absorbs {W : Type} [Sink W] {w : W} (ha : Absorbs w) (hr : Sink.ready w)
    {message : ControlMessage} (hb : message.Bounded) :
    (writeMessage w message).1 = .ok () ∧ Absorbs (writeMessage w message).2 ∧
      Sink.ready (writeMessage w message).2 ∧
      Sink.taken (writeMessage w message).2 =
        Sink.taken w ++ frameBytes (encodeControl message) := by
  obtain ⟨h₁, ha₁, hr₁, ht₁⟩ :=
    writeAll_absorbs ((frameBytes (encodeControl message)).take lengthLen) ha hr
  obtain ⟨h₂, ha₂, hr₂, ht₂⟩ :=
    writeAll_absorbs ((frameBytes (encodeControl message)).drop lengthLen) ha₁ hr₁
  unfold writeMessage
  simp only [encodeMessage_ok hb]
  rcases hw : writeAll ((frameBytes (encodeControl message)).take lengthLen) w with ⟨e | ⟨⟩, w₁⟩
  · rw [hw] at h₁
    cases h₁
  · rw [hw] at h₂ ha₂ hr₂ ht₁ ht₂
    refine ⟨?_, ha₂, hr₂, ?_⟩
    · show Except.mapError _ (writeAll _ w₁).1 = _
      rw [h₂]
      rfl
    · show Sink.taken (writeAll _ w₁).2 = _
      rw [ht₂, ht₁, List.append_assoc, List.take_append_drop]

section Flowing

variable {R α : Type} [Tape R] {take : Take α} {r : R}

open Tape

/-- What a failed read of a frame is reported as. -/
def frameError : FrameFault → FrameError
  | .length _ => .truncatedLengthPrefix
  | .tooLarge declared => .frameTooLarge declared maxControlFrameLen
  | .payload _ => .truncatedPayload

theorem readValue_eq (r : R) : readValue take r =
    (match (readFrame maxControlFrameLen r).1 with
      | .error fault => .error (frameError fault)
      | .ok payload => decodePayload take payload, (readFrame maxControlFrameLen r).2) := by
  unfold readValue readFrame ensureFrameSize declaredLength
  rcases readExact lengthLen r with ⟨e | lengthBytes, r₁⟩
  · rfl
  · by_cases hlarge : maxControlFrameLen < ofBE lengthBytes
    · simp only [if_pos hlarge]
      rfl
    · simp only [if_neg hlarge]
      rcases readExact (ofBE lengthBytes) r₁ with ⟨e | payload, r₂⟩ <;> rfl

theorem maxControlFrameLen_lt : maxControlFrameLen < 256 ^ lengthLen := by decide

theorem readValue_ok_iff (hf : Flows r) {value : α} :
    (readValue take r).1 = .ok value ↔
      ∃ frame, ahead r = frame ++ ahead (readValue take r).2 ∧ decodeFrame take frame = .ok value := by
  rw [readValue_eq]
  constructor
  · intro h
    rcases hpayload : (readFrame maxControlFrameLen r).1 with e | payload
    · simp only [hpayload] at h
      cases h
    · simp only [hpayload] at h
      obtain ⟨hsize, hahead⟩ := readFrame_rest hf hpayload
      exact ⟨_, hahead, decodeFrame_iff_frameBytes.mpr ⟨payload, rfl, hsize, decodePayload_ok_iff.mp h⟩⟩
  · rintro ⟨frame, hahead, hdecode⟩
    obtain ⟨payload, rfl, hsize, htake⟩ := decodeFrame_iff_frameBytes.mp hdecode
    obtain ⟨hok, -, -⟩ := readFrame_frame maxControlFrameLen_lt hf hsize hahead
    simp only [hok]
    exact decodePayload_ok_iff.mpr htake

theorem readValue_frame (hf : Flows r) {frame rest : Bytes} (h : ahead r = frame ++ rest) {value : α}
    (hdecode : decodeFrame take frame = .ok value) :
    (readValue take r).1 = .ok value ∧ ahead (readValue take r).2 = rest ∧
      Flows (readValue take r).2 := by
  obtain ⟨payload, rfl, hsize, htake⟩ := decodeFrame_iff_frameBytes.mp hdecode
  obtain ⟨hok, hrest, hflows⟩ := readFrame_frame maxControlFrameLen_lt hf hsize h
  rw [readValue_eq]
  simp only [hok]
  exact ⟨decodePayload_ok_iff.mpr htake, hrest, hflows⟩

theorem readValue_tooLarge (hf : Flows r) (h : lengthLen ≤ (ahead r).length)
    (hlarge : maxControlFrameLen < declaredLength ((ahead r).take lengthLen)) :
    (readValue take r).1 = .error (.frameTooLarge (declaredLength ((ahead r).take lengthLen))
        maxControlFrameLen) ∧
      ahead (readValue take r).2 = (ahead r).drop lengthLen := by
  obtain ⟨r₁, hr₁, hrest, -⟩ := readExact_ok hf h
  unfold readValue ensureFrameSize
  simp only [hr₁, hlarge, if_true]
  exact ⟨trivial, hrest⟩

/-- A read returns a value and consumes `n` bytes exactly if these are a frame that decodes to it. -/
theorem readValue_consumes_iff (hf : Flows r) {value : α} {n : ℕ} :
    (readValue take r).1 = .ok value ∧ ahead (readValue take r).2 = (ahead r).drop n ↔
      decodeFrame take ((ahead r).take n) = .ok value := by
  constructor
  · rintro ⟨hok, hrest⟩
    obtain ⟨frame, hahead, hdecode⟩ := (readValue_ok_iff hf).mp hok
    rw [hrest] at hahead
    have hframe : (ahead r).take n = frame :=
      List.append_cancel_right ((List.take_append_drop n _).trans hahead)
    rw [hframe]
    exact hdecode
  · intro hdecode
    obtain ⟨hok, hrest, -⟩ := readValue_frame hf (List.take_append_drop n (ahead r)).symm hdecode
    exact ⟨hok, hrest⟩

theorem readMessage_decodes (hf : Flows r) {frame rest : Bytes} (h : ahead r = frame ++ rest)
    {message : ControlMessage} (hdecode : decodeMessage frame = .ok message) :
    (readMessage r).1 = .ok message ∧ ahead (readMessage r).2 = rest ∧ Flows (readMessage r).2 :=
  readValue_frame hf h hdecode

theorem decodes_of_readMessage (hf : Flows r) {message : ControlMessage}
    (h : (readMessage r).1 = .ok message) :
    ∃ frame, ahead r = frame ++ ahead (readMessage r).2 ∧ decodeMessage frame = .ok message :=
  (readValue_ok_iff hf).mp h

/-- However the read of a message ends, it took no more than a length and the payload it declares. -/
theorem readMessage_within (hf : Flows r) :
    ∃ k, ahead (readMessage r).2 = (ahead r).drop k ∧
      k ≤ lengthLen + declaredLength ((ahead r).take lengthLen) ∧
      (maxControlFrameLen < declaredLength ((ahead r).take lengthLen) → k ≤ lengthLen) := by
  unfold readMessage
  rw [readValue_eq]
  exact (readFrame_within hf).2

theorem readMessage_frame (hf : Flows r) {message : ControlMessage} (hb : message.Bounded)
    {rest : Bytes} (h : ahead r = frameBytes (encodeControl message) ++ rest) :
    (readMessage r).1 = .ok message ∧ ahead (readMessage r).2 = rest ∧ Flows (readMessage r).2 :=
  readMessage_decodes hf h
    (decodeFrame_frameBytes (length_encodeControl_le hb) (takeControl_encode hb))

theorem readMessages_frames : ∀ (messages : List ControlMessage), (∀ m ∈ messages, m.Bounded) →
    ∀ {r : R} {tail : Bytes}, Flows r →
      ahead r = (messages.map fun m => frameBytes (encodeControl m)).flatten ++ tail →
      (readMessages messages.length r).1 = messages.map .ok ∧
        ahead (readMessages messages.length r).2 = tail
  | [], _, r, tail, _, h => ⟨rfl, h⟩
  | m :: messages, hbounded, r, tail, hf, h => by
    rw [List.map_cons, List.flatten_cons, List.append_assoc] at h
    obtain ⟨hok, hrest, hflows⟩ := readMessage_frame hf (hbounded m List.mem_cons_self) h
    obtain ⟨hall, htail⟩ := readMessages_frames messages
      (fun m' hm' => hbounded m' (List.mem_cons_of_mem _ hm')) hflows hrest
    refine ⟨?_, htail⟩
    rw [List.map_cons, ← hok, ← hall]
    rfl

/-- **Stream framing is frame decoding.** However the stream splits its bytes: a read returns a message
and consumes `n` bytes exactly if the first `n` bytes are a length and as many bytes as it declares,
and decode to the message; a declared length above the limit is refused after exactly the length; and
successive reads of the frames of messages within their bounds return these, and leave what is behind
them unread. -/
theorem stream_framing_is_frame_decoding (hf : Flows r) :
    (∀ (message : ControlMessage) (n : ℕ), n ≤ (ahead r).length →
      ((readMessage r).1 = .ok message ∧ ahead (readMessage r).2 = (ahead r).drop n ↔
        n = lengthLen + declaredLength ((ahead r).take lengthLen) ∧
          decodeMessage ((ahead r).take n) = .ok message)) ∧
    (lengthLen ≤ (ahead r).length →
      maxControlFrameLen < declaredLength ((ahead r).take lengthLen) →
      (∃ e, (readMessage r).1 = .error e) ∧
        ahead (readMessage r).2 = (ahead r).drop lengthLen) ∧
    ∀ (messages : List ControlMessage) (frames : List Bytes) (tail : Bytes),
      (∀ m ∈ messages, m.Bounded) → messages.map encodeMessage = frames.map .ok →
      ahead r = frames.flatten ++ tail →
      (readMessages messages.length r).1 = messages.map .ok ∧
        ahead (readMessages messages.length r).2 = tail := by
  refine ⟨fun message n hn => ?_, fun h hlarge => ?_,
    fun messages frames tail hbounded hframes h => ?_⟩
  · refine (readValue_consumes_iff hf).trans ⟨fun hdecode => ⟨?_, hdecode⟩, fun h => h.2⟩
    obtain ⟨-, hlen, -⟩ := decodeFrame_ok_iff.mp hdecode
    rw [List.length_take, min_eq_left hn, List.take_take, min_eq_left (by omega)] at hlen
    exact hlen
  · obtain ⟨herr, hrest⟩ : (readMessage r).1 = _ ∧ _ := readValue_tooLarge hf h hlarge
    exact ⟨⟨_, herr⟩, hrest⟩
  · have hmap : frames = messages.map fun m => frameBytes (encodeControl m) := by
      refine List.map_injective_iff.mpr (fun _ _ h => Except.ok.inj h) (hframes.symm.trans ?_)
      rw [List.map_map]
      exact List.map_congr_left fun m hm => encodeMessage_ok (hbounded m hm)
    exact readMessages_frames messages hbounded hf (hmap ▸ h)

/-- A ping that arrives byte by byte. -/
theorem ping_arrives_in_pieces :
    let stream : ScriptedFile :=
      .ofContent (frameBytes (encodeControl (.ping 7)) ++ [1, 2]) (List.replicate 6 (.move 0))
    (readMessages 1 stream).1 = [.ok (.ping 7)] ∧ ahead (readMessages 1 stream).2 = [1, 2] := by
  intro stream
  have hcalm : stream.Calm := fun s hs => ⟨0, List.eq_of_mem_replicate hs⟩
  exact (stream_framing_is_frame_decoding hcalm.flows).2.2 [.ping 7]
    [frameBytes (encodeControl (.ping 7))] [1, 2] (by simp [ControlMessage.Bounded]) rfl rfl

end Flowing

end Rift.Protocol
