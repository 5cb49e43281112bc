import Rift.Ipc.Messages
import Mathlib.Data.Finset.Basic

/-! # Serving a local client

The loop of `serve_client` behind the authentication, one branch of its `select!` after the other.
Every branch but the one that is taken drops its future, and the next turn of the loop starts a new
read: what the old read had consumed of a frame is gone from the stream.

The client's bytes come in reads of any size. If no event, completion or change of the shutdown flag
is taken while a read holds part of a frame, unless it ends the loop (`Branch.Clean`), the requests
that reach the daemon are those the client sent, in order; nothing in the code ensures that.

The main results are `Serving.step`, `clean_serve_in_order` and
`event_inside_frame_closes_client`. -/

namespace Rift.Ipc

open Rift.Lib Rift.Lib.Framing Rift.Core

/-- How many messages may wait to be written. -/
def outgoingQueueCapacity : ℕ := 64

/-- How many requests may be worked on at once. -/
def maxOutstandingRequests : ℕ := 16

/-- Why a client connection ends. -/
inductive ClientError
  | frame (error : FrameError)
  | duplicateAuthentication
  | duplicateRequestId (id : ℕ)
  | outgoingQueueFull
  | eventLagged (count : ℕ)
  | writerStopped
  | writerTask
  deriving DecidableEq

/-- How the task that writes to the client ends. -/
inductive WriterEnd
  | stopped
  | failed (error : FrameError)
  | panicked
  deriving DecidableEq

/-- What the subscription to daemon events gives. -/
inductive EventReceived
  | event (shuttingDown : Bool)
  | lagged (count : ℕ)
  | closed
  deriving DecidableEq

/-- One served client. `input` is what the client has sent, or will send, and no read has consumed;
`handed` are the requests that reached the daemon; `result` is set when the loop is left. -/
structure ServeState where
  input : Bytes
  reading : Reading
  requests : List ℕ
  outstandingIds : Finset ℕ
  handed : List (ℕ × Request)
  outgoing : ℕ
  shutdownEventQueued : Bool
  result : Option (Except ClientError Unit)
  deriving DecidableEq

/-- A client behind its authentication. -/
def ServeState.initial (input : Bytes) : ServeState :=
  { input, reading := .start, requests := [], outstandingIds := ∅, handed := [], outgoing := 0,
    shutdownEventQueued := false, result := none }

/-- What happens next: a branch of the `select!`, or the writer takes a message off its queue. -/
inductive Branch
  | shutdownChanged (stop : Bool)
  | writerEnded (ended : WriterEnd)
  | event (received : EventReceived)
  | completed (id : ℕ)
  | read (count : ℕ)
  | readEof
  | readFails
  | written
  deriving DecidableEq

namespace ServeState

/-- The loop is left with this result. -/
def leave (s : ServeState) (result : Except ClientError Unit) : ServeState :=
  { s with result := some result }

/-- Drops the pending read: the next turn of the loop starts a new one. -/
def dropRead (s : ServeState) : ServeState := { s with reading := .start }

/-- Queues one message for the writer; a full queue ends the loop. -/
def trySend (s : ServeState) : ServeState :=
  if s.outgoing < outgoingQueueCapacity then { s with outgoing := s.outgoing + 1 }
  else s.leave (.error .outgoingQueueFull)

/-- A read that is done, successfully or not. -/
def handleMessage (s : ServeState) : Except FrameError ClientMessage → ServeState
  | .ok (.request id request) =>
    if id ∈ s.outstandingIds then s.leave (.error (.duplicateRequestId id))
    else
      { s with
        outstandingIds := insert id s.outstandingIds
        requests := s.requests ++ [id]
        handed := s.handed ++ [(id, request)] }
  | .ok (.authenticate _ _) => s.leave (.error .duplicateAuthentication)
  | .error (.truncatedPrefix 0) => s.leave (.ok ())
  | .error e => s.leave (.error (.frame e))

/-- What a chunk made of the pending read. -/
def advance (parse : String → Option ClientMessage) (s : ServeState) : Outcome → ServeState
  | .pending reading => { s with reading }
  | .tooLarge declared =>
    s.dropRead.handleMessage (.error (.frameTooLarge declared maxIpcFrameLen))
  | .frame payload => s.dropRead.handleMessage (decodePayload parse payload)

end ServeState

/-- One branch of the loop, if it can be taken: the read is polled only below the bound on outstanding
requests, and gets at least a byte, at most what its buffer has room for. -/
def Branch.step (parse : String → Option ClientMessage) (s : ServeState) (branch : Branch) :
    Option ServeState :=
  if s.result.isSome then none
  else
    match branch with
    | .shutdownChanged true =>
      if !s.shutdownEventQueued && s.outgoing ≥ outgoingQueueCapacity then
        some (s.leave (.error .outgoingQueueFull))
      else some (s.leave (.ok ()))
    | .shutdownChanged false => some s.dropRead
    | .writerEnded .stopped => some (s.leave (.error .writerStopped))
    | .writerEnded (.failed e) => some (s.leave (.error (.frame e)))
    | .writerEnded .panicked => some (s.leave (.error .writerTask))
    | .event (.event shuttingDown) =>
      some { s with shutdownEventQueued := s.shutdownEventQueued || shuttingDown }.dropRead.trySend
    | .event (.lagged count) => some (s.leave (.error (.eventLagged count)))
    | .event .closed => some (s.leave (.ok ()))
    | .completed id =>
      if id ∈ s.requests then
        some { s with
          requests := s.requests.erase id
          outstandingIds := s.outstandingIds.erase id }.dropRead.trySend
      else none
    | .read count =>
      if s.requests.length < maxOutstandingRequests ∧ 0 < count ∧ count ≤ s.reading.need ∧
          count ≤ s.input.length then
        some ({ s with input := s.input.drop count }.advance parse
          (s.reading.accept maxIpcFrameLen (s.input.take count)))
      else none
    | .readEof =>
      if s.requests.length < maxOutstandingRequests ∧ s.input = [] then
        some (s.dropRead.handleMessage (.error (endOfStream s.reading)))
      else none
    | .readFails =>
      if s.requests.length < maxOutstandingRequests then
        some (s.dropRead.handleMessage (.error (readError s.reading)))
      else none
    | .written => if 0 < s.outgoing then some { s with outgoing := s.outgoing - 1 } else none

/-- The loop takes these branches, if it can. -/
def serve (parse : String → Option ClientMessage) : ServeState → List Branch → Option ServeState
  | s, [] => some s
  | s, branch :: branches => (branch.step parse s).bind fun s' => serve parse s' branches

/-! ### Clean runs -/

/-- If the branch drops the pending read and stays in the loop, the read has consumed nothing. An event
or a completion for which the queue has no room leaves the loop. -/
def Branch.Clean (s : ServeState) : Branch → Prop
  | .shutdownChanged false => s.reading = .start
  | .event (.event _) => s.outgoing < outgoingQueueCapacity → s.reading = .start
  | .completed _ => s.outgoing < outgoingQueueCapacity → s.reading = .start
  | _ => True

/-- The local socket fails, not the client's frames. -/
def Branch.IoFailure : Branch → Prop
  | .writerEnded (.failed _) => True
  | .readFails => True
  | _ => False

/-- Every branch of the run is clean where it is taken. -/
def CleanServe (parse : String → Option ClientMessage) : ServeState → List Branch → Prop
  | _, [] => True
  | s, branch :: branches => branch.Clean s ∧
      ∀ s', branch.step parse s = some s' → CleanServe parse s' branches

/-- A frame that holds a request. -/
structure RequestFrame (parse : String → Option ClientMessage) where
  payload : Bytes
  id : ℕ
  request : Request
  fits : payload.length ≤ maxIpcFrameLen
  decodes : decodePayload parse payload = .ok (.request id request)

section

variable {parse : String → Option ClientMessage}

/-- The bytes of a list of request frames. -/
def stream (frames : List (RequestFrame parse)) : Bytes :=
  frames.flatMap fun frame => frameBytes frame.payload

/-- The requests of a list of frames. -/
def sent (frames : List (RequestFrame parse)) : List (ℕ × Request) :=
  frames.map fun frame => (frame.id, frame.request)

/-- The pending read and the input are where the frames `todo` begin, or inside the first of them. -/
def Aligned (s : ServeState) : List (RequestFrame parse) → Prop
  | [] => s.reading = .start ∧ s.input = []
  | frame :: todo => ∃ left, s.reading.Inside frame.payload left ∧ s.input = left ++ stream todo

/-- The client sent the frames `frames`: those up to some point have reached the daemon, and in the
loop the rest is still to be read. -/
structure Serving (frames : List (RequestFrame parse)) (s : ServeState) : Prop where
  progress : ∃ done todo, frames = done ++ todo ∧ s.handed = sent done ∧
    (∀ id ∈ s.outstandingIds, id ∈ done.map RequestFrame.id) ∧ (s.result = none → Aligned s todo)
  result : ∀ e, s.result ≠ some (.error (.frame e))

theorem aligned_start (s : ServeState) (hr : s.reading = .start) :
    ∀ todo : List (RequestFrame parse), s.input = stream todo → Aligned s todo
  | [], hi => ⟨hr, hi⟩
  | frame :: _, hi => ⟨frameBytes frame.payload, hr ▸ Reading.start_inside _, hi⟩

theorem Aligned.congr {s s' : ServeState} (hi : s'.input = s.input) (hr : s'.reading = s.reading) :
    ∀ {todo : List (RequestFrame parse)}, Aligned s todo → Aligned s' todo
  | [], h => ⟨hr.trans h.1, hi.trans h.2⟩
  | _ :: _, ⟨left, h₁, h₂⟩ => ⟨left, hr ▸ h₁, hi.trans h₂⟩

namespace Serving

variable {frames : List (RequestFrame parse)} {s s' : ServeState}

theorem frame (h : Serving frames s) (hh : s'.handed = s.handed)
    (ho : s'.outstandingIds ⊆ s.outstandingIds) (hi : s'.input = s.input)
    (hr : s'.reading = s.reading) (hres : s'.result = none → s.result = none)
    (hne : ∀ e, s'.result ≠ some (.error (.frame e))) : Serving frames s' := by
  obtain ⟨done, todo, hf, hd, hout, hal⟩ := h.progress
  refine ⟨⟨done, todo, hf, hh.trans hd, fun id hid => hout id (ho hid), fun hn => ?_⟩, hne⟩
  exact (hal (hres hn)).congr hi hr

theorem left (h : Serving frames s) {result : Except ClientError Unit}
    (hne : ∀ e, result ≠ .error (.frame e)) (hh : s'.handed = s.handed)
    (ho : s'.outstandingIds ⊆ s.outstandingIds) (hr : s'.result = some result) :
    Serving frames s' := by
  obtain ⟨done, todo, hf, hd, hout, -⟩ := h.progress
  refine ⟨⟨done, todo, hf, hh.trans hd, fun id hid => hout id (ho hid), fun hn => ?_⟩,
    fun e he => hne e ?_⟩
  · rw [hr] at hn
    cases hn
  · rw [hr] at he
    exact Option.some.inj he

theorem leave (h : Serving frames s) {result : Except ClientError Unit}
    (hne : ∀ e, result ≠ .error (.frame e)) : Serving frames (s.leave result) :=
  h.left hne rfl (Finset.Subset.refl _) rfl

theorem queue (h : Serving frames s) (s' : ServeState) (hn : s.result = none)
    (hclean : s.outgoing < outgoingQueueCapacity → s.reading = .start) (hh : s'.handed = s.handed)
    (ho : s'.outstandingIds ⊆ s.outstandingIds) (hi : s'.input = s.input)
    (hout : s'.outgoing = s.outgoing) (hr : s'.result = s.result) :
    Serving frames s'.dropRead.trySend := by
  unfold ServeState.trySend
  split_ifs with hroom
  · have hstart := hclean (hout ▸ hroom)
    exact h.frame hh ho hi hstart.symm (fun _ => hn) fun e he => h.result e (hr ▸ he)
  · exact h.left (fun e he => by cases he) hh ho rfl

theorem handleRequest {done todo : List (RequestFrame parse)} {frame : RequestFrame parse}
    (hids : ((done ++ frame :: todo).map RequestFrame.id).Nodup) (hd : s.handed = sent done)
    (hout : ∀ id ∈ s.outstandingIds, id ∈ done.map RequestFrame.id) (hn : s.result = none)
    (hr : s.reading = .start) (hi : s.input = stream todo) :
    Serving (done ++ frame :: todo)
      (s.handleMessage (decodePayload parse frame.payload)) := by
  have hnew : frame.id ∉ s.outstandingIds := by
    intro hmem
    rw [List.map_append, List.map_cons, List.nodup_append] at hids
    exact hids.2.2 _ (hout _ hmem) _ List.mem_cons_self rfl
  rw [frame.decodes, ServeState.handleMessage, if_neg hnew]
  refine ⟨⟨done ++ [frame], todo, by simp, ?_, ?_, fun _ => aligned_start _ hr todo hi⟩, ?_⟩
  · simp [sent, hd]
  · intro id hid
    rw [List.map_append]
    rcases Finset.mem_insert.mp hid with rfl | hid
    · simp
    · exact List.mem_append_left _ (hout id hid)
  · intro e he
    rw [show _ = s.result from rfl, hn] at he
    cases he

/-- **One read.** -/
theorem read (h : Serving frames s) (hids : (frames.map RequestFrame.id).Nodup)
    (hn : s.result = none) {count : ℕ} (hpos : 0 < count) (hneed : count ≤ s.reading.need)
    (hlen : count ≤ s.input.length) :
    Serving frames ({ s with input := s.input.drop count }.advance parse
      (s.reading.accept maxIpcFrameLen (s.input.take count))) := by
  obtain ⟨done, todo, rfl, hd, hout, hal⟩ := h.progress
  cases todo with
  | nil =>
    have hnil := (hal hn).2
    rw [hnil, List.length_nil] at hlen
    omega
  | cons frame todo =>
    obtain ⟨left, hin, hi⟩ := hal hn
    have hle : count ≤ left.length := hneed.trans hin.need_le
    have htake : s.input.take count = left.take count := by
      rw [hi, List.take_append_of_le_length hle]
    have hdrop : s.input.drop count = left.drop count ++ stream todo := by
      rw [hi, List.drop_append_of_le_length hle]
    have hin' : s.reading.Inside frame.payload (left.take count ++ left.drop count) := by
      rwa [List.take_append_drop]
    have hroom : (left.take count).length ≤ s.reading.need := by
      rw [List.length_take]; omega
    rw [htake]
    rcases Reading.accept_inside (by decide) frame.fits hin' hroom with
      ⟨hacc, hnil⟩ | ⟨r, hacc, hr⟩
    · rw [hacc]
      refine handleRequest hids hd hout hn rfl ?_
      show s.input.drop count = stream todo
      rw [hdrop, hnil, List.nil_append]
    · rw [hacc]
      exact ⟨⟨done, frame :: todo, rfl, hd, hout, fun _ => ⟨left.drop count, hr, hdrop⟩⟩, h.result⟩

theorem readEof (h : Serving frames s) (hn : s.result = none) (hnil : s.input = []) :
    Serving frames (s.dropRead.handleMessage (.error (endOfStream s.reading))) := by
  obtain ⟨done, todo, hf, hd, hout, hal⟩ := h.progress
  have hstart : s.reading = .start := by
    cases todo with
    | nil => exact (hal hn).1
    | cons frame todo =>
      obtain ⟨left, hin, hi⟩ := hal hn
      rw [hnil] at hi
      exact absurd (List.append_eq_nil_iff.mp hi.symm).1 hin.left_ne_nil
  rw [hstart]
  have hdrop : Serving frames s.dropRead :=
    h.frame rfl (Finset.Subset.refl _) rfl hstart.symm (fun _ => hn) h.result
  exact hdrop.leave fun e he => by cases he

/-- **One clean branch**, when the socket does not fail. -/
theorem step (h : Serving frames s) (hids : (frames.map RequestFrame.id).Nodup) {branch : Branch}
    (hclean : branch.Clean s) (hio : ¬ branch.IoFailure) (hs : branch.step parse s = some s') :
    Serving frames s' := by
  have hn : s.result = none := by
    cases hr : s.result with
    | none => rfl
    | some result => simp [Branch.step, hr] at hs
  unfold Branch.step at hs
  rw [if_neg (by simp [hn])] at hs
  -- dropping a read that has consumed nothing changes nothing
  have hdrop : s.reading = .start → Serving frames s.dropRead := fun hr =>
    h.frame rfl (Finset.Subset.refl _) rfl hr.symm (fun _ => hn) h.result
  rcases branch with stop | ended | received | id | count | _ | _ | _
  · cases stop
    · cases hs; exact hdrop hclean
    · simp only at hs
      split_ifs at hs <;> cases hs <;> exact h.leave fun e he => by cases he
  · rcases ended with _ | e | _
    · cases hs; exact h.leave fun e he => by cases he
    · exact absurd trivial hio
    · cases hs; exact h.leave fun e he => by cases he
  · rcases received with shuttingDown | count | _
    · cases hs
      exact h.queue { s with shutdownEventQueued := _ } hn hclean rfl (Finset.Subset.refl _)
        rfl rfl rfl
    · cases hs; exact h.leave fun e he => by cases he
    · cases hs; exact h.leave fun e he => by cases he
  · simp only at hs
    split_ifs at hs
    cases hs
    exact h.queue { s with requests := _, outstandingIds := _ } hn hclean rfl
      (Finset.erase_subset _ _) rfl rfl rfl
  · simp only at hs
    split_ifs at hs with hc
    cases hs
    exact h.read hids hn hc.2.1 hc.2.2.1 hc.2.2.2
  · simp only at hs
    split_ifs at hs with hc
    cases hs
    exact h.readEof hn hc.2
  · exact absurd trivial hio
  · simp only at hs
    split_ifs at hs
    cases hs
    exact h.frame rfl (Finset.Subset.refl _) rfl rfl (fun _ => hn) h.result

end Serving

theorem Serving.run {frames : List (RequestFrame parse)}
    (hids : (frames.map RequestFrame.id).Nodup) : ∀ {s s' : ServeState} {branches : List Branch},
    Serving frames s → CleanServe parse s branches → (∀ b ∈ branches, ¬ b.IoFailure) →
      serve parse s branches = some s' → Serving frames s'
  | _, _, [], h, _, _, hs => by cases hs; exact h
  | _, _, branch :: branches, h, ⟨hclean, hrest⟩, hio, hs => by
    obtain ⟨s₁, h₁, h₂⟩ := Option.bind_eq_some_iff.mp hs
    exact Serving.run hids (h.step hids hclean (hio branch List.mem_cons_self) h₁)
      (hrest s₁ h₁) (fun b hb => hio b (List.mem_cons_of_mem _ hb)) h₂

theorem serving_initial (frames : List (RequestFrame parse)) :
    Serving frames (.initial (stream frames)) where
  progress := ⟨[], frames, rfl, rfl, fun _ hid => absurd hid (Finset.notMem_empty _),
    fun _ => aligned_start _ rfl frames rfl⟩
  result e he := by cases he

end

/-- **Clean runs serve the client in order.** A client sends request frames with distinct
identifiers, and its bytes come in reads of any size, between events, completions and changes of the
shutdown flag that end the loop or are taken while the pending read has consumed nothing. As long as
the local socket does not fail, the requests that reached the daemon are the first ones the client
sent, and the connection is not closed with a frame error. -/
theorem clean_serve_in_order (parse : String → Option ClientMessage)
    (frames : List (RequestFrame parse)) (hids : (frames.map RequestFrame.id).Nodup)
    (branches : List Branch) (s : ServeState)
    (hserve : serve parse (.initial (stream frames)) branches = some s)
    (hclean : CleanServe parse (.initial (stream frames)) branches)
    (hio : ∀ b ∈ branches, ¬ b.IoFailure) :
    s.handed <+: sent frames ∧ ∀ e, s.result ≠ some (.error (.frame e)) := by
  have h := (serving_initial frames).run hids hclean hio hserve
  obtain ⟨done, todo, rfl, hd, -, -⟩ := h.progress
  refine ⟨?_, h.result⟩
  rw [hd, sent, sent, List.map_append]
  exact List.prefix_append _ _

/-! ### A client to compute with -/

/-- The JSON of a `get_status` request under identifier 1. -/
def sampleText : String :=
  "\x7b\"type\":\"request\",\"id\":1,\"request\":\x7b\"type\":\"get_status\"\x7d\x7d"

def sampleParse (text : String) : Option ClientMessage :=
  if text = sampleText then some (.request 1 .getStatus) else none

def sampleFrame : RequestFrame sampleParse where
  payload := Postcard.utf8 sampleText
  id := 1
  request := .getStatus
  fits := by decide
  decodes := by simp [decodePayload, sampleParse]

/-- An event between two frames, then the frame in two reads. -/
theorem clean_serve_two_reads :
    let branches : List Branch := [.event (.event false), .read 4, .read 57]
    ∃ s, serve sampleParse (.initial (stream [sampleFrame])) branches = some s ∧
      s.handed = [(1, .getStatus)] ∧ s.handed <+: sent [sampleFrame] ∧
      ∀ e, s.result ≠ some (.error (.frame e)) := by
  intro branches
  obtain ⟨s, hs, hh⟩ : ∃ s, serve sampleParse (.initial (stream [sampleFrame])) branches = some s ∧
      s.handed = [(1, .getStatus)] := by
    have h : (serve sampleParse (.initial (stream [sampleFrame])) branches).map
        ServeState.handed = some [(1, .getStatus)] := by decide +kernel
    exact Option.map_eq_some_iff.mp h
  refine ⟨s, hs, hh, clean_serve_in_order sampleParse [sampleFrame] (by decide) branches s hs ?_ ?_⟩
  · exact ⟨fun _ => rfl, fun _ _ => ⟨trivial, fun _ _ => ⟨trivial, fun _ _ => trivial⟩⟩⟩
  · intro b hb
    simp only [branches, List.mem_cons, List.not_mem_nil, or_false] at hb
    rcases hb with rfl | rfl | rfl <;> exact id

/-- **An event inside a frame closes the client.** The length of the frame has been read when an
event is taken; the next read takes the first four bytes of the JSON for a length. -/
theorem event_inside_frame_closes_client :
    (serve sampleParse (.initial (stream [sampleFrame]))
      [.read 4, .event (.event false), .read 4]).map (fun s => (s.handed, s.result)) =
        some ([], some (.error (.frame (.frameTooLarge 2065855609 maxIpcFrameLen)))) := by
  decide +kernel

end Rift.Ipc
