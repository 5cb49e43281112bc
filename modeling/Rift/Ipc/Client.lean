import Rift.Ipc.Encoding
import Rift.Lib.Exchange
import Rift.Lib.Hex
import Rift.Transport.Control

/-! # Who is served

What `serve_client` does in front of its loop: the first frame of a client has to authenticate it with
the token of the daemon. Main result: `local_client_gate`. -/

namespace Rift.Ipc

open Rift.Lib Rift.Lib.Framing
open Rift.Transport (Clocked)

/-- The version of the local protocol. -/
def ipcProtocolVersion : ℕ := 1

/-! ### The token -/

/-- The secret that local clients show, in lower-case hexadecimal. -/
structure AuthToken where
  encoded : Bytes

/-- The token of 32 random bytes. -/
def AuthToken.generate (random : FixedBytes 32) : AuthToken := ⟨hexEncode random.toList⟩

/-- Whether the bytes are small digits so far, and the bits in which they differ. -/
def compareBytes (seen : Bool × UInt8) (pair : UInt8 × UInt8) : Bool × UInt8 :=
  (seen.1 && lowerHex pair.1, seen.2 ||| pair.1 ^^^ pair.2)

/-- The comparison of a candidate, which looks at every byte. -/
def AuthToken.matchesText (token : AuthToken) (candidate : String) : Bool :=
  let bytes := Postcard.utf8 candidate
  if bytes.length ≠ token.encoded.length then false
  else
    let (validLowerHex, difference) := (bytes.zip token.encoded).foldl compareBytes (true, 0)
    validLowerHex && difference == 0

theorem compared_iff : ∀ (xs ys : Bytes) (seen : Bool × UInt8), xs.length = ys.length →
    ((((xs.zip ys).foldl compareBytes seen).1 && ((xs.zip ys).foldl compareBytes seen).2 == 0) = true ↔
      seen.1 = true ∧ seen.2 = 0 ∧ xs = ys ∧ ∀ x ∈ xs, lowerHex x = true)
  | [], [], seen, _ => by simp
  | x :: xs, y :: ys, seen, h => by
    have hzero : seen.2 ||| x ^^^ y = 0 ↔ seen.2 = 0 ∧ x = y := by
      simp only [← UInt8.toBitVec_inj, UInt8.toBitVec_or, UInt8.toBitVec_xor, UInt8.toBitVec_zero,
        BitVec.or_eq_zero_iff, BitVec.xor_eq_zero_iff]
    rw [List.zip_cons_cons, List.foldl_cons, compared_iff xs ys _ (Nat.succ.inj h)]
    simp only [compareBytes, Bool.and_eq_true, hzero, List.cons.injEq, List.forall_mem_cons]
    tauto

theorem AuthToken.matchesText_iff (random : FixedBytes 32) (candidate : String) :
    (generate random).matchesText candidate = true ↔
      Postcard.utf8 candidate = hexEncode random.toList := by
  unfold matchesText generate
  by_cases hlen : (Postcard.utf8 candidate).length = (hexEncode random.toList).length
  · rw [if_neg (not_not_intro hlen), compared_iff _ _ _ hlen]
    exact ⟨fun h => h.2.2.1, fun h => ⟨rfl, rfl, h, fun x hx => lowerHex_of_mem_hexEncode (h ▸ hx)⟩⟩
  · rw [if_pos hlen]
    exact ⟨fun h => absurd h Bool.false_ne_true, fun h => absurd (congrArg List.length h) hlen⟩

/-! ### The first frame -/

/-- Why a client is not served. -/
inductive AuthError
  | authenticationTimeout
  | authenticationFailed
  | read (fault : FrameFault)
  | frame (error : FrameError)

variable {S R : Type} [AsyncWrite S] [Clocked S] [Clocked R] (escape : UInt8 → Bytes)
  (random : FixedBytes 32) (parse : String → Option ClientMessage)

/-- Writes one message to a client. -/
def writeJsonFrame (message : ServerMessage) (send : S) : Except FrameError Unit × S :=
  match encodeJsonFrame escape message with
  | .error e => (.error e, send)
  | .ok frame =>
    match writeAll frame send with
    | (.error _, send) => (.error (.io "write"), send)
    | (.ok (), send) =>
      let (flushed, send) := AsyncWrite.flush send
      (flushed.mapError fun _ => .io "flush", send)

/-- The first exchange with a client, in which it shows the token. -/
def authenticate [AsyncRead R] (token : AuthToken) (recv : R) (send : S) :
    Except AuthError Unit × R × S :=
  match readFrame maxIpcFrameLen recv with
  | (.error fault, recv) =>
    (.error (if Clocked.expired recv then .authenticationTimeout else .read fault), recv, send)
  | (.ok payload, recv) =>
    match decodePayload parse payload with
    | .error e => (.error (.frame e), recv, send)
    | .ok (.request _ _) => (.error .authenticationFailed, recv, send)
    | .ok (.authenticate version candidate) =>
      if version ≠ ipcProtocolVersion ∨ token.matchesText candidate = false then
        (.error .authenticationFailed, recv, send)
      else
        let (written, send) := writeJsonFrame escape (.authenticated ipcProtocolVersion) send
        (written.mapError fun e =>
          if Clocked.expired send then .authenticationTimeout else .frame e, recv, send)

/-- The bytes are a frame that authenticates with this version and the token, and the rest. -/
def Authentic (bytes rest : Bytes) : Prop :=
  ∃ payload candidate, bytes = frameBytes payload ++ rest ∧ payload.length ≤ maxIpcFrameLen ∧
    decodePayload parse payload = .ok (.authenticate ipcProtocolVersion candidate) ∧
    Postcard.utf8 candidate = hexEncode random.toList

/-- **Only the holder of the token gets through.** Whatever a client sends and the streams do: if it is
authenticated, or the sending half is used at all, then its first frame was an authentication of this
version with the token, and the loop will read on right behind it. A client that does this on a stream
that does not fail is greeted, and gets through if the greeting does. -/
theorem local_client_gate [Tape R] (recv : R) (send : S) :
    let result := authenticate escape parse (.generate random) recv send
    (result.1 = .ok () ∨ result.2.2 ≠ send →
      Authentic random parse (Tape.ahead recv) (Tape.ahead result.2.1)) ∧
    (Flows recv → ∀ rest, Authentic random parse (Tape.ahead recv) rest →
      let greeted := writeJsonFrame escape (.authenticated ipcProtocolVersion) send
      Tape.ahead result.2.1 = rest ∧ result.2.2 = greeted.2 ∧
        (result.1 = .ok () ↔ greeted.1 = .ok ())) := by
  intro result
  constructor
  · intro h
    rcases hr : readFrame maxIpcFrameLen recv with ⟨fault | payload, recv'⟩ <;>
      simp only [result, authenticate, hr] at h ⊢
    · simp at h
    obtain ⟨hd, hlen⟩ := readFrame_delivers hr
    rcases hp : decodePayload parse payload with e | ⟨version, candidate⟩ | ⟨id, request⟩ <;>
      simp only [hp] at h ⊢
    · simp at h
    · by_cases hbad : version ≠ ipcProtocolVersion ∨
        (AuthToken.generate random).matchesText candidate = false
      · simp [if_pos hbad] at h
      · rw [if_neg hbad]
        rw [not_or, not_not, Bool.not_eq_false, AuthToken.matchesText_iff] at hbad
        exact ⟨payload, candidate, Tape.ahead_delivers hd, hlen, hbad.1 ▸ hp, hbad.2⟩
    · simp at h
  · rintro hf rest ⟨payload, candidate, hahead, hlen, hp, htoken⟩
    obtain ⟨hr, hrest, -⟩ := readFrame_frame (by decide) hf hlen hahead
    rw [← AuthToken.matchesText_iff] at htoken
    rcases hread : readFrame maxIpcFrameLen recv with ⟨got, recv'⟩
    rw [hread] at hr hrest
    cases hr
    simp only [result, authenticate, hread, hp, htoken, ne_eq, not_true_eq_false, Bool.true_eq_false,
      or_self, if_false]
    refine ⟨hrest, trivial, ?_⟩
    cases (writeJsonFrame escape (.authenticated ipcProtocolVersion) send).1 <;> simp [Except.mapError]

end Rift.Ipc
