import Rift.Lib.Bytes

/-! # Reading length-prefixed frames in chunks

A frame is a payload behind its length, four bytes big-endian. A reader takes it off a stream in
chunks of any size: first the length, then a payload of that length into a buffer, never more than
the buffer has room for. `Reading` is what it holds in between, and `accept` what one chunk makes of
it.

Main result: `Reading.accept_inside`, a reader inside a frame that fits the limit stays inside it
until the chunk that ends the frame, and then gives its payload. -/

namespace Rift.Lib.Framing

/-- The number of bytes a length takes. -/
def lengthLen : ℕ := 4

/-- What a read of one frame holds: bytes of the length, or the length and bytes of the payload. -/
inductive Reading
  | length (got : Bytes)
  | payload (declared : ℕ) (got : Bytes)
  deriving DecidableEq

/-- What a chunk makes of a read. -/
inductive Outcome
  | pending (reading : Reading)
  | tooLarge (declared : ℕ)
  | frame (payload : Bytes)
  deriving DecidableEq

/-- A payload behind its length. -/
def frameBytes (payload : Bytes) : Bytes := toBE lengthLen payload.length ++ payload

theorem frameBytes_ne_nil (payload : Bytes) : frameBytes payload ≠ [] := by
  intro h
  have := congrArg List.length h
  simp [frameBytes, lengthLen] at this

theorem frameBytes_eq {lengthBytes payload : Bytes} (hl : lengthBytes.length = lengthLen)
    (h : payload.length = ofBE lengthBytes) : frameBytes payload = lengthBytes ++ payload := by
  unfold frameBytes
  rw [h, ← hl, toBE_ofBE]

theorem ofBE_take_frameBytes {payload : Bytes} (h : payload.length < 256 ^ lengthLen)
    (rest : Bytes) : ofBE ((frameBytes payload ++ rest).take lengthLen) = payload.length := by
  unfold frameBytes
  rw [List.append_assoc, List.take_left' (length_toBE ..)]
  exact ofBE_toBE h

@[simp] theorem length_frameBytes (payload : Bytes) :
    (frameBytes payload).length = lengthLen + payload.length := by
  rw [frameBytes, List.length_append, length_toBE]

namespace Reading

/-- A read that has consumed nothing. -/
def start : Reading := .length []

/-- The room that is left in the buffer the read fills. -/
def need : Reading → ℕ
  | .length got => lengthLen - got.length
  | .payload declared got => declared - got.length

/-- One chunk read into the buffer. A payload of no bytes needs no chunk. -/
def accept (limit : ℕ) : Reading → Bytes → Outcome
  | .length got, chunk =>
    if (got ++ chunk).length < lengthLen then .pending (.length (got ++ chunk))
    else if limit < ofBE (got ++ chunk) then .tooLarge (ofBE (got ++ chunk))
    else if ofBE (got ++ chunk) = 0 then .frame []
    else .pending (.payload (ofBE (got ++ chunk)) [])
  | .payload declared got, chunk =>
    if (got ++ chunk).length < declared then .pending (.payload declared (got ++ chunk))
    else .frame (got ++ chunk)

/-- The read has consumed the frame of `payload` up to the bytes `left`, of which there are some. -/
def Inside (payload left : Bytes) : Reading → Prop
  | .length got => got.length < lengthLen ∧ got ++ left = frameBytes payload
  | .payload declared got => declared = payload.length ∧ left ≠ [] ∧ got ++ left = payload

theorem start_inside (payload : Bytes) : start.Inside payload (frameBytes payload) :=
  ⟨by decide, List.nil_append _⟩

theorem Inside.left_ne_nil {payload left : Bytes} {r : Reading} (h : r.Inside payload left) :
    left ≠ [] := by
  rintro rfl
  cases r with
  | length got =>
    obtain ⟨hlt, he⟩ := h
    have := congrArg List.length he
    rw [frameBytes, List.length_append, List.length_append, length_toBE, List.length_nil] at this
    omega
  | payload declared got => exact h.2.1 rfl

theorem Inside.need_le {payload left : Bytes} {r : Reading} (h : r.Inside payload left) :
    r.need ≤ left.length := by
  cases r with
  | length got =>
    have := congrArg List.length h.2
    rw [frameBytes, List.length_append, List.length_append, length_toBE] at this
    show lengthLen - got.length ≤ left.length
    omega
  | payload declared got =>
    have := congrArg List.length h.2.2
    rw [List.length_append] at this
    show declared - got.length ≤ left.length
    rw [h.1]
    omega

theorem full_length {payload got left : Bytes} (hlen : got.length = lengthLen)
    (h : got ++ left = frameBytes payload) :
    got = toBE lengthLen payload.length ∧ left = payload := by
  unfold frameBytes at h
  exact List.append_inj h (by rw [hlen, length_toBE])

/-- **One chunk inside a frame.** -/
theorem accept_inside {limit : ℕ} (hlimit : limit < 256 ^ lengthLen) {payload : Bytes}
    (hfits : payload.length ≤ limit) {r : Reading} {chunk left : Bytes}
    (h : r.Inside payload (chunk ++ left)) (hroom : chunk.length ≤ r.need) :
    (r.accept limit chunk = .frame payload ∧ left = []) ∨
      ∃ r', r.accept limit chunk = .pending r' ∧ r'.Inside payload left := by
  cases r with
  | length got =>
    obtain ⟨hlt, he⟩ := h
    rw [← List.append_assoc] at he
    have hroom' : chunk.length ≤ lengthLen - got.length := hroom
    rw [accept]
    by_cases hshort : (got ++ chunk).length < lengthLen
    · rw [if_pos hshort]
      exact Or.inr ⟨_, rfl, hshort, he⟩
    · have hfull : (got ++ chunk).length = lengthLen := by
        rw [List.length_append] at hshort ⊢
        omega
      obtain ⟨hgot, rfl⟩ := full_length hfull he
      have hdecl : ofBE (got ++ chunk) = left.length := by
        rw [hgot]
        exact ofBE_toBE (lt_of_le_of_lt hfits hlimit)
      rw [if_neg hshort, hdecl, if_neg (by omega)]
      by_cases hzero : left.length = 0
      · have hnil := List.length_eq_zero_iff.mp hzero
        rw [if_pos hzero, hnil]
        exact Or.inl ⟨rfl, rfl⟩
      · rw [if_neg hzero]
        exact Or.inr ⟨_, rfl, rfl, fun hnil => hzero (by rw [hnil]; rfl), rfl⟩
  | payload declared got =>
    obtain ⟨rfl, -, he⟩ := h
    rw [← List.append_assoc] at he
    have hlen := congrArg List.length he
    rw [List.length_append] at hlen
    rw [accept]
    by_cases hshort : (got ++ chunk).length < payload.length
    · rw [if_pos hshort]
      refine Or.inr ⟨_, rfl, rfl, fun hnil => ?_, he⟩
      rw [hnil, List.length_nil] at hlen
      omega
    · have hnil : left = [] := List.length_eq_zero_iff.mp (by omega)
      rw [if_neg hshort, hnil]
      rw [hnil, List.append_nil] at he
      exact Or.inl ⟨by rw [he], rfl⟩

end Reading

end Rift.Lib.Framing
