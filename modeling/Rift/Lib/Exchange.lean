import Rift.Lib.FrameIo

/-! # What was read and what was written

A read that succeeds has been handed its bytes, and a write has stored a beginning of what it was
given, also where the stream fails later or has failed before.

The main results are `readFrame_delivers` and `writeAll_taken`. -/

namespace Rift.Lib

open Framing

section Reading

variable {R : Type} [AsyncRead R]

theorem readExact_delivers (n : ℕ) : ∀ {r r' : R} {b : Bytes}, readExact n r = (.ok b, r') →
    Delivers r b r' ∧ b.length = n := by
  induction n using Nat.strongRecOn with
  | ind n ih =>
    intro r r' b h
    unfold readExact at h
    by_cases hz : n = 0
    · rw [dif_pos hz] at h
      cases h
      exact ⟨.refl r, hz.symm⟩
    · rw [dif_neg hz] at h
      rcases hx : (AsyncRead.read n r).1 with e | x
      · simp only [hx] at h
        cases h
      · simp only [hx] at h
        by_cases hnil : x = []
        · rw [dif_pos hnil] at h
          cases h
        · rw [dif_neg hnil] at h
          have hle := AsyncRead.length_read_le hx
          have hpos := List.length_pos_of_ne_nil hnil
          rcases hrest : readExact (n - x.length) (AsyncRead.read n r).2 with ⟨e | y, r₁⟩
          · simp only [hrest] at h
            cases h
          · simp only [hrest] at h
            cases h
            obtain ⟨hd, hlen⟩ := ih _ (by omega) hrest
            refine ⟨.read hx hd, ?_⟩
            rw [List.length_append]
            omega

/-- **A frame that was read was handed out as a whole.** -/
theorem readFrame_delivers {limit : ℕ} {r r' : R} {payload : Bytes}
    (h : readFrame limit r = (.ok payload, r')) :
    Delivers r (frameBytes payload) r' ∧ payload.length ≤ limit := by
  unfold readFrame at h
  rcases hl : readExact lengthLen r with ⟨e | lengthBytes, r₁⟩
  · simp only [hl] at h
    cases h
  · simp only [hl] at h
    by_cases hlarge : limit < ofBE lengthBytes
    · rw [if_pos hlarge] at h
      cases h
    · rw [if_neg hlarge] at h
      rcases hp : readExact (ofBE lengthBytes) r₁ with ⟨e | b, r₂⟩
      · simp only [hp] at h
        cases h
      · simp only [hp] at h
        cases h
        obtain ⟨hd₁, hlen₁⟩ := readExact_delivers _ hl
        obtain ⟨hd₂, hlen₂⟩ := readExact_delivers _ hp
        rw [frameBytes_eq hlen₁ hlen₂]
        exact ⟨hd₁.trans hd₂, by omega⟩

end Reading

/-- **How much of a buffer a writer has**, however writing it ended. -/
theorem writeAll_taken {W : Type} [Sink W] (bytes : Bytes) : ∀ {w : W}, Sink.ready w →
    Sink.ready (writeAll bytes w).2 ∧ ∃ y, y <+: bytes ∧
      Sink.taken (writeAll bytes w).2 = Sink.taken w ++ y ∧
      ((writeAll bytes w).1 = .ok () → y = bytes) := by
  induction hn : bytes.length using Nat.strongRecOn generalizing bytes with
  | ind n ih =>
    subst hn
    intro w hready
    unfold writeAll
    by_cases hb : bytes = []
    · rw [dif_pos hb]
      exact ⟨hready, [], List.nil_prefix, (List.append_nil _).symm, fun _ => hb.symm⟩
    · rw [dif_neg hb]
      have hready' : Sink.ready (AsyncWrite.write bytes w).2 := Sink.ready_write hready
      rcases hw : (AsyncWrite.write bytes w).1 with e | count
      · obtain ⟨y, hy, htaken⟩ := Sink.of_error hready (Prod.ext hw rfl)
        exact ⟨hready', y, hy, htaken, fun h => by cases h⟩
      · obtain ⟨-, hle, htaken⟩ := Sink.of_ok hready (Prod.ext hw rfl)
        by_cases hzero : count = 0
        · simp only [dif_pos hzero]
          exact ⟨hready', _, List.take_prefix count bytes, htaken, fun h => by cases h⟩
        · simp only [dif_neg hzero]
          have hpos := List.length_pos_of_ne_nil hb
          obtain ⟨hr, y, ⟨rest, hy⟩, ht, hok⟩ :=
            ih _ (by rw [List.length_drop]; omega) (bytes.drop count) rfl hready'
          refine ⟨hr, bytes.take count ++ y, ⟨rest, ?_⟩, ?_, fun h => ?_⟩
          · rw [List.append_assoc, hy, List.take_append_drop]
          · rw [ht, htaken, List.append_assoc]
          · rw [hok h, List.take_append_drop]

end Rift.Lib
