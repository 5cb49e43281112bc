import Rift.Lib.AsyncIo
import Rift.Lib.Framing

/-! # Frames over streams

A frame is read in two exact reads: its length, and as many bytes as that says. What was read ahead of
a stream is put in front of it again (`Chain`). A writer takes a buffer in as many steps as it likes.

The main results are `readFrame_frame`, `readFrame_rest`, `readFrame_within` and
`writeAll_absorbs`. -/

namespace Rift.Lib

open Framing

/-! ### Exact reads -/

theorem Flows.of_reads {R : Type} [AsyncRead R] {r r' : R} (h : Flows r) (hr : Reads r r') :
    Flows r' :=
  fun _ hr' => h (hr.trans hr')

theorem readExact_reads {R : Type} [AsyncRead R] (n : ℕ) : ∀ r : R, Reads r (readExact n r).2 := by
  induction n using Nat.strongRecOn with
  | ind n ih =>
    intro r
    unfold readExact
    by_cases hz : n = 0
    · rw [dif_pos hz]
      exact .refl
    · rw [dif_neg hz]
      rcases hb : (AsyncRead.read n r).1 with e | b
      · exact Reads.once n r
      · by_cases hnil : b = []
        · simp only [dif_pos hnil]
          exact Reads.once n r
        · simp only [dif_neg hnil]
          have := List.length_pos_of_ne_nil hnil
          exact (Reads.once n r).trans (ih (n - b.length) (by omega) _)

section Exact

variable {R : Type} [Tape R] {r : R} {n : ℕ}

open Tape

theorem readExact_ok (hf : Flows r) (h : n ≤ (ahead r).length) :
    ∃ r', readExact n r = (.ok ((ahead r).take n), r') ∧ ahead r' = (ahead r).drop n ∧ Flows r' := by
  obtain ⟨hflows, hfull, -⟩ := readExact_flows n hf
  obtain ⟨hok, hrest⟩ := hfull h
  exact ⟨_, Prod.ext hok rfl, hrest, hflows⟩

theorem readExact_short (hf : Flows r) (h : (ahead r).length < n) :
    ∃ r', readExact n r = (.error .unexpectedEof, r') :=
  ⟨_, Prod.ext ((readExact_flows n hf).2.2 h) rfl⟩

theorem readExact_within (n : ℕ) : ∀ {r : R}, Flows r →
    ∃ k ≤ n, ahead (readExact n r).2 = (ahead r).drop k := by
  induction n using Nat.strongRecOn with
  | ind n ih =>
    intro r hf
    obtain ⟨b, hb⟩ := hf .refl n
    have hahead := ahead_read hb
    have hle := AsyncRead.length_read_le hb
    unfold readExact
    by_cases hz : n = 0
    · simp only [dif_pos hz]
      exact ⟨0, Nat.zero_le _, rfl⟩
    · by_cases hnil : b = []
      · simp only [hz, hb, hnil, dif_pos, dif_neg, not_false_eq_true]
        exact ⟨0, Nat.zero_le _, by rw [List.drop_zero, hahead, hnil, List.nil_append]⟩
      · have hpos := List.length_pos_of_ne_nil hnil
        obtain ⟨k, hk, hrest⟩ := ih (n - b.length) (by omega) (hf.read n)
        simp only [hz, hb, hnil, dif_neg, not_false_eq_true]
        refine ⟨b.length + k, by omega, ?_⟩
        have hdrop : (ahead r).drop (b.length + k) = (ahead (AsyncRead.read n r).2).drop k := by
          rw [congrArg (List.drop (b.length + k)) hahead, List.drop_append,
            List.drop_of_length_le (by omega), List.nil_append, Nat.add_sub_cancel_left]
        rw [hrest, hdrop]

end Exact

/-! ### Frames -/

/-- How the read of a frame fails. -/
inductive FrameFault
  | length (error : ReadExactError)
  | tooLarge (declared : ℕ)
  | payload (error : ReadExactError)
  deriving DecidableEq

/-- Reads the payload of one frame of at most `limit` bytes. -/
def readFrame {R : Type} [AsyncRead R] (limit : ℕ) (r : R) : Except FrameFault Bytes × R :=
  match readExact lengthLen r with
  | (.error e, r) => (.error (.length e), r)
  | (.ok lengthBytes, r) =>
    if limit < ofBE lengthBytes then (.error (.tooLarge (ofBE lengthBytes)), r)
    else
      let (result, r) := readExact (ofBE lengthBytes) r
      (result.mapError .payload, r)

theorem readFrame_reads {R : Type} [AsyncRead R] (limit : ℕ) (r : R) :
    Reads r (readFrame limit r).2 := by
  have h₁ := readExact_reads lengthLen r
  unfold readFrame
  rcases hr : readExact lengthLen r with ⟨e | lengthBytes, r₁⟩ <;> rw [hr] at h₁
  · exact h₁
  · by_cases hlarge : limit < ofBE lengthBytes
    · simp only [if_pos hlarge]
      exact h₁
    · simp only [if_neg hlarge]
      exact h₁.trans (readExact_reads _ _)

section Frames

variable {R : Type} [Tape R] {r : R} {limit : ℕ} {payload : Bytes}

open Tape

theorem readFrame_frame (hlimit : limit < 256 ^ lengthLen) (hf : Flows r)
    (hsize : payload.length ≤ limit) {rest : Bytes} (h : ahead r = frameBytes payload ++ rest) :
    (readFrame limit r).1 = .ok payload ∧ ahead (readFrame limit r).2 = rest ∧
      Flows (readFrame limit r).2 := by
  have hdeclared : ofBE ((ahead r).take lengthLen) = payload.length := by
    rw [h]
    exact ofBE_take_frameBytes (by omega) rest
  have hlen : (ahead r).length = lengthLen + payload.length + rest.length := by
    rw [h, List.length_append, length_frameBytes]
  obtain ⟨r₁, hr₁, hrest₁, hflows₁⟩ := readExact_ok hf (n := lengthLen) (by omega)
  have hbehind : ahead r₁ = payload ++ rest := by
    rw [hrest₁, h, frameBytes, List.append_assoc, List.drop_left' (length_toBE ..)]
  obtain ⟨r₂, hr₂, hrest₂, hflows₂⟩ := readExact_ok hflows₁ (n := payload.length)
    (by rw [hbehind, List.length_append]; omega)
  unfold readFrame
  simp only [hr₁, hdeclared, if_neg (Nat.not_lt.mpr hsize), hr₂]
  refine ⟨?_, ?_, hflows₂⟩
  · rw [hbehind, List.take_left]
    rfl
  · rw [hrest₂, hbehind, List.drop_left]

theorem readFrame_rest (hf : Flows r) (h : (readFrame limit r).1 = .ok payload) :
    payload.length ≤ limit ∧ ahead r = frameBytes payload ++ ahead (readFrame limit r).2 := by
  unfold readFrame at h ⊢
  rcases Nat.lt_or_ge (ahead r).length lengthLen with hlt | hge
  · obtain ⟨r₁, hr₁⟩ := readExact_short hf hlt
    simp only [hr₁] at h
    cases h
  · obtain ⟨r₁, hr₁, hrest₁, hflows⟩ := readExact_ok hf hge
    simp only [hr₁] at h ⊢
    by_cases hlarge : limit < ofBE ((ahead r).take lengthLen)
    · simp only [if_pos hlarge] at h
      cases h
    · simp only [if_neg hlarge] at h ⊢
      rcases Nat.lt_or_ge (ahead r₁).length (ofBE ((ahead r).take lengthLen)) with hlt | hge₁
      · obtain ⟨r₂, hr₂⟩ := readExact_short hflows hlt
        simp only [hr₂] at h
        cases h
      · obtain ⟨r₂, hr₂, hrest₂, -⟩ := readExact_ok hflows hge₁
        simp only [hr₂] at h ⊢
        have h := Except.ok.inj h
        have hlen : payload.length = ofBE ((ahead r).take lengthLen) := by
          rw [← h, List.length_take, min_eq_left hge₁]
        refine ⟨by omega, ?_⟩
        rw [frameBytes_eq (by rw [List.length_take, min_eq_left hge]) hlen, ← h, hrest₂,
          List.append_assoc, List.take_append_drop, hrest₁, List.take_append_drop]

/-- However the read of a frame ends, it took no more than a length and the payload it declares, and
only the length if that says too much. -/
theorem readFrame_within (hf : Flows r) :
    Flows (readFrame limit r).2 ∧ ∃ k, ahead (readFrame limit r).2 = (ahead r).drop k ∧
      k ≤ lengthLen + ofBE ((ahead r).take lengthLen) ∧
      (limit < ofBE ((ahead r).take lengthLen) → k ≤ lengthLen) := by
  have hflows := (readExact_flows lengthLen hf).1
  obtain ⟨k, hk, hrest⟩ := readExact_within lengthLen hf
  unfold readFrame
  rcases Nat.lt_or_ge (ahead r).length lengthLen with hlt | hge
  · obtain ⟨r₁, hr₁⟩ := readExact_short hf hlt
    simp only [hr₁] at hflows hrest ⊢
    exact ⟨hflows, k, hrest, by omega, fun _ => hk⟩
  · obtain ⟨r₁, hr₁, hrest₁, -⟩ := readExact_ok hf hge
    simp only [hr₁] at hflows ⊢
    by_cases hlarge : limit < ofBE ((ahead r).take lengthLen)
    · simp only [if_pos hlarge]
      exact ⟨hflows, lengthLen, hrest₁, by omega, fun _ => Nat.le_refl _⟩
    · simp only [if_neg hlarge]
      have hflows₂ := (readExact_flows (ofBE ((ahead r).take lengthLen)) hflows).1
      obtain ⟨j, hj, hrest₂⟩ := readExact_within (ofBE ((ahead r).take lengthLen)) hflows
      have hrest : ahead (readExact (ofBE ((ahead r).take lengthLen)) r₁).2 =
          (ahead r).drop (lengthLen + j) := by rw [hrest₂, hrest₁, List.drop_drop]
      exact ⟨hflows₂, lengthLen + j, hrest, by omega, fun h => absurd h hlarge⟩

end Frames

/-! ### Reading what was read ahead -/

/-- A reader behind bytes that were already taken off it. A read into no room, which no exact read
makes, gives nothing. -/
structure Chain (R : Type) where
  first : Bytes
  second : R

namespace Chain

variable {R : Type}

instance [AsyncRead R] : AsyncRead (Chain R) where
  read n c :=
    if c.first.take n = [] ∧ n ≠ 0 then
      ((AsyncRead.read n c.second).1, ⟨[], (AsyncRead.read n c.second).2⟩)
    else (.ok (c.first.take n), ⟨c.first.drop n, c.second⟩)
  length_read_le {n c b} h := by
    split_ifs at h with hc
    · exact AsyncRead.length_read_le h
    · rw [Except.ok.injEq] at h
      rw [← h, List.length_take]
      omega

theorem read_second [AsyncRead R] {n : ℕ} (hn : n ≠ 0) (r : R) :
    AsyncRead.read n (⟨[], r⟩ : Chain R) =
      ((AsyncRead.read n r).1, ⟨[], (AsyncRead.read n r).2⟩) :=
  if_pos ⟨List.take_nil, hn⟩

theorem read_first [AsyncRead R] {n : ℕ} {c : Chain R} (h : c.first ≠ [] ∨ n = 0) :
    AsyncRead.read n c = (.ok (c.first.take n), ⟨c.first.drop n, c.second⟩) := by
  refine if_neg ?_
  rintro ⟨htake, hn⟩
  rcases h with h | h
  · rcases List.take_eq_nil_iff.mp htake with h' | h'
    · exact hn h'
    · exact h h'
  · exact hn h

instance [Tape R] : Tape (Chain R) where
  ahead c := c.first ++ Tape.ahead c.second
  ahead_read {n c b} h := by
    rcases c with ⟨first, second⟩
    by_cases hc : first ≠ [] ∨ n = 0
    · rw [read_first hc, Except.ok.injEq] at h
      rw [read_first hc, ← h, ← List.append_assoc, List.take_append_drop]
    · obtain ⟨hnil, hn⟩ := not_or.mp hc
      obtain rfl := not_not.mp hnil
      rw [read_second hn] at h ⊢
      exact Tape.ahead_read h
  ahead_end {n c} hn h := by
    rcases c with ⟨first, second⟩
    by_cases hc : first = []
    · subst hc
      rw [read_second (by omega)] at h
      exact Tape.ahead_end hn h
    · rw [read_first (.inl hc), Except.ok.injEq, List.take_eq_nil_iff] at h
      rcases h with h | h
      · omega
      · exact absurd h hc

@[simp] theorem ahead_mk [Tape R] (first : Bytes) (second : R) :
    Tape.ahead (⟨first, second⟩ : Chain R) = first ++ Tape.ahead second := rfl

theorem reads_behind [AsyncRead R] {c c' : Chain R} (h : Reads c c') :
    Reads c.second c'.second := by
  refine h.keeps (P := fun c' : Chain R => Reads c.second c'.second) (fun n c' hc => ?_) .refl
  rcases c' with ⟨first, second⟩
  by_cases hcase : first ≠ [] ∨ n = 0
  · rw [read_first hcase]
    exact hc
  · obtain ⟨hnil, hn⟩ := not_or.mp hcase
    obtain rfl := not_not.mp hnil
    rw [read_second hn]
    exact hc.trans (Reads.once n second)

theorem flows [AsyncRead R] {c : Chain R} (h : Flows c.second) : Flows c := by
  intro c' hc n
  have hkeeps : Flows c'.second := h.of_reads (reads_behind hc)
  rcases c' with ⟨first, second⟩
  by_cases hcase : first ≠ [] ∨ n = 0
  · exact ⟨_, by rw [read_first hcase]⟩
  · obtain ⟨hnil, hn⟩ := not_or.mp hcase
    obtain rfl := not_not.mp hnil
    rw [read_second hn]
    exact hkeeps .refl n

theorem reads_second [AsyncRead R] {c c' : Chain R} (h : Reads c c') (hc : c.first = []) :
    c'.first = [] := by
  refine h.keeps (P := fun c : Chain R => c.first = []) (fun n c hc => ?_) hc
  rcases c with ⟨first, second⟩
  obtain rfl : first = [] := hc
  by_cases hn : n = 0
  · rw [read_first (.inr hn)]
    exact List.drop_nil
  · rw [read_second hn]

theorem first_readExact [AsyncRead R] {n : ℕ} {c : Chain R} (h : c.first.length ≤ n) :
    (readExact n c).2.first = [] := by
  by_cases hc : c.first = []
  · exact reads_second (readExact_reads n c) hc
  · have hn : n ≠ 0 := by
      have := List.length_pos_of_ne_nil hc
      omega
    have htake : c.first.take n = c.first := List.take_of_length_le h
    unfold readExact
    simp only [hn, dif_neg, not_false_eq_true, read_first (.inl hc), htake, hc]
    exact reads_second (readExact_reads _ _) (List.drop_of_length_le h)

theorem first_readFrame [AsyncRead R] {limit : ℕ} {c : Chain R} (h : c.first.length ≤ lengthLen) :
    (readFrame limit c).2.first = [] := by
  have h₁ := first_readExact h
  unfold readFrame
  rcases hr : readExact lengthLen c with ⟨e | lengthBytes, c₁⟩ <;> rw [hr] at h₁
  · exact h₁
  · by_cases hlarge : limit < ofBE lengthBytes
    · simp only [if_pos hlarge]
      exact h₁
    · simp only [if_neg hlarge]
      exact reads_second (readExact_reads _ _) h₁

end Chain

/-! ### Writing all of a buffer -/

section Writing

variable {W : Type}

/-- Writes until all bytes are taken; a writer that takes none of them has failed. -/
def writeAll [AsyncWrite W] (bytes : Bytes) (w : W) : Except StepError Unit × W :=
  if _h : bytes = [] then (.ok (), w)
  else
    match (AsyncWrite.write bytes w).1 with
    | .error e => (.error e, (AsyncWrite.write bytes w).2)
    | .ok count =>
      if _hc : count = 0 then (.error (.failed .writeZero), (AsyncWrite.write bytes w).2)
      else writeAll (bytes.drop count) (AsyncWrite.write bytes w).2
termination_by bytes.length
decreasing_by
  have := List.length_pos_of_ne_nil _h
  rw [List.length_drop]
  omega

/-- The second state follows from the first by writes. -/
def Writes [AsyncWrite W] : W → W → Prop :=
  Relation.ReflTransGen fun w w' => ∃ b, w' = (AsyncWrite.write b w).2

/-- No write of some bytes fails from here on, nor takes none of them. -/
def Absorbs [AsyncWrite W] (w : W) : Prop :=
  ∀ ⦃w' : W⦄, Writes w w' → ∀ b, b ≠ [] → ∃ n, n ≠ 0 ∧ (AsyncWrite.write b w').1 = .ok n

theorem Absorbs.write [AsyncWrite W] {w : W} (h : Absorbs w) (b : Bytes) :
    Absorbs (AsyncWrite.write b w).2 :=
  fun _ hw => h ((Relation.ReflTransGen.single ⟨b, rfl⟩).trans hw)

/-- **A writer that does not fail has taken the buffer.** -/
theorem writeAll_absorbs [Sink W] (bytes : Bytes) : ∀ {w : W}, Absorbs w → Sink.ready w →
    (writeAll bytes w).1 = .ok () ∧ Absorbs (writeAll bytes w).2 ∧ Sink.ready (writeAll bytes w).2 ∧
      Sink.taken (writeAll bytes w).2 = Sink.taken w ++ bytes := by
  induction hn : bytes.length using Nat.strongRecOn generalizing bytes with
  | ind n ih =>
    subst hn
    intro w habs hready
    unfold writeAll
    by_cases hb : bytes = []
    · rw [dif_pos hb]
      exact ⟨rfl, habs, hready, by rw [hb, List.append_nil]⟩
    · obtain ⟨count, hcount, hok⟩ := habs .refl bytes hb
      obtain ⟨hready', hle, htaken⟩ := Sink.of_ok hready (Prod.ext hok rfl)
      have hpos := List.length_pos_of_ne_nil hb
      obtain ⟨hres, habs', hready'', htaken'⟩ := ih _ (by rw [List.length_drop]; omega)
        (bytes.drop count) rfl (habs.write bytes) hready'
      simp only [hb, hok, hcount, dif_neg, not_false_eq_true]
      refine ⟨hres, habs', hready'', ?_⟩
      rw [htaken', htaken, List.append_assoc, List.take_append_drop]

end Writing

theorem ScriptedFile.Calm.absorbs {f : ScriptedFile} (h : f.Calm) : Absorbs f := by
  intro g hg b hb
  have hcalm : g.Calm := by
    induction hg with
    | refl => exact h
    | tail _ hstep ih =>
      obtain ⟨b, rfl⟩ := hstep
      refine ih.tail ?_
      change (ScriptedFile.write b _).2.script = _
      unfold ScriptedFile.write
      rename_i f' _
      cases f'.next b.length <;> rfl
  obtain ⟨k, g', hw, -, hk⟩ := hcalm.write hb
  exact ⟨k, hk, by rw [hw]⟩

end Rift.Lib
