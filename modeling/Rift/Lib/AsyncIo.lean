import Mathlib
import Rift.Lib.Bytes

/-! # Reading and writing in steps

A reader hands out bytes in pieces of its own choice, a writer takes them in pieces of its own choice,
and each step of either can fail instead. Programs over them are generic (`AsyncRead`, `AsyncSeek`,
`AsyncWrite`).

* `Delivers` is what any reader has handed out between two of its states. A reader with a fixed
  content (`Tape`) hands out that content, in order.
* A reader that does not fail (`Flows`) fills buffers of an exact size (`readExact`), however it
  splits its content into pieces.
* A writer that appends (`Sink`) has taken a beginning of what it was given, also when it failed.
* `ScriptedFile` is a file of both kinds, whose steps go as a script says; what holds for every script
  holds for all pieces and all failures.
* A `Hasher` digests pieces; it has seen their concatenation (`Hasher.Fed`). -/

namespace Rift.Lib

/-! ### Steps -/

/-- The kind of an error of the platform. -/
inductive ErrorKind
  | writeZero
  | other (code : ℕ)
  deriving DecidableEq

/-- How a step ends that does not end in a result. -/
inductive StepError
  | cancelled
  | idleTimeout
  | failed (kind : ErrorKind)
  deriving DecidableEq

/-- A step on a state: its result, and the state after it. -/
abbrev IoStep (S α : Type) := S → Except StepError α × S

/-- Where a seek goes. -/
inductive SeekFrom
  | start
  | ending
  deriving DecidableEq

/-- A reader: gives at most as many bytes as it is asked for; none mean that its content ended. -/
class AsyncRead (S : Type) where
  read : ℕ → IoStep S Bytes
  length_read_le : ∀ {n : ℕ} {s : S} {b : Bytes}, (read n s).1 = .ok b → b.length ≤ n

/-- A position that can be moved to the first byte or behind the last one. -/
class AsyncSeek (S : Type) where
  seek : SeekFrom → IoStep S ℕ

/-- A writer: takes a number of the bytes that it is given, from their beginning. -/
class AsyncWrite (W : Type) where
  write : Bytes → IoStep W ℕ
  flush : IoStep W Unit
  write_le : ∀ {b : Bytes} {w : W} {n : ℕ}, (write b w).1 = .ok n → n ≤ b.length

/-! ### What readers hand out -/

section Delivers

variable {R : Type} [AsyncRead R]

/-- Between the two states the reader handed out these bytes. -/
inductive Delivers : R → Bytes → R → Prop
  | refl (r : R) : Delivers r [] r
  | read {r : R} {n : ℕ} {b x : Bytes} {r' : R} (h : (AsyncRead.read n r).1 = .ok b)
      (rest : Delivers (AsyncRead.read n r).2 x r') : Delivers r (b ++ x) r'

/-- The second state follows from the first by reads, those that fail included. -/
def Reads : R → R → Prop := Relation.ReflTransGen fun r r' => ∃ n, r' = (AsyncRead.read n r).2

theorem Reads.once (n : ℕ) (r : R) : Reads r (AsyncRead.read n r).2 := .single ⟨n, rfl⟩

theorem Reads.keeps {P : R → Prop} (hP : ∀ n r, P r → P (AsyncRead.read n r).2) {r r' : R}
    (h : Reads r r') (hr : P r) : P r' := by
  induction h with
  | refl => exact hr
  | tail _ hstep ih =>
    obtain ⟨n, rfl⟩ := hstep
    exact hP n _ ih

theorem Delivers.trans {r r' r'' : R} {x y : Bytes} (h : Delivers r x r') (h' : Delivers r' y r'') :
    Delivers r (x ++ y) r'' := by
  induction h with
  | refl r => exact h'
  | read hr _ ih =>
    rw [List.append_assoc]
    exact .read hr (ih h')

theorem Delivers.reads {r r' : R} {x : Bytes} (h : Delivers r x r') : Reads r r' := by
  induction h with
  | refl r => exact .refl
  | read _ _ ih => exact (Reads.once _ _).trans ih

/-- A reader with a fixed content hands it out in order, and stops only where it ends. -/
class Tape (R : Type) extends AsyncRead R where
  ahead : R → Bytes
  ahead_read : ∀ {n : ℕ} {r : R} {b : Bytes}, (read n r).1 = .ok b →
    ahead r = b ++ ahead (read n r).2
  ahead_end : ∀ {n : ℕ} {r : R}, 0 < n → (read n r).1 = .ok [] → ahead r = []

theorem Tape.ahead_delivers {R : Type} [Tape R] {r r' : R} {x : Bytes} (h : Delivers r x r') :
    Tape.ahead r = x ++ Tape.ahead r' := by
  induction h with
  | refl r => rfl
  | read h _ ih => rw [Tape.ahead_read h, ih, List.append_assoc]

/-- No read from here on fails. -/
def Flows (r : R) : Prop := ∀ ⦃r' : R⦄, Reads r r' → ∀ n, ∃ b, (AsyncRead.read n r').1 = .ok b

theorem Flows.read {r : R} (h : Flows r) (n : ℕ) : Flows (AsyncRead.read n r).2 :=
  fun _ hr => h ((Reads.once n r).trans hr)

/-! ### Reading an exact number of bytes -/

/-- How a read of an exact number of bytes fails. -/
inductive ReadExactError
  | unexpectedEof
  | step (error : StepError)
  deriving DecidableEq

/-- Reads until the buffer of `need` bytes is full. -/
def readExact (need : ℕ) (r : R) : Except ReadExactError Bytes × R :=
  if _h : need = 0 then (.ok [], r)
  else
    match (AsyncRead.read need r).1 with
    | .error e => (.error (.step e), (AsyncRead.read need r).2)
    | .ok b =>
      if _hb : b = [] then (.error .unexpectedEof, (AsyncRead.read need r).2)
      else
        let (result, r') := readExact (need - b.length) (AsyncRead.read need r).2
        (result.map (b ++ ·), r')
termination_by need
decreasing_by
  have := List.length_pos_of_ne_nil _hb
  omega

theorem readExact_flows {R : Type} [Tape R] (need : ℕ) : ∀ {r : R}, Flows r →
    Flows (readExact need r).2 ∧
      (need ≤ (Tape.ahead r).length →
        (readExact need r).1 = .ok ((Tape.ahead r).take need) ∧
          Tape.ahead (readExact need r).2 = (Tape.ahead r).drop need) ∧
      ((Tape.ahead r).length < need → (readExact need r).1 = .error .unexpectedEof) := by
  induction need using Nat.strongRecOn with
  | ind need ih =>
    intro r hf
    obtain ⟨b, hb⟩ := hf .refl need
    have hahead := Tape.ahead_read hb
    have hle := AsyncRead.length_read_le hb
    have hlen := congrArg List.length hahead
    rw [List.length_append] at hlen
    unfold readExact
    by_cases hz : need = 0
    · subst hz
      simp [hf]
    · by_cases hnil : b = []
      · have hend := Tape.ahead_end (Nat.pos_of_ne_zero hz) (hnil ▸ hb)
        simp only [hz, hb, hnil, dif_pos, dif_neg, not_false_eq_true]
        refine ⟨hf.read need, fun h => ?_, fun _ => trivial⟩
        rw [hend, List.length_nil] at h
        omega
      · have hpos := List.length_pos_of_ne_nil hnil
        obtain ⟨hflows, hfull, hshort⟩ := ih (need - b.length) (by omega) (hf.read need)
        simp only [hz, hb, hnil, dif_neg, not_false_eq_true]
        refine ⟨hflows, fun h => ?_, fun h => ?_⟩
        · obtain ⟨hok, hrest⟩ := hfull (by omega)
          rw [hok, hrest, hahead]
          refine ⟨?_, ?_⟩
          · rw [List.take_append, List.take_of_length_le hle]
            rfl
          · rw [List.drop_append, List.drop_of_length_le hle, List.nil_append]
        · rw [hshort (by omega)]
          rfl

end Delivers

/-! ### What writers take -/

/-- A writer that appends to what it took before, from the states in which it is ready. -/
class Sink (W : Type) extends AsyncWrite W where
  ready : W → Prop
  taken : W → Bytes
  ready_write : ∀ {b : Bytes} {w : W}, ready w → ready (write b w).2
  taken_write : ∀ {b : Bytes} {w : W}, ready w →
    ∃ k, k ≤ b.length ∧ taken (write b w).2 = taken w ++ b.take k ∧ ∀ n, (write b w).1 = .ok n → n = k

namespace Sink

variable {W : Type} [Sink W] {b : Bytes} {w w' : W}

theorem of_ok (hr : ready w) {n : ℕ} (h : AsyncWrite.write b w = (.ok n, w')) :
    ready w' ∧ n ≤ b.length ∧ taken w' = taken w ++ b.take n := by
  obtain ⟨k, hk, ht, hn⟩ := taken_write (b := b) hr
  have hw : (AsyncWrite.write b w).2 = w' := by rw [h]
  have hnk : n = k := hn n (by rw [h])
  rw [hw] at ht
  exact ⟨hw ▸ ready_write hr, hnk ▸ hk, hnk ▸ ht⟩

theorem of_error (hr : ready w) {e : StepError} (h : AsyncWrite.write b w = (.error e, w')) :
    ∃ y, y <+: b ∧ taken w' = taken w ++ y := by
  obtain ⟨k, -, ht, -⟩ := taken_write (b := b) hr
  have hw : (AsyncWrite.write b w).2 = w' := by rw [h]
  exact ⟨b.take k, List.take_prefix _ _, hw ▸ ht⟩

end Sink

/-! ### Files that go by a script -/

/-- How a step of a scripted file goes: it moves up to `n + 1` bytes, or it stops with an error, where
a write has stored some of its bytes already. -/
inductive ScriptStep
  | move (n : ℕ)
  | stop (error : StepError) (stored : ℕ)
  deriving DecidableEq

/-- A file, a position in it and how the coming steps go. A script that ends leaves the file to move
all it can. -/
structure ScriptedFile where
  content : Bytes
  pos : ℕ
  script : List ScriptStep
  pos_le : pos ≤ content.length
  deriving DecidableEq

namespace ScriptedFile

variable (f : ScriptedFile)

/-- The file at its beginning. -/
def ofContent (content : Bytes) (script : List ScriptStep) : ScriptedFile :=
  ⟨content, 0, script, Nat.zero_le _⟩

/-- The next step of the script, which asks for `n` bytes. -/
def next (n : ℕ) : ScriptStep := f.script.headD (.move n)

/-- The next step of the script is used up. -/
def skip : ScriptedFile := { f with script := f.script.tail }

/-- The file after `n` more bytes were read. -/
def advance (n : ℕ) : ScriptedFile :=
  ⟨f.content, min (f.pos + n) f.content.length, f.script.tail, min_le_right _ _⟩

/-- The file after the bytes were written at its position. -/
def store (b : Bytes) : ScriptedFile where
  content := f.content.take f.pos ++ b ++ f.content.drop (f.pos + b.length)
  pos := f.pos + b.length
  script := f.script.tail
  pos_le := by
    have := f.pos_le
    simp only [List.length_append, List.length_take, List.length_drop]
    omega

/-- What is behind the position. -/
def rest : Bytes := f.content.drop f.pos

/-- A read at the position. -/
def read (n : ℕ) : IoStep ScriptedFile Bytes := fun f =>
  match f.next n with
  | .stop error _ => (.error error, f.skip)
  | .move k => (.ok (f.rest.take (min n (k + 1))), f.advance (min n (k + 1)))

/-- A write at the position. -/
def write (b : Bytes) : IoStep ScriptedFile ℕ := fun f =>
  match f.next b.length with
  | .stop error stored => (.error error, f.store (b.take stored))
  | .move k => (.ok (min b.length (k + 1)), f.store (b.take (k + 1)))

/-- A flush, which may fail. -/
def flush : IoStep ScriptedFile Unit := fun f =>
  match f.next 0 with
  | .stop error _ => (.error error, f.skip)
  | .move _ => (.ok (), f.skip)

/-- The position that a seek moves to. -/
def target : SeekFrom → ℕ
  | .start => 0
  | .ending => f.content.length

/-- The file at another position. -/
def moveTo (point : SeekFrom) : ScriptedFile where
  content := f.content
  pos := f.target point
  script := f.script.tail
  pos_le := by cases point <;> simp [target]

/-- A seek, which may fail. -/
def seek (point : SeekFrom) : IoStep ScriptedFile ℕ := fun f =>
  match f.next 0 with
  | .stop error _ => (.error error, f.skip)
  | .move _ => (.ok (f.target point), f.moveTo point)

variable {f}

theorem rest_advance (n : ℕ) : f.rest = f.rest.take n ++ (f.advance n).rest := by
  change f.content.drop f.pos =
    (f.content.drop f.pos).take n ++ f.content.drop (min (f.pos + n) f.content.length)
  rcases Nat.le_total (f.pos + n) f.content.length with h | h
  · rw [min_eq_left h, ← List.drop_drop, List.take_append_drop]
  · rw [min_eq_right h, List.drop_length, List.append_nil, List.take_of_length_le]
    rw [List.length_drop]
    omega

theorem content_store (h : f.pos = f.content.length) (b : Bytes) :
    (f.store b).content = f.content ++ b ∧ (f.store b).pos = (f.store b).content.length := by
  simp [store, h]

instance : Tape ScriptedFile where
  read := read
  length_read_le {n f b} h := by
    unfold read at h
    cases hn : f.next n with
    | stop e s => simp [hn] at h
    | move k =>
      simp only [hn, Except.ok.injEq] at h
      subst h
      simp only [List.length_take]
      omega
  ahead := rest
  ahead_read {n f b} h := by
    unfold read at h ⊢
    cases hn : f.next n with
    | stop e s => simp [hn] at h
    | move k =>
      simp only [hn, Except.ok.injEq] at h ⊢
      subst h
      exact rest_advance _
  ahead_end {n f} hpos h := by
    unfold read at h
    cases hn : f.next n with
    | stop e s => simp [hn] at h
    | move k =>
      simp only [hn, Except.ok.injEq, List.take_eq_nil_iff] at h
      rcases h with h | h
      · omega
      · exact h

instance : AsyncSeek ScriptedFile := ⟨seek⟩

instance : Sink ScriptedFile where
  write := write
  flush := flush
  write_le {b f n} h := by
    unfold write at h
    cases hn : f.next b.length with
    | stop e s => simp [hn] at h
    | move k =>
      simp only [hn, Except.ok.injEq] at h
      omega
  ready f := f.pos = f.content.length
  taken := content
  ready_write {b f} h := by
    unfold write
    cases f.next b.length <;> exact (content_store h _).2
  taken_write {b f} h := by
    unfold write
    cases hn : f.next b.length with
    | stop e s =>
      refine ⟨min s b.length, min_le_right _ _, ?_, fun n hn => by cases hn⟩
      rw [(content_store h _).1, List.take_eq_take_min]
    | move k =>
      refine ⟨min b.length (k + 1), min_le_left _ _, ?_, fun n hn => by cases hn; rfl⟩
      rw [(content_store h _).1, List.take_eq_take_min, min_comm]

/-! #### Files that are not disturbed -/

/-- No coming step stops. -/
def Calm (f : ScriptedFile) : Prop := ∀ s ∈ f.script, ∃ n, s = .move n

variable {b : Bytes} {n : ℕ}

theorem Calm.next (h : f.Calm) (n : ℕ) : ∃ k, f.next n = .move k := by
  unfold ScriptedFile.next
  rcases hs : f.script with _ | ⟨s, script⟩
  · exact ⟨n, rfl⟩
  · exact h s (by rw [hs]; exact List.mem_cons_self)

theorem Calm.tail (h : f.Calm) {g : ScriptedFile} (hg : g.script = f.script.tail) : g.Calm :=
  fun s hs => h s (List.mem_of_mem_tail (hg ▸ hs))

theorem Calm.read (h : f.Calm) (hn : 0 < n) : ∃ b g, AsyncRead.read n f = (.ok b, g) ∧ g.Calm ∧
    (f.rest ≠ [] → b ≠ []) := by
  obtain ⟨k, hk⟩ := h.next n
  refine ⟨f.rest.take (min n (k + 1)), f.advance (min n (k + 1)), ?_, h.tail rfl, fun hne => ?_⟩
  · change ScriptedFile.read n f = _
    unfold ScriptedFile.read
    rw [hk]
  · rw [Ne, List.take_eq_nil_iff]
    rintro (h0 | h0)
    · omega
    · exact hne h0

theorem Calm.of_read (h : f.Calm) (hn : 0 < n) {g : ScriptedFile}
    (hr : AsyncRead.read n f = (.ok b, g)) :
    g.Calm ∧ f.rest.length = b.length + g.rest.length ∧ (f.rest ≠ [] → b ≠ []) := by
  obtain ⟨b', g', hr', hg, hne⟩ := h.read hn
  rw [hr] at hr'
  cases hr'
  have ha : f.rest = b ++ (AsyncRead.read n f).2.rest := Tape.ahead_read (by rw [hr])
  rw [hr] at ha
  exact ⟨hg, by rw [ha, List.length_append], hne⟩

theorem Calm.read_ne_error (h : f.Calm) (hn : 0 < n) {g : ScriptedFile} {e : StepError} :
    AsyncRead.read n f ≠ (.error e, g) := by
  obtain ⟨b', g', hr', -⟩ := h.read hn
  rw [hr']
  intro heq
  cases heq

theorem Calm.write (h : f.Calm) (hb : b ≠ []) : ∃ k g, AsyncWrite.write b f = (.ok k, g) ∧ g.Calm ∧
    k ≠ 0 := by
  obtain ⟨k, hk⟩ := h.next b.length
  refine ⟨min b.length (k + 1), f.store (b.take (k + 1)), ?_, h.tail rfl, ?_⟩
  · change ScriptedFile.write b f = _
    unfold ScriptedFile.write
    rw [hk]
  · have := List.length_pos_of_ne_nil hb
    omega

theorem Calm.of_write (h : f.Calm) (hb : b ≠ []) {g : ScriptedFile}
    (hw : AsyncWrite.write b f = (.ok n, g)) : g.Calm ∧ n ≠ 0 := by
  obtain ⟨k', g', hw', hg, hk⟩ := h.write hb
  rw [hw] at hw'
  cases hw'
  exact ⟨hg, hk⟩

theorem Calm.write_ne_error (h : f.Calm) (hb : b ≠ []) {g : ScriptedFile} {e : StepError} :
    AsyncWrite.write b f ≠ (.error e, g) := by
  obtain ⟨k', g', hw', -⟩ := h.write hb
  rw [hw']
  intro heq
  cases heq

theorem Calm.seek (h : f.Calm) (point : SeekFrom) :
    AsyncSeek.seek point f = (.ok (f.target point), f.moveTo point) ∧ (f.moveTo point).Calm := by
  obtain ⟨k, hk⟩ := h.next 0
  refine ⟨?_, h.tail rfl⟩
  change ScriptedFile.seek point f = _
  unfold ScriptedFile.seek
  rw [hk]

theorem Calm.of_seek (h : f.Calm) {point : SeekFrom} {g : ScriptedFile}
    (hs : AsyncSeek.seek point f = (.ok n, g)) :
    n = f.target point ∧ g = f.moveTo point ∧ g.Calm := by
  obtain ⟨hs', hcalm⟩ := h.seek point
  rw [hs] at hs'
  cases hs'
  exact ⟨rfl, rfl, hcalm⟩

theorem Calm.seek_ne_error (h : f.Calm) {point : SeekFrom} {g : ScriptedFile} {e : StepError} :
    AsyncSeek.seek point f ≠ (.error e, g) := by
  rw [(h.seek point).1]
  intro heq
  cases heq

theorem Calm.flush (h : f.Calm) : ∃ g, AsyncWrite.flush f = (.ok (), g) ∧ g.Calm := by
  obtain ⟨k, hk⟩ := h.next 0
  refine ⟨f.skip, ?_, h.tail rfl⟩
  change ScriptedFile.flush f = _
  unfold ScriptedFile.flush
  rw [hk]

/-! #### What steps leave alone -/

theorem Calm.flows (h : f.Calm) : Flows f := by
  intro g hg n
  have hcalm : g.Calm := hg.keeps (P := Calm) (fun n g hg => hg.tail (by
    change (ScriptedFile.read n g).2.script = _
    unfold ScriptedFile.read
    cases g.next n <;> rfl)) h
  obtain ⟨k, hk⟩ := hcalm.next n
  refine ⟨g.rest.take (min n (k + 1)), ?_⟩
  change (ScriptedFile.read n g).1 = _
  unfold ScriptedFile.read
  rw [hk]

theorem content_read (n : ℕ) (f : ScriptedFile) : (AsyncRead.read n f).2.content = f.content := by
  change (ScriptedFile.read n f).2.content = _
  unfold ScriptedFile.read
  cases f.next n <;> rfl

theorem content_reads {f g : ScriptedFile} (h : Reads f g) : g.content = f.content :=
  h.keeps (P := fun g => g.content = f.content) (fun n g hg => (content_read n g).trans hg) rfl

theorem content_seek (point : SeekFrom) (f : ScriptedFile) :
    (AsyncSeek.seek point f).2.content = f.content := by
  change (ScriptedFile.seek point f).2.content = _
  unfold ScriptedFile.seek
  cases f.next 0 <;> rfl

theorem content_flush (f : ScriptedFile) : (AsyncWrite.flush f).2.content = f.content := by
  change (ScriptedFile.flush f).2.content = _
  unfold ScriptedFile.flush
  cases f.next 0 <;> rfl

theorem eq_of_seek {point : SeekFrom} {g : ScriptedFile} (h : AsyncSeek.seek point f = (.ok n, g)) :
    n = f.target point ∧ g = f.moveTo point := by
  change ScriptedFile.seek point f = _ at h
  unfold ScriptedFile.seek at h
  cases hn : f.next 0 with
  | stop e s =>
    rw [hn] at h
    cases h
  | move k =>
    rw [hn] at h
    cases h
    exact ⟨rfl, rfl⟩

theorem pos_delivers {f g : ScriptedFile} {x : Bytes} (h : Delivers f x g) :
    g.pos = f.pos + x.length := by
  have hc := content_reads h.reads
  have ha : f.rest = x ++ g.rest := Tape.ahead_delivers h
  have hl := congrArg List.length ha
  simp only [rest, List.length_append, List.length_drop, hc] at hl
  have := f.pos_le
  have hg := g.pos_le
  rw [hc] at hg
  omega

end ScriptedFile

/-! ### Hashing in pieces -/

/-- A hash function and its incremental form, which agree. -/
structure Hasher (D : Type) where
  State : Type
  new : State
  update : State → Bytes → State
  finalize : State → D
  hash : Bytes → D
  finalize_foldl : ∀ pieces : List Bytes, finalize (pieces.foldl update new) = hash pieces.flatten

namespace Hasher

variable {D : Type} (h : Hasher D)

/-- The state has seen these bytes. -/
def Fed (state : h.State) (b : Bytes) : Prop :=
  ∃ pieces : List Bytes, state = pieces.foldl h.update h.new ∧ b = pieces.flatten

/-- The hasher that keeps all it has seen. -/
def ofHash (hash : Bytes → D) : Hasher D where
  State := Bytes
  new := []
  update := (· ++ ·)
  finalize := hash
  hash := hash
  finalize_foldl pieces := by
    have hf : ∀ (pieces : List Bytes) (b : Bytes), pieces.foldl (· ++ ·) b = b ++ pieces.flatten := by
      intro pieces
      induction pieces with
      | nil => simp
      | cons x pieces ih => intro b; simp [ih]
    rw [hf, List.nil_append]

variable {h}

theorem fed_new : h.Fed h.new [] := ⟨[], rfl, rfl⟩

theorem Fed.update {state : h.State} {b : Bytes} (hf : h.Fed state b) (x : Bytes) :
    h.Fed (h.update state x) (b ++ x) := by
  obtain ⟨pieces, rfl, rfl⟩ := hf
  exact ⟨pieces ++ [x], by simp, by simp⟩

theorem Fed.finalize {state : h.State} {b : Bytes} (hf : h.Fed state b) :
    h.finalize state = h.hash b := by
  obtain ⟨pieces, rfl, rfl⟩ := hf
  exact h.finalize_foldl pieces

end Hasher

end Rift.Lib
