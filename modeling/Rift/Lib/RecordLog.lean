import Rift.Lib.Bytes

/-! # Append-only logs of records

A log is a byte string made of the encodings of its entries, one after the other. A reader looks at
the front of what remains (`Head`): it fails, stops, or takes one entry off, and `scan` repeats it to
the end. `Log` says which entries may follow which state, how they are written and what they do;
`Reads` says that a head takes exactly those entries.

A scan goes over the entries of a legal log (`Reads.scanAll_bytes`) and, if it succeeds, has read those
of one (`Reads.scanAll_ok`). A log cut anywhere is a shorter log and an unfinished entry
(`Log.take_bytes`), and a changed byte lies in one entry (`Log.set_bytes`). -/

namespace Rift.Lib.RecordLog

/-- One look at the front of a byte string in a state: an error, `none` to stop, or the state after
the entry that was taken off and the bytes behind it. -/
abbrev Head (σ ε : Type) := σ → Bytes → Except ε (Option (σ × Bytes))

section Scan

variable {σ ε : Type}

/-- Repeats `head` until it stops, at most `fuel` times: the state and the bytes not taken. -/
def scan (head : Head σ ε) : ℕ → σ → Bytes → Except ε (σ × Bytes)
  | 0, s, b => .ok (s, b)
  | fuel + 1, s, b =>
    if b = [] then .ok (s, b)
    else
      match head s b with
      | .error e => .error e
      | .ok none => .ok (s, b)
      | .ok (some (s', b')) => scan head fuel s' b'

/-- The scan of a whole byte string: an entry takes a byte at least, so its length is enough fuel. -/
def scanAll (head : Head σ ε) (s : σ) (b : Bytes) : Except ε (σ × Bytes) := scan head b.length s b

variable (head : Head σ ε)

@[simp] theorem scanAll_nil (s : σ) : scanAll head s [] = .ok (s, []) := rfl

theorem scan_stop {s : σ} {b : Bytes} (h : head s b = .ok none) (fuel : ℕ) :
    scan head fuel s b = .ok (s, b) := by
  cases fuel with
  | zero => rfl
  | succ fuel => simp [scan, h]

theorem scanAll_stop {s : σ} {b : Bytes} (h : head s b = .ok none) :
    scanAll head s b = .ok (s, b) :=
  scan_stop head h _

theorem scanAll_error {s : σ} {b : Bytes} {e : ε} (hb : b ≠ []) (h : head s b = .error e) :
    scanAll head s b = .error e := by
  obtain ⟨n, hn⟩ := Nat.exists_eq_succ_of_ne_zero (List.length_eq_zero_iff.not.mpr hb)
  simp [scanAll, hn, scan, hb, h]

end Scan

/-- A kind of log over states `σ`: how an entry is written, when it may follow, what it does. -/
structure Log (σ ι : Type) where
  enc : ι → Bytes
  legal : σ → ι → Prop
  next : σ → ι → σ

namespace Log

variable {σ ι : Type} (L : Log σ ι)

/-- The bytes of a list of entries. -/
def bytes (es : List ι) : Bytes := es.flatMap L.enc

/-- The state after a list of entries. -/
def run (s : σ) (es : List ι) : σ := es.foldl L.next s

/-- Every entry of the list may follow the ones before it. -/
def Legal : σ → List ι → Prop
  | _, [] => True
  | s, e :: es => L.legal s e ∧ Legal (L.next s e) es

@[simp] theorem bytes_nil : L.bytes [] = [] := rfl

@[simp] theorem bytes_cons (e : ι) (es : List ι) : L.bytes (e :: es) = L.enc e ++ L.bytes es := rfl

@[simp] theorem bytes_append (es es' : List ι) : L.bytes (es ++ es') = L.bytes es ++ L.bytes es' :=
  List.flatMap_append

@[simp] theorem run_nil (s : σ) : L.run s [] = s := rfl

@[simp] theorem run_cons (s : σ) (e : ι) (es : List ι) :
    L.run s (e :: es) = L.run (L.next s e) es := rfl

@[simp] theorem run_append (s : σ) (es es' : List ι) :
    L.run s (es ++ es') = L.run (L.run s es) es' :=
  List.foldl_append

@[simp] theorem legal_nil (s : σ) : L.Legal s [] := trivial

@[simp] theorem legal_cons {s : σ} {e : ι} {es : List ι} :
    L.Legal s (e :: es) ↔ L.legal s e ∧ L.Legal (L.next s e) es := Iff.rfl

theorem legal_append : ∀ {s : σ} {es es' : List ι},
    L.Legal s (es ++ es') ↔ L.Legal s es ∧ L.Legal (L.run s es) es'
  | s, [], es' => by simp
  | s, e :: es, es' => by
    rw [List.cons_append, legal_cons, legal_cons, legal_append, run_cons, and_assoc]

theorem Legal.take {L : Log σ ι} {s : σ} {es : List ι} (h : L.Legal s es) (k : ℕ) :
    L.Legal s (es.take k) := by
  rw [← List.take_append_drop k es, legal_append] at h
  exact h.1

/-! ### A log cut at a byte -/

/-- How many entries lie completely within the first `n` bytes. -/
def complete : ℕ → List ι → ℕ
  | _, [] => 0
  | n, e :: es => if (L.enc e).length ≤ n then complete (n - (L.enc e).length) es + 1 else 0

theorem complete_le : ∀ (n : ℕ) (es : List ι), L.complete n es ≤ es.length
  | _, [] => Nat.le_refl _
  | n, e :: es => by
    rw [complete, List.length_cons]
    split_ifs
    · exact Nat.succ_le_succ (complete_le _ es)
    · exact Nat.zero_le _

theorem length_bytes_take_le_iff :
    ∀ (n : ℕ) (es : List ι) {j : ℕ}, j ≤ es.length →
      ((L.bytes (es.take j)).length ≤ n ↔ j ≤ L.complete n es)
  | n, es, 0, _ => by simp
  | n, e :: es, j + 1, hj => by
    have ih := length_bytes_take_le_iff (n - (L.enc e).length) es (Nat.le_of_succ_le_succ hj)
    rw [List.take_succ_cons, bytes_cons, List.length_append, complete]
    split_ifs with h
    · rw [Nat.add_le_add_iff_right, ← ih]; omega
    · omega

/-- **A cut log**: the complete entries, and behind them a part of the next entry that misses a byte
at least. -/
theorem take_bytes : ∀ (n : ℕ) (es : List ι), ∃ t,
    (L.bytes es).take n = L.bytes (es.take (L.complete n es)) ++ t ∧
      (t = [] ∨ ∃ e ∈ es, ∃ q, q ≠ [] ∧ t ++ q = L.enc e)
  | n, [] => ⟨[], by simp [complete], Or.inl rfl⟩
  | n, e :: es => by
    rw [complete, bytes_cons]
    split_ifs with h
    · obtain ⟨t, ht, hq⟩ := take_bytes (n - (L.enc e).length) es
      refine ⟨t, ?_, hq.imp_right fun ⟨e', he', hq'⟩ => ⟨e', List.mem_cons_of_mem _ he', hq'⟩⟩
      rw [List.take_append, List.take_of_length_le h, ht, List.take_succ_cons, bytes_cons,
        List.append_assoc]
    · have hlt : n < (L.enc e).length := Nat.lt_of_not_le h
      refine ⟨(L.enc e).take n, ?_, Or.inr ⟨e, List.mem_cons_self, (L.enc e).drop n, ?_, ?_⟩⟩
      · simp [List.take_append_of_le_length (Nat.le_of_lt hlt)]
      · simpa using hlt
      · exact List.take_append_drop n _

/-! ### A log with one byte changed -/

/-- **A changed byte** lies in one entry, and all other entries are as they were. -/
theorem set_bytes (v : UInt8) : ∀ (es : List ι) {i : ℕ}, i < (L.bytes es).length →
    ∃ pre e post j, es = pre ++ e :: post ∧ j < (L.enc e).length ∧
      i = (L.bytes pre).length + j ∧
      (L.bytes es).set i v = L.bytes pre ++ ((L.enc e).set j v ++ L.bytes post)
  | [], i, h => by simp at h
  | e :: es, i, h => by
    rw [bytes_cons] at h ⊢
    rcases set_append_cases (L.enc e) (L.bytes es) i v with ⟨hi, hs⟩ | ⟨hi, hs⟩
    · exact ⟨[], e, es, i, rfl, hi, by simp, by simpa using hs⟩
    · have hi' : i - (L.enc e).length < (L.bytes es).length := by
        rw [List.length_append] at h; omega
      obtain ⟨pre, e', post, j, rfl, hj, hij, hset⟩ := set_bytes v es hi'
      refine ⟨e :: pre, e', post, j, rfl, hj, ?_, ?_⟩
      · rw [bytes_cons, List.length_append]; omega
      · rw [hs, hset, bytes_cons, List.append_assoc]

end Log

/-- A head that takes exactly the legal entries of a log. -/
structure Reads {σ ε ι : Type} (head : Head σ ε) (L : Log σ ι) : Prop where
  enc_ne_nil : ∀ e, L.enc e ≠ []
  head_iff : ∀ s b s' b', head s b = .ok (some (s', b')) ↔
    ∃ e, L.legal s e ∧ b = L.enc e ++ b' ∧ s' = L.next s e

namespace Reads

variable {σ ε ι : Type} {head : Head σ ε} {L : Log σ ι} (h : Reads head L)
include h

theorem length_lt {s s' : σ} {b b' : Bytes} (hs : head s b = .ok (some (s', b'))) :
    b'.length < b.length := by
  obtain ⟨e, -, rfl, -⟩ := (h.head_iff s b s' b').mp hs
  have := List.length_pos_iff.mpr (h.enc_ne_nil e)
  rw [List.length_append]; omega

theorem scan_fuel : ∀ (n : ℕ) (s : σ) (b : Bytes), b.length ≤ n →
    scan head n s b = scanAll head s b := by
  suffices H : ∀ (m n : ℕ) (s : σ) (b : Bytes), b.length ≤ m → b.length ≤ n →
      scan head n s b = scan head m s b from fun n s b hn => H _ n s b le_rfl hn
  intro m
  induction m with
  | zero =>
    intro n s b hm _
    have : b = [] := List.length_eq_zero_iff.mp (Nat.le_zero.mp hm)
    subst this
    cases n <;> rfl
  | succ m ih =>
    intro n s b hm hn
    cases n with
    | zero =>
      have : b = [] := List.length_eq_zero_iff.mp (Nat.le_zero.mp hn)
      subst this; rfl
    | succ n =>
      rw [scan, scan]
      split_ifs
      · rfl
      · split
        · rfl
        · rfl
        · next s' b' hs =>
          have := h.length_lt hs
          exact ih n s' b' (by omega) (by omega)

theorem scanAll_enc {s : σ} {e : ι} (he : L.legal s e) (b : Bytes) :
    scanAll head s (L.enc e ++ b) = scanAll head (L.next s e) b := by
  have hs := (h.head_iff s (L.enc e ++ b) (L.next s e) b).mpr ⟨e, he, rfl, rfl⟩
  have hlt := h.length_lt hs
  have hne : L.enc e ++ b ≠ [] := by simp [h.enc_ne_nil e]
  obtain ⟨n, hn⟩ := Nat.exists_eq_succ_of_ne_zero (List.length_eq_zero_iff.not.mpr hne)
  rw [scanAll, hn, scan, if_neg hne, hs]
  exact h.scan_fuel n _ b (by omega)

/-- **A scan over a legal log** continues behind it, in the state after its entries. -/
theorem scanAll_bytes : ∀ {s : σ} {es : List ι}, L.Legal s es → ∀ b,
    scanAll head s (L.bytes es ++ b) = scanAll head (L.run s es) b
  | s, [], _, b => rfl
  | s, e :: es, hl, b => by
    rw [Log.bytes_cons, List.append_assoc, h.scanAll_enc hl.1, scanAll_bytes hl.2, Log.run_cons]

/-- **A scan that succeeds** has read a legal log, and stopped at the bytes it left. -/
theorem scanAll_ok {s s' : σ} {b t : Bytes} (hs : scanAll head s b = .ok (s', t)) :
    ∃ es, L.Legal s es ∧ b = L.bytes es ++ t ∧ s' = L.run s es ∧
      (t = [] ∨ head s' t = .ok none) := by
  suffices H : ∀ (n : ℕ) (s : σ) (b : Bytes), b.length ≤ n → scan head n s b = .ok (s', t) →
      ∃ es, L.Legal s es ∧ b = L.bytes es ++ t ∧ s' = L.run s es ∧
        (t = [] ∨ head s' t = .ok none) from H _ s b le_rfl hs
  intro n
  induction n with
  | zero =>
    intro s b hb hs
    have : b = [] := List.length_eq_zero_iff.mp (Nat.le_zero.mp hb)
    obtain ⟨rfl, rfl⟩ : s = s' ∧ b = t := by simpa [scan] using hs
    exact ⟨[], trivial, rfl, rfl, Or.inl this⟩
  | succ n ih =>
    intro s b hb hs
    rw [scan] at hs
    split_ifs at hs with hnil
    · obtain ⟨rfl, rfl⟩ : s = s' ∧ b = t := by simpa using hs
      exact ⟨[], trivial, rfl, rfl, Or.inl hnil⟩
    · split at hs
      · exact absurd hs (by simp)
      · next hstop =>
        obtain ⟨rfl, rfl⟩ : s = s' ∧ b = t := by simpa using hs
        exact ⟨[], trivial, rfl, rfl, Or.inr hstop⟩
      · next s₁ b₁ hstep =>
        have hlt := h.length_lt hstep
        obtain ⟨es, hes, rfl, hrun, hend⟩ := ih s₁ b₁ (by omega) hs
        obtain ⟨e, he, rfl, rfl⟩ := (h.head_iff _ _ _ _).mp hstep
        exact ⟨e :: es, ⟨he, hes⟩, by simp, hrun, hend⟩

end Reads

end Rift.Lib.RecordLog
