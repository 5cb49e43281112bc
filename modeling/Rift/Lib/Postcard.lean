import Rift.Lib.Bytes

/-! # The Postcard wire format

Encoders are functions into `Bytes`. Decoders take a value off the front of a byte string and return
what remains, or fail (`Take`). Numbers are little-endian groups of seven bits; a `uN` takes at most
`⌈N / 7⌉` bytes, and the last of them is bounded so that the value fits. Longer spellings of a small
number are accepted.

Three properties of a decoder matter to its users, and all are kept by sequencing:

* `Extends`: bytes after the value do not matter to the decoder, they are left where they are;
* `RoundTrip`: what was encoded is decoded, whatever follows it;
* `Yields`: whatever it takes, from any bytes, has a property. -/

namespace Rift.Lib.Postcard

/-- A decoder: takes a value off the front of a byte string. -/
abbrev Take (α : Type) := StateT Bytes Option α

/-- The decoder does not look past the value it takes. -/
def Extends {α : Type} (p : Take α) : Prop :=
  ∀ ⦃b : Bytes⦄ ⦃a : α⦄ ⦃r : Bytes⦄, p b = some (a, r) → ∀ q, p (b ++ q) = some (a, r ++ q)

/-- The decoder takes exactly the bytes `e` as the value `a`. -/
def RoundTrip {α : Type} (p : Take α) (e : Bytes) (a : α) : Prop :=
  ∀ r, p (e ++ r) = some (a, r)

/-- What the decoder takes, from any bytes, has the property. -/
def Yields {α : Type} (p : Take α) (P : α → Prop) : Prop :=
  ∀ ⦃b : Bytes⦄ ⦃a : α⦄ ⦃r : Bytes⦄, p b = some (a, r) → P a

section Sequencing

variable {α β : Type}

theorem bind_eq_some {p : Take α} {f : α → Take β} {b r : Bytes} {y : β} :
    (p >>= f) b = some (y, r) ↔ ∃ a r₁, p b = some (a, r₁) ∧ f a r₁ = some (y, r) := by
  change (p b).bind (fun x => f x.1 x.2) = some (y, r) ↔ _
  rw [Option.bind_eq_some_iff]
  exact ⟨fun ⟨⟨a, r₁⟩, h⟩ => ⟨a, r₁, h⟩, fun ⟨a, r₁, h⟩ => ⟨(a, r₁), h⟩⟩

theorem pure_eq_some {a y : α} {b r : Bytes} :
    (pure a : Take α) b = some (y, r) ↔ a = y ∧ b = r := by
  change some (a, b) = some (y, r) ↔ _
  simp

theorem Extends.pure (a : α) : Extends (pure a : Take α) := by
  intro b y r h q
  obtain ⟨rfl, rfl⟩ := pure_eq_some.mp h
  rfl

theorem Extends.bind {p : Take α} {f : α → Take β} (hp : Extends p) (hf : ∀ a, Extends (f a)) :
    Extends (p >>= f) := by
  intro b y r h q
  obtain ⟨a, r₁, h₁, h₂⟩ := bind_eq_some.mp h
  exact bind_eq_some.mpr ⟨a, r₁ ++ q, hp h₁ q, hf a h₂ q⟩

theorem Extends.failure : Extends (failure : Take α) := by
  intro b a r h
  exact absurd h (by change (none : Option (α × Bytes)) ≠ _; simp)

theorem RoundTrip.bind {p : Take α} {f : α → Take β} {e e' : Bytes} {a : α} {y : β}
    (hp : RoundTrip p e a) (hf : RoundTrip (f a) e' y) : RoundTrip (p >>= f) (e ++ e') y := by
  intro r
  rw [bind_eq_some, List.append_assoc]
  exact ⟨a, e' ++ r, hp _, hf r⟩

theorem RoundTrip.pure (a : α) : RoundTrip (pure a : Take α) [] a := fun _ => rfl

theorem RoundTrip.ending {p : Take α} {f : α → Take β} {e : Bytes} {a : α} {y : β}
    (hp : RoundTrip p e a) (hf : RoundTrip (f a) [] y) : RoundTrip (p >>= f) e y := by
  rw [← List.append_nil e]
  exact hp.bind hf

theorem RoundTrip.map {p : Take α} {e : Bytes} {a : α} (hp : RoundTrip p e a) (f : α → β) :
    RoundTrip (p >>= fun a => Pure.pure (f a)) e (f a) :=
  hp.ending (RoundTrip.pure (f a))

theorem Yields.pure {P : α → Prop} {a : α} (h : P a) : Yields (pure a) P := by
  intro b y r hy
  rwa [← (pure_eq_some.mp hy).1]

theorem Yields.bind {p : Take α} {f : α → Take β} {P : α → Prop} {Q : β → Prop} (hp : Yields p P)
    (hf : ∀ a, P a → Yields (f a) Q) : Yields (p >>= f) Q := by
  intro b y r h
  obtain ⟨a, r₁, h₁, h₂⟩ := bind_eq_some.mp h
  exact hf a (hp h₁) h₂

theorem Yields.after {p : Take α} {f : α → Take β} {Q : β → Prop} (hf : ∀ a, Yields (f a) Q) :
    Yields (p >>= f) Q :=
  Yields.bind (P := fun _ => True) (fun _ _ _ _ => trivial) fun a _ => hf a

theorem Yields.failure {P : α → Prop} : Yields (failure : Take α) P := by
  intro b a r h
  exact absurd h (by change (none : Option (α × Bytes)) ≠ _; simp)

end Sequencing

/-! ### Numbers -/

/-- A number on at most `k` bytes, seven bits to the byte, least significant group first. -/
def varint : ℕ → ℕ → Bytes
  | 0, _ => []
  | k + 1, n =>
    if n < 128 then [UInt8.ofNat n] else UInt8.ofNat (n % 128 + 128) :: varint k (n / 128)

/-- Takes a number of at most `k` bytes, the `k`-th of which is at most `last`. -/
def takeVarint (last : ℕ) : ℕ → Take ℕ
  | 0, _ => none
  | _ + 1, [] => none
  | k + 1, x :: b =>
    if x.toNat < 128 then
      if k = 0 ∧ last < x.toNat then none else some (x.toNat, b)
    else (takeVarint last k b).map fun (n, r) => (x.toNat % 128 + 128 * n, r)

theorem takeVarint_extends (last : ℕ) : ∀ k, Extends (takeVarint last k)
  | 0 => by intro b a r h; simp [takeVarint] at h
  | k + 1 => by
    rintro (_ | ⟨x, b⟩) a r h q
    · simp [takeVarint] at h
    · simp only [takeVarint, List.cons_append] at h ⊢
      split_ifs at h ⊢ with h₁ h₂
      · simp only [Option.some.injEq, Prod.mk.injEq] at h ⊢
        exact ⟨h.1, by rw [h.2]⟩
      · obtain ⟨⟨n, r'⟩, hn, he⟩ := Option.map_eq_some_iff.mp h
        simp only [Prod.mk.injEq] at he
        rw [takeVarint_extends last k hn q, Option.map_some, he.1, he.2]

theorem takeVarint_varint (last : ℕ) (hl : last < 128) :
    ∀ {k n : ℕ}, n < 128 ^ k * (last + 1) → RoundTrip (takeVarint last (k + 1)) (varint (k + 1) n) n
  | 0, n, h => by
    intro r
    have hn : n < 128 := by omega
    have hx : (UInt8.ofNat n).toNat = n := by rw [UInt8.toNat_ofNat']; omega
    simp only [varint, if_pos hn, List.cons_append, List.nil_append, takeVarint, hx]
    rw [if_neg (by omega)]
  | k + 1, n, h => by
    intro r
    rw [varint]
    split_ifs with hn
    · have hx : (UInt8.ofNat n).toNat = n := by rw [UInt8.toNat_ofNat']; omega
      simp [takeVarint, hx, hn]
    · have hx : (UInt8.ofNat (n % 128 + 128)).toNat = n % 128 + 128 := by
        rw [UInt8.toNat_ofNat']; omega
      have hd : n / 128 < 128 ^ k * (last + 1) := by
        rw [Nat.div_lt_iff_lt_mul (by norm_num)]
        calc n < 128 ^ (k + 1) * (last + 1) := h
          _ = 128 ^ k * (last + 1) * 128 := by ring
      rw [List.cons_append, takeVarint, hx, if_neg (by omega),
        takeVarint_varint last hl hd r, Option.map_some]
      simp only [Option.some.injEq, Prod.mk.injEq, and_true]
      omega

theorem length_varint_le : ∀ k n : ℕ, (varint k n).length ≤ k
  | 0, _ => by simp [varint]
  | k + 1, n => by
    rw [varint]
    split_ifs
    · simp
    · simpa using length_varint_le k (n / 128)

theorem length_varint_pos (k n : ℕ) : 0 < (varint (k + 1) n).length := by
  rw [varint]
  split_ifs <;> simp

/-- A `u16`. -/
def u16 (n : ℕ) : Bytes := varint 3 n

/-- A `u32`. -/
def u32 (n : ℕ) : Bytes := varint 5 n

/-- A `u64`. -/
def u64 (n : ℕ) : Bytes := varint 10 n

/-- A `usize`, on a platform of 64 bits. -/
def usize (n : ℕ) : Bytes := varint 10 n

/-- Takes a `u16`: three bytes, the last of which holds the two remaining bits. -/
def takeU16 : Take ℕ := takeVarint 3 3

/-- Takes a `u32`: five bytes, the last of which holds the four remaining bits. -/
def takeU32 : Take ℕ := takeVarint 15 5

/-- Takes a `u64`: ten bytes, the last of which holds the remaining bit. -/
def takeU64 : Take ℕ := takeVarint 1 10

/-- Takes a `usize`: ten bytes, the last of which holds the remaining bit. -/
def takeUsize : Take ℕ := takeVarint 1 10

theorem takeU32_extends : Extends takeU32 := takeVarint_extends 15 5

theorem takeUsize_extends : Extends takeUsize := takeVarint_extends 1 10

theorem takeU16_u16 {n : ℕ} (h : n < 2 ^ 16) : RoundTrip takeU16 (u16 n) n :=
  takeVarint_varint 3 (by norm_num) (by norm_num at h ⊢; exact h)

theorem takeU64_u64 {n : ℕ} (h : n < 2 ^ 64) : RoundTrip takeU64 (u64 n) n :=
  takeVarint_varint 1 (by norm_num) (by norm_num at h ⊢; exact h)

theorem takeU32_u32 {n : ℕ} (h : n < 2 ^ 32) : RoundTrip takeU32 (u32 n) n :=
  takeVarint_varint 15 (by norm_num) (by norm_num at h ⊢; exact h)

theorem takeUsize_usize {n : ℕ} (h : n < 2 ^ 64) : RoundTrip takeUsize (usize n) n :=
  takeVarint_varint 1 (by norm_num) (by norm_num at h ⊢; exact h)

/-! ### Booleans -/

/-- A boolean is one byte. -/
def boolean (b : Bool) : Bytes := [if b then 1 else 0]

/-- Takes a boolean: no byte but 0 and 1 is one. -/
def takeBool : Take Bool
  | 0 :: r => some (false, r)
  | 1 :: r => some (true, r)
  | _ => none

@[simp] theorem length_boolean (b : Bool) : (boolean b).length = 1 := rfl

theorem takeBool_boolean (b : Bool) : RoundTrip takeBool (boolean b) b := by
  intro r
  cases b <;> rfl

/-! ### Byte arrays and strings -/

/-- Takes `n` bytes. -/
def takeBytes (n : ℕ) : Take Bytes := fun b =>
  if n ≤ b.length then some (b.take n, b.drop n) else none

/-- Takes an array of `n` bytes; an array has no length on the wire. -/
def takeFixed (n : ℕ) : Take (FixedBytes n) := fun b =>
  (FixedBytes.ofBytes? n b).map fun a => (a, b.drop n)

/-- The bytes of a string. -/
def utf8 (s : String) : Bytes := s.toByteArray.data.toList

/-- The string a byte string spells, if it is UTF-8. -/
def utf8? (b : Bytes) : Option String := String.fromUTF8? ⟨⟨b⟩⟩

/-- A string: its length in bytes, then its bytes. -/
def str (s : String) : Bytes := usize s.utf8ByteSize ++ utf8 s

/-- Takes a string. -/
def takeStr : Take String := do
  let n ← takeUsize
  let b ← takeBytes n
  match utf8? b with
  | some s => pure s
  | none => failure

@[simp] theorem length_utf8 (s : String) : (utf8 s).length = s.utf8ByteSize := rfl

theorem length_str_le (s : String) : (str s).length ≤ 10 + s.utf8ByteSize := by
  have := length_varint_le 10 s.utf8ByteSize
  simp only [str, usize, List.length_append, length_utf8]
  omega

@[simp] theorem utf8?_utf8 (s : String) : utf8? (utf8 s) = some s := by
  unfold utf8? utf8 String.fromUTF8?
  exact dif_pos s.isValidUTF8

theorem takeBytes_extends (n : ℕ) : Extends (takeBytes n) := by
  intro b a r h q
  unfold takeBytes at h ⊢
  split_ifs at h with hn
  simp only [Option.some.injEq, Prod.mk.injEq] at h
  rw [if_pos (by rw [List.length_append]; omega), List.take_append_of_le_length hn,
    List.drop_append_of_le_length hn, h.1, h.2]

theorem takeBytes_append (a : Bytes) : RoundTrip (takeBytes a.length) a a := by
  intro r
  simp [takeBytes]

theorem takeFixed_extends (n : ℕ) : Extends (takeFixed n) := by
  intro b a r h q
  unfold takeFixed at h ⊢
  obtain ⟨a', ha, he⟩ := Option.map_eq_some_iff.mp h
  simp only [Prod.mk.injEq] at he
  obtain ⟨rfl, rfl⟩ := he
  unfold FixedBytes.ofBytes? at ha
  split_ifs at ha with hn
  have hb : n ≤ b.length := by rw [List.length_take] at hn; omega
  have hsplit : b = a'.toList ++ b.drop n := by
    rw [← Option.some.inj ha, List.take_append_drop]
  rw [hsplit, List.append_assoc, FixedBytes.ofBytes?_append, ← List.append_assoc, ← hsplit,
    Option.map_some, List.drop_append_of_le_length hb]

theorem takeFixed_append {n : ℕ} (a : FixedBytes n) : RoundTrip (takeFixed n) a.toList a := by
  intro r
  rw [takeFixed, FixedBytes.ofBytes?_append, Option.map_some]
  simp [List.drop_left' a.length_eq]

theorem takeStr_extends : Extends takeStr := by
  refine takeUsize_extends.bind fun n => (takeBytes_extends n).bind fun b => ?_
  cases utf8? b with
  | none => exact Extends.failure
  | some s => exact Extends.pure s

theorem takeStr_str {s : String} (h : s.utf8ByteSize < 2 ^ 64) : RoundTrip takeStr (str s) s := by
  refine (takeUsize_usize h).bind ?_
  rw [← List.append_nil (utf8 s)]
  refine RoundTrip.bind (a := utf8 s) (takeBytes_append (utf8 s)) ?_
  rw [utf8?_utf8]
  exact RoundTrip.pure s

end Rift.Lib.Postcard
