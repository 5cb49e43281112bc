import Rift.Lib.Bytes

/-! # Hexadecimal texts

Two digits for every byte. Digits of both cases are read, small ones are written; a text of small
digits is the only one of its bytes.

Main results: `hexDecode_hexEncode` and `hexEncode_of_hexDecode`. -/

namespace Rift.Lib

/-- The digit for a number below 16. -/
def hexDigit (n : ℕ) : UInt8 := UInt8.ofNat (if n < 10 then 48 + n else 87 + n)

/-- The number of a digit of either case. -/
def hexValue (c : UInt8) : Option ℕ :=
  if 48 ≤ c.toNat ∧ c.toNat ≤ 57 then some (c.toNat - 48)
  else if 97 ≤ c.toNat ∧ c.toNat ≤ 102 then some (c.toNat - 87)
  else if 65 ≤ c.toNat ∧ c.toNat ≤ 70 then some (c.toNat - 55)
  else none

/-- A digit, and a small one if it is a letter. -/
def lowerHex (c : UInt8) : Bool :=
  decide (48 ≤ c.toNat ∧ c.toNat ≤ 57 ∨ 97 ≤ c.toNat ∧ c.toNat ≤ 102)

def hexEncode (b : Bytes) : Bytes :=
  b.flatMap fun x => [hexDigit (x.toNat / 16), hexDigit (x.toNat % 16)]

/-- The bytes of a text of digits, if it is one. -/
def hexDecode : Bytes → Option Bytes
  | [] => some []
  | [_] => none
  | high :: low :: rest => do
    let h ← hexValue high
    let l ← hexValue low
    let bytes ← hexDecode rest
    return UInt8.ofNat (h * 16 + l) :: bytes

theorem hexValue_hexDigit {n : ℕ} (h : n < 16) : hexValue (hexDigit n) = some n := by
  have hall : ∀ n < 16, hexValue (hexDigit n) = some n := by decide
  exact hall n h

theorem lowerHex_hexDigit {n : ℕ} (h : n < 16) : lowerHex (hexDigit n) = true := by
  have hall : ∀ n < 16, lowerHex (hexDigit n) = true := by decide
  exact hall n h

theorem hexDigit_of_hexValue {c : UInt8} {n : ℕ} (hc : lowerHex c = true) (h : hexValue c = some n) :
    n < 16 ∧ hexDigit n = c := by
  have hlower : 48 ≤ c.toNat ∧ c.toNat ≤ 57 ∨ 97 ≤ c.toNat ∧ c.toNat ≤ 102 := of_decide_eq_true hc
  have hof : UInt8.ofNat c.toNat = c := UInt8.ofNat_toNat
  unfold hexValue at h
  split_ifs at h with h₁ h₂ h₃
  · obtain rfl := Option.some.inj h
    refine ⟨by omega, ?_⟩
    unfold hexDigit
    rw [if_pos (by omega), Nat.add_sub_cancel' h₁.1, hof]
  · obtain rfl := Option.some.inj h
    refine ⟨by omega, ?_⟩
    unfold hexDigit
    rw [if_neg (by omega), Nat.add_sub_cancel' (by omega), hof]
  · omega

@[simp] theorem hexEncode_nil : hexEncode [] = [] := rfl

@[simp] theorem hexEncode_cons (x : UInt8) (b : Bytes) :
    hexEncode (x :: b) = hexDigit (x.toNat / 16) :: hexDigit (x.toNat % 16) :: hexEncode b := rfl

@[simp] theorem length_hexEncode (b : Bytes) : (hexEncode b).length = 2 * b.length := by
  induction b with
  | nil => rfl
  | cons x b ih =>
    simp only [hexEncode_cons, List.length_cons, ih]
    omega

theorem lowerHex_of_mem_hexEncode {b : Bytes} {c : UInt8} (h : c ∈ hexEncode b) :
    lowerHex c = true := by
  obtain ⟨x, -, hc⟩ := List.mem_flatMap.mp h
  have hx := x.toNat_lt
  rcases List.mem_cons.mp hc with rfl | hc
  · exact lowerHex_hexDigit (by omega)
  · rw [List.mem_singleton.mp hc]
    exact lowerHex_hexDigit (by omega)

theorem hexDecode_hexEncode (b : Bytes) : hexDecode (hexEncode b) = some b := by
  induction b with
  | nil => rfl
  | cons x b ih =>
    have hx := x.toNat_lt
    have hof : UInt8.ofNat (x.toNat / 16 * 16 + x.toNat % 16) = x := by
      rw [Nat.div_add_mod', UInt8.ofNat_toNat]
    rw [hexEncode_cons, hexDecode, hexValue_hexDigit (by omega), hexValue_hexDigit (by omega), ih]
    simp only [Option.bind_eq_bind, Option.bind_some, hof]
    rfl

theorem hexEncode_of_hexDecode : ∀ {s b : Bytes}, (∀ c ∈ s, lowerHex c = true) →
    hexDecode s = some b → hexEncode b = s
  | [], b, _, h => by
    obtain rfl := Option.some.inj h
    rfl
  | [_], _, _, h => by cases h
  | high :: low :: rest, b, hs, h => by
    simp only [hexDecode, Option.bind_eq_bind, Option.bind_eq_some_iff] at h
    obtain ⟨h₁, hhigh, l₁, hlow, bytes, hrest, hb⟩ := h
    obtain rfl := Option.some.inj hb
    obtain ⟨hh, hdh⟩ := hexDigit_of_hexValue (hs high (by simp)) hhigh
    obtain ⟨hl, hdl⟩ := hexDigit_of_hexValue (hs low (by simp)) hlow
    have ih := hexEncode_of_hexDecode (fun c hc => hs c (by simp [hc])) hrest
    have hn : (UInt8.ofNat (h₁ * 16 + l₁)).toNat = h₁ * 16 + l₁ := by
      rw [UInt8.toNat_ofNat']
      omega
    have hdiv : (h₁ * 16 + l₁) / 16 = h₁ := by omega
    have hmod : (h₁ * 16 + l₁) % 16 = l₁ := by omega
    rw [hexEncode_cons, hn, hdiv, hmod, hdh, hdl, ih]

end Rift.Lib
