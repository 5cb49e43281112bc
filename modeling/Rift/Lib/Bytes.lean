import Mathlib.Data.Nat.Digits.Lemmas
import Mathlib.Tactic.Ring
import Mathlib.Order.Defs.LinearOrder

/-! # Byte strings

Byte strings are lists of bytes. Arrays of a fixed length carry their length (`FixedBytes`) and are
ordered lexicographically, as byte arrays are. Numbers are written big-endian on a fixed number of
bytes (`toBE`), and read back from any byte string (`ofBE`):

* `ofBE_toBE`: reading what was written gives the number, if it fits;
* `toBE_ofBE`: writing what was read gives the bytes back. -/

namespace Rift.Lib

open Std

/-- A byte string. -/
abbrev Bytes := List UInt8

/-! ### Arrays of a fixed length -/

/-- A byte string of length `n`. -/
structure FixedBytes (n : ℕ) where
  toList : Bytes
  length_eq : toList.length = n
  deriving DecidableEq

namespace FixedBytes

variable {n : ℕ}

@[simp] theorem length_toList (a : FixedBytes n) : a.toList.length = n := a.length_eq

theorem toList_inj {a b : FixedBytes n} : a.toList = b.toList ↔ a = b := by
  cases a; cases b; simp

/-- The array with every byte equal to `b`. -/
def replicate (n : ℕ) (b : UInt8) : FixedBytes n := ⟨List.replicate n b, List.length_replicate⟩

instance : Ord (FixedBytes n) := ⟨fun a b => compare a.toList b.toList⟩

instance : TransOrd (FixedBytes n) where
  eq_swap {a b} := (OrientedOrd.eq_swap : compare a.toList b.toList = _)
  isLE_trans {a _ c} h h' :=
    (TransOrd.isLE_trans h h' : (compare a.toList c.toList).isLE = true)

instance : LawfulEqOrd (FixedBytes n) where
  eq_of_compare {a b} h :=
    toList_inj.mp (LawfulEqOrd.eq_of_compare (h : compare a.toList b.toList = .eq))

/-- There are finitely many byte strings of one length. -/
instance : Finite (FixedBytes n) := by
  have : Finite UInt8 := Finite.of_injective UInt8.toFin fun a b h => UInt8.toFin_inj.mp h
  refine Finite.of_injective (β := Fin n → UInt8)
    (fun a i => a.toList.get (i.cast a.length_eq.symm)) fun a b h => ?_
  refine toList_inj.mp (List.ext_get (by simp) fun i h₁ h₂ => ?_)
  exact congrFun h ⟨i, by simpa using h₁⟩

/-- The first `n` bytes of a byte string, if there are as many. -/
def ofBytes? (n : ℕ) (b : Bytes) : Option (FixedBytes n) :=
  if h : (b.take n).length = n then some ⟨b.take n, h⟩ else none

theorem ofBytes?_append (a : FixedBytes n) (r : Bytes) : ofBytes? n (a.toList ++ r) = some a := by
  have ht : (a.toList ++ r).take n = a.toList := by
    rw [List.take_append_of_le_length (by simp), List.take_of_length_le (by simp)]
  unfold ofBytes?
  simp only [ht, length_toList, dif_pos]

end FixedBytes

/-! ### Big-endian numbers -/

/-- The number written big-endian on `k` bytes. -/
def toBE : ℕ → ℕ → Bytes
  | 0, _ => []
  | k + 1, n => toBE k (n / 256) ++ [UInt8.ofNat (n % 256)]

/-- The number a byte string spells, most significant byte first. -/
def ofBE (b : Bytes) : ℕ := b.foldl (fun a x => a * 256 + x.toNat) 0

@[simp] theorem length_toBE : ∀ k n : ℕ, (toBE k n).length = k
  | 0, _ => rfl
  | k + 1, n => by simp [toBE, length_toBE k]

theorem ofBE_concat (b : Bytes) (x : UInt8) : ofBE (b ++ [x]) = ofBE b * 256 + x.toNat := by
  simp [ofBE]

theorem ofBE_toBE : ∀ {k n : ℕ}, n < 256 ^ k → ofBE (toBE k n) = n
  | 0, n, h => by
    have : n = 0 := by simpa using h
    subst this; rfl
  | k + 1, n, h => by
    have hd : n / 256 < 256 ^ k := by
      rw [Nat.div_lt_iff_lt_mul (by norm_num)]; rwa [pow_succ] at h
    have hm : (UInt8.ofNat (n % 256)).toNat = n % 256 := by
      rw [UInt8.toNat_ofNat']; omega
    rw [toBE, ofBE_concat, ofBE_toBE hd, hm]
    omega

theorem toBE_ofBE (b : Bytes) : toBE b.length (ofBE b) = b := by
  induction b using List.reverseRecOn with
  | nil => rfl
  | append_singleton b x ih =>
    have hx := x.toNat_lt
    rw [List.length_append, List.length_singleton, toBE, ofBE_concat]
    have h1 : (ofBE b * 256 + x.toNat) / 256 = ofBE b := by omega
    have h2 : (ofBE b * 256 + x.toNat) % 256 = x.toNat := by omega
    rw [h1, h2, ih, UInt8.ofNat_toNat]

theorem ofBE_injective {a b : Bytes} (hl : a.length = b.length) (h : ofBE a = ofBE b) : a = b := by
  rw [← toBE_ofBE a, ← toBE_ofBE b, hl, h]

/-! ### Changing one byte -/

theorem set_append_cases (a b : Bytes) (i : ℕ) (v : UInt8) :
    (i < a.length ∧ (a ++ b).set i v = a.set i v ++ b) ∨
      (a.length ≤ i ∧ (a ++ b).set i v = a ++ b.set (i - a.length) v) := by
  rcases Nat.lt_or_ge i a.length with h | h
  · exact Or.inl ⟨h, by rw [List.set_append_left _ _ h]⟩
  · exact Or.inr ⟨h, by rw [List.set_append_right _ _ h]⟩

end Rift.Lib
