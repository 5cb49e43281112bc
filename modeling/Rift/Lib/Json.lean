import Mathlib.Algebra.Order.BigOperators.Group.List
import Rift.Lib.Postcard

/-! # Compact JSON, and how long it gets

The text of a JSON value without white space, as bytes. How a byte of a string is escaped is a
parameter; all that matters to the length is how many bytes that takes.

The main results are `length_string_le`, `length_number_le`, `length_array_le` and
`length_object_le`. -/

namespace Rift.Lib.Json

open Postcard

section Text

variable (escape : UInt8 → Bytes)

/-- The items of a list with a comma between them. -/
def commas : List Bytes → Bytes
  | [] => []
  | [item] => item
  | item :: items => item ++ 44 :: commas items

/-- A string in quotes. -/
def string (s : String) : Bytes := 34 :: (utf8 s).flatMap escape ++ [34]

/-- A natural number in decimal. -/
def number (n : ℕ) : Bytes := (Nat.toDigits 10 n).map fun digit => UInt8.ofNat digit.toNat

def null : Bytes := utf8 "null"

def bool (b : Bool) : Bytes := utf8 (if b then "true" else "false")

/-- Items between square brackets. -/
def array (items : List Bytes) : Bytes := 91 :: commas items ++ [93]

/-- Fields between braces. -/
def object (fields : List (String × Bytes)) : Bytes :=
  123 :: commas (fields.map fun field => string escape field.1 ++ 58 :: field.2) ++ [125]

/-- A value that may be absent. -/
def option {α : Type} (render : α → Bytes) : Option α → Bytes
  | none => null
  | some a => render a

end Text

/-! ### Lengths -/

theorem length_commas_le (items : List Bytes) :
    (commas items).length ≤ (items.map fun item => item.length + 1).sum := by
  induction items with
  | nil => simp [commas]
  | cons item items ih =>
    cases items with
    | nil => simp [commas]
    | cons next items =>
      simp only [commas, List.length_append, List.length_cons, List.map_cons, List.sum_cons] at ih ⊢
      omega

theorem length_array_le {α : Type} (render : α → Bytes) {items : List α} {n c : ℕ}
    (hn : items.length ≤ n) (hc : ∀ item ∈ items, (render item).length ≤ c) :
    (array (items.map render)).length ≤ 2 + n * (c + 1) := by
  have hsum : ((items.map render).map fun item => item.length + 1).sum ≤
      items.length * (c + 1) := by
    have := List.sum_le_card_nsmul ((items.map render).map fun item => item.length + 1) (c + 1) (by
      simpa using fun item h => hc item h)
    simpa using this
  have hcommas := length_commas_le (items.map render)
  have hmul := Nat.mul_le_mul_right (c + 1) hn
  simp only [array, List.length_cons, List.length_append, List.length_nil]
  omega

/-- Escaping takes at most `k` bytes for one. -/
def EscapesTo (escape : UInt8 → Bytes) (k : ℕ) : Prop := ∀ b, (escape b).length ≤ k

section Escaped

variable {escape : UInt8 → Bytes} {k : ℕ}

theorem EscapesTo.length_flatMap_le (h : EscapesTo escape k) (b : Bytes) :
    (b.flatMap escape).length ≤ k * b.length := by
  induction b with
  | nil => simp
  | cons x b ih =>
    have hx := h x
    rw [List.flatMap_cons, List.length_append, List.length_cons, Nat.mul_succ]
    omega

theorem length_string_le (h : EscapesTo escape k) {s : String} {n : ℕ} (hs : s.utf8ByteSize ≤ n) :
    (string escape s).length ≤ 2 + k * n := by
  have hflat := h.length_flatMap_le (utf8 s)
  have hmul := Nat.mul_le_mul_left k hs
  rw [length_utf8] at hflat
  simp only [string, List.length_cons, List.length_append, List.length_nil]
  omega

theorem length_object_le (h : EscapesTo escape k) {fields : List (String × Bytes)} {n : ℕ}
    (hn : (fields.map Prod.fst).all (·.utf8ByteSize ≤ n) = true) :
    (object escape fields).length ≤
      2 + (fields.map fun field => field.2.length + (4 + k * n)).sum := by
  have hcommas := length_commas_le
    (fields.map fun field => string escape field.1 ++ 58 :: field.2)
  have hsum : ((fields.map fun field => string escape field.1 ++ 58 :: field.2).map
      fun item => item.length + 1).sum ≤
      (fields.map fun field => field.2.length + (4 + k * n)).sum := by
    rw [List.map_map]
    refine List.sum_le_sum fun field hf => ?_
    have hsize := List.all_eq_true.mp hn field.1 (List.mem_map_of_mem hf)
    have hname := length_string_le h (of_decide_eq_true hsize)
    simp only [Function.comp_apply, List.length_append, List.length_cons]
    omega
  simp only [object, List.length_cons, List.length_append, List.length_nil]
  omega

end Escaped

theorem length_number_le {n e : ℕ} (he : 0 < e) (h : n < 10 ^ e) : (number n).length ≤ e := by
  rw [number, List.length_map]
  exact Nat.toDigits_length 10 n e he h

theorem length_option_le {α : Type} (render : α → Bytes) {c : ℕ} {a : Option α} (hc : 4 ≤ c)
    (h : ∀ x ∈ a, (render x).length ≤ c) : (option render a).length ≤ c := by
  cases a with
  | none => exact hc
  | some x => exact h x rfl

theorem length_bool_le (b : Bool) : (bool b).length ≤ 5 := by cases b <;> decide

end Rift.Lib.Json
