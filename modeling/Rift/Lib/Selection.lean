import Mathlib.Data.List.Basic
import Mathlib.Data.List.Perm.Basic

/-! # Taking the least, again and again

A strict total order picks the least element of a list by one pass over it. Taking the least element
out until nothing is left gives the elements in their order.

The main results are `foldl_pick_mem`, `foldl_pick_least`, `exists_order` and `head_of_least`. -/

namespace Rift.Lib.Selection

variable {α : Type} (r : α → α → Prop) [DecidableRel r]

/-- The lesser of two elements; the first of two that are the same. -/
def pick (a b : α) : α := if r b a then b else a

theorem foldl_pick_mem (l : List α) (a : α) : l.foldl (pick r) a ∈ a :: l := by
  induction l generalizing a with
  | nil => exact List.mem_singleton_self a
  | cons b l ih =>
    rw [List.foldl_cons]
    rcases List.mem_cons.mp (ih (pick r a b)) with h | h
    · rw [h]
      unfold pick
      split_ifs <;> simp
    · simp [h]

variable {r}

theorem foldl_pick_least (htrans : ∀ a b c, r a b → r b c → r a c)
    (htotal : ∀ a b, r a b ∨ a = b ∨ r b a) (l : List α) (a : α) :
    ∀ b ∈ a :: l, b = l.foldl (pick r) a ∨ r (l.foldl (pick r) a) b := by
  induction l generalizing a with
  | nil => simp
  | cons c l ih =>
    have hpick : ∀ b ∈ [a, c], b = pick r a c ∨ r (pick r a c) b := by
      unfold pick
      split_ifs with h
      · simp [h]
      · rcases htotal a c with h' | h' | h' <;> simp_all
    rw [List.foldl_cons]
    have hfirst := ih (pick r a c) _ List.mem_cons_self
    intro b hb
    by_cases hl : b ∈ l
    · exact ih _ b (List.mem_cons_of_mem _ hl)
    have hb : b ∈ [a, c] := by
      simp only [List.mem_cons] at hb ⊢
      tauto
    rcases hpick b hb with rfl | hb
    · exact hfirst
    · rcases hfirst with hfirst | hfirst
      · rw [hfirst] at hb
        exact Or.inr hb
      · exact Or.inr (htrans _ _ _ hfirst hb)

/-- **The elements in their order**: the least one, and then the others. -/
theorem exists_order [BEq α] [LawfulBEq α] (htrans : ∀ a b c, r a b → r b c → r a c)
    (htotal : ∀ a b, r a b ∨ a = b ∨ r b a) (l : List α) (hl : l.Nodup) :
    ∃ order : List α, order.Perm l ∧ order.Pairwise r := by
  induction hn : l.length generalizing l with
  | zero => exact ⟨[], by rw [List.length_eq_zero_iff.mp hn], List.Pairwise.nil⟩
  | succ n ih =>
    obtain ⟨a, rest, rfl⟩ := List.exists_cons_of_length_eq_add_one hn
    set e := rest.foldl (pick r) a
    have he : e ∈ a :: rest := foldl_pick_mem r rest a
    have hlen : ((a :: rest).erase e).length = n := by rw [List.length_erase_of_mem he, hn]; rfl
    obtain ⟨order, hperm, horder⟩ := ih _ (hl.erase e) hlen
    refine ⟨e :: order, (hperm.cons e).trans (List.perm_cons_erase he).symm, ?_⟩
    refine List.pairwise_cons.mpr ⟨fun b hb => ?_, horder⟩
    obtain ⟨hne, hmem⟩ := hl.mem_erase_iff.mp (hperm.mem_iff.mp hb)
    exact (foldl_pick_least htrans htotal rest a b hmem).resolve_left hne

omit [DecidableRel r] in
theorem head_of_least (hirrefl : ∀ a, ¬r a a) (htrans : ∀ a b c, r a b → r b c → r a c)
    {a e : α} {order : List α} (horder : (a :: order).Pairwise r) (he : e ∈ a :: order)
    (hleast : ∀ b ∈ a :: order, b = e ∨ r e b) : a = e := by
  rcases List.mem_cons.mp he with rfl | hmem
  · rfl
  · have hae : r a e := (List.pairwise_cons.mp horder).1 e hmem
    exact (hleast a List.mem_cons_self).resolve_right fun hea => hirrefl a (htrans a e a hae hea)

end Rift.Lib.Selection
