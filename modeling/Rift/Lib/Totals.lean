import Mathlib.Algebra.BigOperators.Group.Finset.Basic
import Rift.Lib.Map

/-! # Adding up the entries of a map

What every entry of an ordered map is worth, added up. To keep account of something that entries hold
and pass on, it is enough to know what one update of the map is worth.

The main results are `total_insert`, `total_eq`, `total_modify` and `total_map`. -/

namespace Rift.Lib.Map

open Std

variable {K V M : Type} [Ord K] [TransOrd K] [LawfulEqOrd K] [DecidableEq K] [AddCommMonoid M]
  {f : V → M} {m : ExtTreeMap K V} {k : K} {v : V}

/-- What the entries of a map are worth together. -/
def total (f : V → M) (m : ExtTreeMap K V) : M := ∑ k ∈ keySet m, (m[k]?.map f).getD 0

omit [LawfulEqOrd K] in
@[simp] theorem total_empty : total f (∅ : ExtTreeMap K V) = 0 :=
  Finset.sum_eq_zero fun k _ => by simp

theorem total_congr {W : Type} {g : W → M} {m' : ExtTreeMap K W}
    (h : ∀ k : K, m[k]?.map f = m'[k]?.map g) : total f m = total g m' := by
  have hkeys : keySet m = keySet m' := by
    ext k
    have hk := congrArg Option.isSome (h k)
    simp only [Option.isSome_map] at hk
    rw [mem_keySet, mem_keySet, ← Option.isSome_iff_exists, ← Option.isSome_iff_exists, hk]
  unfold total
  rw [hkeys]
  exact Finset.sum_congr rfl fun k _ => by rw [h k]

theorem total_eq_sum (f : V → M) (m : ExtTreeMap K V) :
    total f m = (m.toList.map fun entry => f entry.2).sum := by
  have hkeys : m.keys = m.toList.map Prod.fst := ExtTreeMap.map_fst_toList_eq_keys.symm
  have hsum : total f m = (m.keys.map fun k => (m[k]?.map f).getD 0).sum :=
    List.sum_toFinset _ (ExtTreeMap.nodup_keys)
  rw [hsum, hkeys, List.map_map]
  refine congrArg List.sum (List.map_congr_left fun entry hmem => ?_)
  rw [ExtTreeMap.mem_toList_iff_getElem?_eq_some] at hmem
  simp [hmem]

theorem total_eq (f : V → M) (m : ExtTreeMap K V) (k : K) :
    total f m = (m[k]?.map f).getD 0 + total f (m.erase k) := by
  have hkeys : keySet (m.erase k) = (keySet m).erase k := by
    ext a
    simp only [mem_keySet, Finset.mem_erase, erase_eq_some, exists_and_left]
    exact ⟨fun h => ⟨Ne.symm h.1, h.2⟩, fun h => ⟨Ne.symm h.1, h.2⟩⟩
  have hothers : total f (m.erase k) = ∑ a ∈ (keySet m).erase k, (m[a]?.map f).getD 0 := by
    unfold total
    rw [hkeys]
    exact Finset.sum_congr rfl fun a ha => by rw [erase_ne (Ne.symm (Finset.ne_of_mem_erase ha))]
  rw [hothers]
  by_cases hk : k ∈ keySet m
  · exact (Finset.add_sum_erase _ _ hk).symm
  · have hnone : m[k]? = none := by
      rw [mem_keySet, not_exists] at hk
      exact Option.eq_none_iff_forall_ne_some.mpr hk
    rw [hnone, Finset.erase_eq_of_notMem hk]
    exact (zero_add _).symm

theorem total_of_eq_some (h : m[k]? = some v) : total f m = f v + total f (m.erase k) := by
  rw [total_eq f m k, h]
  rfl

theorem erase_insert_eq (m : ExtTreeMap K V) (k : K) (v : V) :
    (m.insert k v).erase k = m.erase k := by
  ext a : 1
  by_cases h : k = a
  · subst h
    simp
  · rw [erase_ne h, erase_ne h, insert_ne h]

theorem erase_modify_eq (m : ExtTreeMap K V) (k : K) (g : V → V) :
    (m.modify k g).erase k = m.erase k := by
  ext a : 1
  by_cases h : k = a
  · subst h
    simp
  · rw [erase_ne h, erase_ne h, modify_ne h]

theorem total_insert (f : V → M) (m : ExtTreeMap K V) (k : K) (v : V) :
    total f (m.insert k v) = f v + total f (m.erase k) := by
  rw [total_of_eq_some ExtTreeMap.getElem?_insert_self, erase_insert_eq]

theorem total_insert_of_none (h : m[k]? = none) : total f (m.insert k v) = f v + total f m := by
  rw [total_insert, total_eq f m k, h]
  congr 1
  exact (zero_add _).symm

theorem total_insert_of_eq {u : V} (h : m[k]? = some u) (hf : f v = f u) :
    total f (m.insert k v) = total f m := by
  rw [total_insert, total_of_eq_some h, hf]

theorem total_modify {u : V} {g : V → V} (h : m[k]? = some u) :
    total f (m.modify k g) = f (g u) + total f (m.erase k) := by
  rw [total_eq f _ k, modify_self, h, erase_modify_eq]
  rfl

theorem modify_of_none {g : V → V} (h : m[k]? = none) : m.modify k g = m := by
  ext a : 1
  by_cases ha : k = a
  · subst ha
    rw [modify_self, h]
    rfl
  · exact modify_ne ha

theorem total_map (f : V → M) (m : ExtTreeMap K V) (g : V → V) :
    total f (m.map fun _ v => g v) = total (f ∘ g) m :=
  total_congr fun k => by rw [ExtTreeMap.getElem?_map, Option.map_map]

omit [LawfulEqOrd K] in
theorem total_eq_zero (h : ∀ (k : K) (v : V), m[k]? = some v → f v = 0) : total f m = 0 := by
  refine Finset.sum_eq_zero fun k _ => ?_
  cases hk : m[k]? with
  | none => rfl
  | some v => exact h k v hk

end Rift.Lib.Map
