import Mathlib.Data.Finset.Card
import Std.Data.ExtTreeMap

/-! # Ordered maps, entry by entry

An invariant of a map says something about each of its entries. These are the entries after each
update, for keys whose order is equality-lawful, the keys as a finite set, and how many there are. -/

namespace Rift.Lib.Map

open Std

variable {K V : Type} [Ord K] [TransOrd K] [LawfulEqOrd K] {m : ExtTreeMap K V} {k a : K} {v w : V}

theorem insert_ne (h : k ≠ a) : (m.insert k v)[a]? = m[a]? := by
  rw [ExtTreeMap.getElem?_insert, if_neg]
  simpa using h

theorem erase_ne (h : k ≠ a) : (m.erase k)[a]? = m[a]? := by
  rw [ExtTreeMap.getElem?_erase, if_neg]
  simpa using h

theorem modify_ne {f : V → V} (h : k ≠ a) : (m.modify k f)[a]? = m[a]? := by
  rw [ExtTreeMap.getElem?_modify, if_neg]
  simpa using h

@[simp] theorem modify_self {f : V → V} : (m.modify k f)[k]? = m[k]?.map f := by
  rw [ExtTreeMap.getElem?_modify, if_pos]
  simp

theorem insert_eq_some :
    (m.insert k v)[a]? = some w ↔ k = a ∧ v = w ∨ k ≠ a ∧ m[a]? = some w := by
  by_cases h : k = a
  · subst h; simp
  · simp [insert_ne h, h]

theorem erase_eq_some : (m.erase k)[a]? = some w ↔ k ≠ a ∧ m[a]? = some w := by
  by_cases h : k = a
  · subst h; simp
  · simp [erase_ne h, h]

theorem modify_eq_some {f : V → V} :
    (m.modify k f)[a]? = some w ↔
      (k = a ∧ ∃ u, m[k]? = some u ∧ f u = w) ∨ k ≠ a ∧ m[a]? = some w := by
  by_cases h : k = a
  · subst h; simp
  · simp [modify_ne h, h]

theorem filter_eq_some {f : K → V → Bool} :
    (m.filter f)[a]? = some w ↔ m[a]? = some w ∧ f a w = true := by
  rw [ExtTreeMap.getElem?_filter', Option.filter_eq_some_iff]

theorem map_eq_some {W : Type} {f : K → V → W} {u : W} :
    (m.map f)[a]? = some u ↔ ∃ v, m[a]? = some v ∧ f a v = u := by
  rw [ExtTreeMap.getElem?_map, Option.map_eq_some_iff]

theorem map_insert {W : Type} (f : V → W) :
    (m.insert k v).map (fun _ => f) = (m.map fun _ => f).insert k (f v) := by
  refine ExtTreeMap.ext_getElem? fun {a} => ?_
  simp only [ExtTreeMap.getElem?_map, ExtTreeMap.getElem?_insert]
  split_ifs <;> rfl

theorem map_erase {W : Type} (f : V → W) :
    (m.erase k).map (fun _ => f) = (m.map fun _ => f).erase k := by
  refine ExtTreeMap.ext_getElem? fun {a} => ?_
  simp only [ExtTreeMap.getElem?_map, ExtTreeMap.getElem?_erase]
  split_ifs <;> rfl

omit [LawfulEqOrd K] in
theorem nodup_keys_filter (p : K × V → Bool) : ((m.toList.filter p).map Prod.fst).Nodup := by
  have hkeys : (m.toList.map Prod.fst).Nodup := by
    rw [ExtTreeMap.map_fst_toList_eq_keys]
    exact ExtTreeMap.nodup_keys
  exact hkeys.sublist (List.filter_sublist.map _)

theorem mem_toList_filter {p : K × V → Bool} {entry : K × V} :
    entry ∈ m.toList.filter p ↔ m[entry.1]? = some entry.2 ∧ p entry = true := by
  rw [List.mem_filter, ExtTreeMap.mem_toList_iff_getElem?_eq_some]

omit [LawfulEqOrd K] in
theorem mem_iff_exists : a ∈ m ↔ ∃ u, m[a]? = some u := by
  rw [ExtTreeMap.mem_iff_isSome_getElem?, Option.isSome_iff_exists]

omit [LawfulEqOrd K] in
theorem values_eq (m : ExtTreeMap K V) : m.values = m.toList.map Prod.snd := by
  obtain ⟨inner⟩ := m
  induction inner using ExtDTreeMap.inductionOn with
  | mk t =>
    show t.inner.values = (DTreeMap.Internal.Impl.Const.toList t.inner).map Prod.snd
    rw [DTreeMap.Internal.Impl.values_eq_map_snd,
      DTreeMap.Internal.Impl.Const.toList_eq_toListModel_map, List.map_map]
    rfl

omit [LawfulEqOrd K] in
theorem length_values (m : ExtTreeMap K V) : m.values.length = m.size := by
  rw [values_eq, List.length_map, ExtTreeMap.length_toList]

theorem mem_values : w ∈ m.values ↔ ∃ k : K, m[k]? = some w := by
  simp [values_eq, ExtTreeMap.mem_toList_iff_getElem?_eq_some]

variable [DecidableEq K]

/-- The keys of a map. -/
def keySet (m : ExtTreeMap K V) : Finset K := m.keys.toFinset

@[simp] theorem mem_keySet : a ∈ keySet m ↔ ∃ u, m[a]? = some u := by
  rw [keySet, List.mem_toFinset, ExtTreeMap.mem_keys, mem_iff_exists]

omit [LawfulEqOrd K] in
@[simp] theorem card_keySet : (keySet m).card = m.size := by
  rw [keySet, List.toFinset_card_of_nodup ExtTreeMap.nodup_keys, ExtTreeMap.length_keys]

omit [LawfulEqOrd K] [DecidableEq K] in
theorem size_insert_of_not_mem (h : a ∉ m) : (m.insert a v).size = m.size + 1 := by
  rw [ExtTreeMap.size_insert, if_neg (by rwa [ExtTreeMap.contains_iff_mem])]

theorem size_erase_of_mem (h : a ∈ m) : (m.erase a).size + 1 = m.size := by
  have herase : keySet (m.erase a) = (keySet m).erase a := by
    ext b
    simp only [mem_keySet, Finset.mem_erase, erase_eq_some]
    constructor
    · rintro ⟨u, hne, hu⟩
      exact ⟨Ne.symm hne, u, hu⟩
    · rintro ⟨hne, u, hu⟩
      exact ⟨u, Ne.symm hne, hu⟩
  rw [← card_keySet, ← card_keySet, herase]
  exact Finset.card_erase_add_one (mem_keySet.mpr (mem_iff_exists.mp h))

end Rift.Lib.Map
