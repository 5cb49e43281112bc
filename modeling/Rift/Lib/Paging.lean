import Mathlib.Data.Fintype.EquivFin
import Rift.Lib.Map

/-! # Pages of an ordered listing

A listing is a list of entries in increasing order of their keys. A page of it is the first entries
after an exclusive cursor; it names the cursor of the next page while there are more entries. A
traversal follows the cursors. The listing may change between two of its pages.

The main results are `IsPage.cases`, `traverse_some`, `Serves.ends`, `Traversed.of_traverse`,
`Serves.complete` and `pages_eq`. -/

namespace Rift.Lib.Paging

open Std

variable {K V E : Type} [Ord K]

/-- The entries are in strictly increasing order of their keys. -/
def Ordered (l : List (K × V)) : Prop := l.Pairwise fun a b => compare a.1 b.1 = .lt

/-- The entries after an exclusive cursor. -/
def after (l : List (K × V)) : Option K → List (K × V)
  | none => l
  | some cursor => l.filter fun entry => compare cursor entry.1 = .lt

/-- One page, and the cursor of the next one. -/
def page (l : List (K × V)) (cursor : Option K) (limit : ℕ) : List (K × V) × Option K :=
  let found := (after l cursor).take (limit + 1)
  let entries := found.take limit
  (entries, if limit < found.length then entries.getLast?.map Prod.fst else none)

/-- The pages from a cursor on, at most `fuel` of them. -/
def pages (l : List (K × V)) (limit : ℕ) : ℕ → Option K → List (K × V)
  | 0, _ => []
  | fuel + 1, cursor =>
    match page l cursor limit with
    | (entries, none) => entries
    | (entries, some next) => entries ++ pages l limit fuel (some next)

/-! ### Pages -/

section Pages

variable (key : E → K)

/-- The key comes after an exclusive cursor. -/
def beyond (cursor : Option K) (k : K) : Prop := ∀ c ∈ cursor, compare c k = .lt

instance (cursor : Option K) (k : K) : Decidable (beyond cursor k) :=
  inferInstanceAs (Decidable (∀ c ∈ cursor, _))

/-- The entries of a listing that are after an exclusive cursor. -/
def left (l : List E) (cursor : Option K) : List E := l.filter fun e => beyond cursor (key e)

/-- The result of a request for one page: the first entries after the cursor, and the key of the
last one when it leaves entries out. -/
structure IsPage (l : List E) (cursor : Option K) (limit : ℕ) (r : List E × Option K) : Prop where
  entries : r.1 = (left key l cursor).take limit
  next : r.2 = if limit < (left key l cursor).length then r.1.getLast?.map key else none

variable {key}

theorem mem_left {l : List E} {cursor : Option K} {e : E} :
    e ∈ left key l cursor ↔ e ∈ l ∧ beyond cursor (key e) := by
  simp [left]

@[simp] theorem beyond_none (k : K) : beyond none k := nofun

@[simp] theorem beyond_some {c k : K} : beyond (some c) k ↔ compare c k = .lt := by
  simp [beyond]

theorem left_none (l : List E) : left key l none = l :=
  List.filter_eq_self.mpr fun e _ => decide_eq_true (beyond_none (key e))

theorem after_eq_left (l : List (K × V)) (cursor : Option K) :
    after l cursor = left Prod.fst l cursor := by
  cases cursor with
  | none => exact (left_none l).symm
  | some c => simp only [after, left, beyond_some]

theorem lt_length_take_succ {l : List E} {limit : ℕ} :
    limit < (l.take (limit + 1)).length ↔ limit < l.length := by
  rw [List.length_take]
  omega

theorem isPage_truncate {l found : List E} {cursor : Option K} {limit : ℕ}
    (h : found = (left key l cursor).take (limit + 1)) :
    IsPage key l cursor limit (found.take limit,
      if limit < found.length then (found.take limit).getLast?.map key else none) where
  entries := by rw [h, List.take_take, Nat.min_eq_left (Nat.le_succ limit)]
  next := by simp only [h, lt_length_take_succ]

theorem isPage_pop {l found : List E} {cursor : Option K} {limit : ℕ}
    (h : found = (left key l cursor).take (limit + 1)) :
    IsPage key l cursor limit
      (if limit < found.length then (found.dropLast, found.dropLast.getLast?.map key)
        else (found, none)) := by
  have htrunc := isPage_truncate h
  by_cases hlt : limit < found.length
  · have hpop : found.dropLast = found.take limit := by
      have hlen : found.length = limit + 1 := by
        rw [h, List.length_take] at hlt ⊢
        omega
      rw [List.dropLast_eq_take, hlen, Nat.add_sub_cancel]
    rw [if_pos hlt] at htrunc ⊢
    rwa [hpop]
  · rw [if_neg hlt] at htrunc ⊢
    rwa [List.take_of_length_le (Nat.not_lt.mp hlt)] at htrunc

theorem isPage_page (l : List (K × V)) (cursor : Option K) (limit : ℕ) :
    IsPage Prod.fst l cursor limit (page l cursor limit) :=
  isPage_truncate (by rw [after_eq_left])

theorem left_map {l : List (K × V)} {f : K × V → E} (h : ∀ e ∈ l, key (f e) = e.1)
    (cursor : Option K) : left key (l.map f) cursor = (after l cursor).map f := by
  unfold left
  rw [List.filter_map, after_eq_left]
  congr 1
  refine List.filter_congr fun e he => ?_
  simp only [Function.comp_apply, h e he]

/-- **What a page is.** It holds all that is left, or it names the key of its last entry, and every
entry that it leaves out is beyond that. -/
theorem IsPage.cases {l : List E} {cursor : Option K} {limit : ℕ} {r : List E × Option K}
    (h : IsPage key l cursor limit r) (hlimit : 0 < limit) :
    r = (left key l cursor, none) ∨
      ∃ front e back, r = (front ++ [e], some (key e)) ∧
        left key l cursor = front ++ e :: back := by
  obtain ⟨entries, next⟩ := r
  obtain ⟨rfl, hnext⟩ := h
  by_cases hlt : limit < (left key l cursor).length
  · right
    rw [if_pos hlt] at hnext
    obtain ⟨front, e, hlast⟩ : ∃ front e, (left key l cursor).take limit = front ++ [e] := by
      refine (List.eq_nil_or_concat' _).resolve_left fun hnil => ?_
      have := congrArg List.length hnil
      rw [List.length_take, List.length_nil] at this
      omega
    refine ⟨front, e, (left key l cursor).drop limit, ?_, ?_⟩
    · simp only at hnext
      rw [hnext, hlast, List.getLast?_concat]
      rfl
    · calc left key l cursor
          = (left key l cursor).take limit ++ (left key l cursor).drop limit :=
            (List.take_append_drop ..).symm
        _ = front ++ e :: (left key l cursor).drop limit := by rw [hlast]; simp
  · left
    rw [if_neg hlt] at hnext
    simp only at hnext
    rw [hnext, List.take_of_length_le (Nat.not_lt.mp hlt)]

variable [TransOrd K]

theorem beyond_trans {cursor : Option K} {k k' : K} (h : beyond cursor k)
    (hlt : compare k k' = .lt) : beyond cursor k' :=
  fun c hc => TransCmp.lt_trans (h c hc) hlt

theorem not_beyond_self (k : K) : ¬ beyond (some k) k := by
  simp

end Pages

/-! ### Traversals -/

section Traversal

/-- Follows the cursors from one on, for at most `fuel` pages; `fetch i` answers request number
`i`. -/
def traverse : ℕ → (ℕ → Option K → Option (List E × Option K)) → Option K →
    Option (List (List E))
  | 0, _, _ => none
  | fuel + 1, fetch, cursor =>
    match fetch 0 cursor with
    | none => none
    | some (entries, none) => some [entries]
    | some (entries, some next) =>
      (traverse fuel (fun i => fetch (i + 1)) (some next)).map (entries :: ·)

/-- Request number `i` is answered with a page of listing number `i`. -/
def Serves (key : E → K) (fetch : ℕ → Option K → Option (List E × Option K))
    (listing : ℕ → List E) (limit : ℕ → ℕ) : Prop :=
  ∀ i cursor, ∃ r, fetch i cursor = some r ∧ IsPage key (listing i) cursor (limit i) r

/-- The entries are in strictly increasing order of their keys. -/
def Increasing (key : E → K) (l : List E) : Prop :=
  l.Pairwise fun a b => compare (key a) (key b) = .lt

variable {key : E → K} {fetch : ℕ → Option K → Option (List E × Option K)}
  {listing : ℕ → List E} {limit : ℕ → ℕ} {cursor : Option K} {pages : List (List E)}

omit [Ord K] in
/-- **A traversal ends** when something goes down from each cursor to the next. -/
theorem traverse_some {μ : Option K → ℕ} (fuel : ℕ)
    (h : ∀ i cursor, ∃ entries next, fetch i cursor = some (entries, next) ∧
      ∀ c ∈ next, μ (some c) < μ cursor) (hfuel : μ cursor < fuel) :
    ∃ pages, traverse fuel fetch cursor = some pages := by
  induction fuel generalizing fetch cursor with
  | zero => omega
  | succ fuel ih =>
    obtain ⟨entries, next, hfetch, hnext⟩ := h 0 cursor
    unfold traverse
    rw [hfetch]
    cases next with
    | none => exact ⟨[entries], rfl⟩
    | some c =>
      have hc := hnext c rfl
      obtain ⟨tail, htail⟩ := ih (fun i => h (i + 1)) (show μ (some c) < fuel by omega)
      exact ⟨entries :: tail, by simp only [htail, Option.map_some]⟩

/-- What the pages of a traversal hold that starts at a cursor. -/
structure Traversed (key : E → K) (listing : ℕ → List E) (limit : ℕ → ℕ) (cursor : Option K)
    (pages : List (List E)) : Prop where
  nonempty : 0 < pages.length
  bounded : ∀ i page, pages[i]? = some page → page.length ≤ limit i
  current : ∀ i page, pages[i]? = some page → ∀ e ∈ page, e ∈ listing i
  later : ∀ e ∈ pages.flatten, beyond cursor (key e)
  increasing : Increasing key pages.flatten
  reaches : ∀ k, beyond cursor k → (∀ i < pages.length, ∃ e ∈ listing i, key e = k) →
    ∃ e ∈ pages.flatten, key e = k

theorem Increasing.left {l : List E} (h : Increasing key l) (cursor : Option K) :
    Increasing key (left key l cursor) :=
  h.sublist List.filter_sublist

theorem Traversed.last (hinc : Increasing key (listing 0))
    (hlen : (left key (listing 0) cursor).length ≤ limit 0) :
    Traversed key listing limit cursor [left key (listing 0) cursor] where
  nonempty := Nat.one_pos
  bounded := by
    rintro (_ | i) page hp
    · cases hp
      exact hlen
    · simp at hp
  current := by
    rintro (_ | i) page hp e he
    · cases hp
      exact (mem_left.mp he).1
    · simp at hp
  later := by
    intro e he
    rw [List.flatten_singleton] at he
    exact (mem_left.mp he).2
  increasing := by
    rw [List.flatten_singleton]
    exact hinc.left cursor
  reaches := by
    intro k hk hall
    obtain ⟨e, he, rfl⟩ := hall 0 Nat.one_pos
    exact ⟨e, by rw [List.flatten_singleton]; exact mem_left.mpr ⟨he, hk⟩, rfl⟩

variable [TransOrd K]

theorem Traversed.more {front back : List E} {e : E} {tail : List (List E)}
    (hinc : Increasing key (listing 0))
    (hleft : left key (listing 0) cursor = front ++ e :: back)
    (hlen : (front ++ [e]).length ≤ limit 0)
    (h : Traversed key (fun i => listing (i + 1)) (fun i => limit (i + 1)) (some (key e)) tail) :
    Traversed key listing limit cursor ((front ++ [e]) :: tail) := by
  have hmem {a : E} (ha : a ∈ front ++ [e]) : a ∈ left key (listing 0) cursor := by
    rw [hleft, List.append_cons]
    exact List.mem_append_left back ha
  have hord := hinc.left cursor
  rw [hleft] at hord
  obtain ⟨hfront, hback, hcross⟩ := List.pairwise_append.mp hord
  have hle {a : E} (ha : a ∈ front ++ [e]) {k : K} (hk : beyond (some (key e)) k) :
      compare (key a) k = .lt := by
    rw [beyond_some] at hk
    rcases List.mem_append.mp ha with ha | ha
    · exact TransCmp.lt_trans (hcross a ha e List.mem_cons_self) hk
    · rwa [List.mem_singleton.mp ha]
  refine ⟨Nat.succ_pos _, ?_, ?_, ?_, ?_, ?_⟩
  · rintro (_ | i) page hp
    · cases hp
      exact hlen
    · exact h.bounded i page hp
  · rintro (_ | i) page hp a ha
    · cases hp
      exact (mem_left.mp (hmem ha)).1
    · exact h.current i page hp a ha
  · intro a ha
    rw [List.flatten_cons] at ha
    rcases List.mem_append.mp ha with ha | ha
    · exact (mem_left.mp (hmem ha)).2
    · have he := (mem_left.mp (hmem (List.mem_append_right front List.mem_cons_self))).2
      exact beyond_trans he (beyond_some.mp (h.later a ha))
  · rw [List.flatten_cons]
    refine List.pairwise_append.mpr ⟨?_, h.increasing, fun a ha b hb => hle ha (h.later b hb)⟩
    rw [List.append_cons] at hord
    exact (List.pairwise_append.mp hord).1
  · intro k hk hall
    obtain ⟨a, ha, rfl⟩ := hall 0 (Nat.succ_pos _)
    have hfound : a ∈ (front ++ [e]) ++ back := by
      rw [← List.append_cons, ← hleft]
      exact mem_left.mpr ⟨ha, hk⟩
    rw [List.flatten_cons]
    rcases List.mem_append.mp hfound with hpage | hrest
    · exact ⟨a, List.mem_append_left _ hpage, rfl⟩
    · -- An entry that the page leaves out is beyond its cursor, so the rest of the traversal has it.
      have hlater : beyond (some (key e)) (key a) :=
        beyond_some.mpr ((List.pairwise_cons.mp hback).1 a hrest)
      obtain ⟨b, hb, hkey⟩ := h.reaches (key a) hlater fun i hi => hall (i + 1) (Nat.succ_lt_succ hi)
      exact ⟨b, List.mem_append_right _ hb, hkey⟩

/-- **The pages of a traversal.** -/
theorem Traversed.of_traverse {fuel : ℕ} (hserves : Serves key fetch listing limit)
    (hinc : ∀ i, Increasing key (listing i)) (hlimit : ∀ i, 0 < limit i)
    (h : traverse fuel fetch cursor = some pages) :
    Traversed key listing limit cursor pages := by
  induction fuel generalizing fetch listing limit cursor pages with
  | zero => cases h
  | succ fuel ih =>
    obtain ⟨r, hfetch, hpage⟩ := hserves 0 cursor
    have hlen : r.1.length ≤ limit 0 := by
      rw [hpage.entries, List.length_take]
      exact Nat.min_le_left ..
    unfold traverse at h
    rw [hfetch] at h
    rcases hpage.cases (hlimit 0) with rfl | ⟨front, e, back, rfl, hleft⟩
    · cases h
      exact Traversed.last (hinc 0) hlen
    · obtain ⟨tail, htail, rfl⟩ := Option.map_eq_some_iff.mp h
      exact Traversed.more (hinc 0) hleft hlen
        (ih (fun i => hserves (i + 1)) (fun i => hinc (i + 1)) (fun i => hlimit (i + 1)) htail)

end Traversal

/-! ### What is complete about a traversal -/

section Complete

variable [TransOrd K] [LawfulEqOrd K] {key : E → K} {listing : ℕ → List E} {limit : ℕ → ℕ}
  {fetch : ℕ → Option K → Option (List E × Option K)} {pages : List (List E)}

omit [TransOrd K] in
theorem Increasing.nodup_keys {l : List E} (h : Increasing key l) : (l.map key).Nodup := by
  refine List.pairwise_map.mpr (h.imp fun {a b} hlt heq => ?_)
  have hself : compare (key a) (key a) = .eq := ReflCmp.compare_self
  rw [← heq, hself] at hlt
  cases hlt

theorem Increasing.eq_of_mem_iff {l l' : List E} (h : Increasing key l) (h' : Increasing key l')
    (hmem : ∀ e, e ∈ l ↔ e ∈ l') : l = l' := by
  have hperm : l.Perm l' :=
    (List.perm_ext_iff_of_nodup h.nodup_keys.of_map h'.nodup_keys.of_map).mpr hmem
  refine hperm.eq_of_pairwise (fun a b _ _ hab hba => ?_) h h'
  rw [OrientedCmp.gt_of_lt hab] at hba
  cases hba

omit [TransOrd K] [LawfulEqOrd K] in
theorem Increasing.keys {l : List E} (h : Increasing key l) : Increasing id (l.map key) :=
  List.pairwise_map.mpr h

omit [TransOrd K] in
theorem Traversed.once [DecidableEq K] (h : Traversed key listing limit none pages) {k : K}
    (hk : ∀ i < pages.length, ∃ e ∈ listing i, key e = k) : (pages.flatten.map key).count k = 1 := by
  obtain ⟨e, he, rfl⟩ := h.reaches k (beyond_none k) hk
  exact List.count_eq_one_of_mem h.increasing.nodup_keys (List.mem_map_of_mem he)

omit [TransOrd K] [LawfulEqOrd K] in
theorem Traversed.mem_listing (h : Traversed key listing limit none pages) {e : E}
    (he : e ∈ pages.flatten) : ∃ i < pages.length, e ∈ listing i := by
  obtain ⟨page, hp, he⟩ := List.mem_flatten.mp he
  obtain ⟨i, hi⟩ := List.mem_iff_getElem?.mp hp
  exact ⟨i, (List.getElem?_eq_some_iff.mp hi).1, h.current i page hi e he⟩

theorem Traversed.keys {ks : List K} (h : Traversed key listing limit none pages)
    (hinc : Increasing key (listing 0)) (hks : ∀ i < pages.length, (listing i).map key = ks) :
    pages.flatten.map key = ks := by
  have h₀ := hinc.keys
  rw [hks 0 h.nonempty] at h₀
  refine h.increasing.keys.eq_of_mem_iff h₀ fun k => ⟨fun hk => ?_, fun hk => ?_⟩
  · obtain ⟨e, he, rfl⟩ := List.mem_map.mp hk
    obtain ⟨i, hi, he⟩ := h.mem_listing he
    rw [← hks i hi]
    exact List.mem_map_of_mem he
  · refine List.mem_map.mpr (h.reaches k (beyond_none k) fun i hi => ?_)
    rw [← hks i hi] at hk
    exact List.mem_map.mp hk

theorem Traversed.whole {l : List E} (h : Traversed key listing limit none pages)
    (hinc : Increasing key l) (hl : ∀ i < pages.length, listing i = l) : pages.flatten = l := by
  have h₀ : listing 0 = l := hl 0 h.nonempty
  have hkeys := h.keys (h₀ ▸ hinc) fun i hi => by rw [hl i hi]
  have hsub {e : E} (he : e ∈ pages.flatten) : e ∈ l := by
    obtain ⟨i, hi, he⟩ := h.mem_listing he
    rwa [hl i hi] at he
  refine h.increasing.eq_of_mem_iff hinc fun e => ⟨hsub, fun he => ?_⟩
  have hk : key e ∈ pages.flatten.map key := by
    rw [hkeys]
    exact List.mem_map_of_mem he
  obtain ⟨e', he', hkey⟩ := List.mem_map.mp hk
  have := List.inj_on_of_nodup_map hinc.nodup_keys (hsub he') he hkey
  rwa [← this]

omit [TransOrd K] [LawfulEqOrd K] in
theorem IsPage.next_mem {l : List E} {cursor : Option K} {n : ℕ} {r : List E × Option K}
    (h : IsPage key l cursor n r) (hn : 0 < n) {c : K} (hc : c ∈ r.2) :
    ∃ e ∈ left key l cursor, key e = c := by
  rcases h.cases hn with rfl | ⟨front, e, back, rfl, hleft⟩
  · cases hc
  · refine ⟨e, ?_, Option.some.inj hc⟩
    rw [hleft]
    exact List.mem_append_right front List.mem_cons_self

omit [LawfulEqOrd K] in
/-- **A traversal ends** after as many pages as there are keys, whatever the listing does in
between. -/
theorem Serves.ends (h : Serves key fetch listing limit) (hlimit : ∀ i, 0 < limit i) {S : Finset K}
    (hS : ∀ i, ∀ e ∈ listing i, key e ∈ S) {fuel : ℕ} (hfuel : S.card < fuel) :
    ∃ pages, traverse fuel fetch none = some pages := by
  refine traverse_some (μ := fun cursor => (S.filter (beyond cursor)).card) fuel
    (fun i cursor => ?_) (Nat.lt_of_le_of_lt (Finset.card_filter_le ..) hfuel)
  obtain ⟨r, hr, hpage⟩ := h i cursor
  refine ⟨r.1, r.2, hr, fun c hc => Finset.card_lt_card ?_⟩
  obtain ⟨e, he, rfl⟩ := hpage.next_mem (hlimit i) hc
  obtain ⟨hmem, hlater⟩ := mem_left.mp he
  refine Finset.ssubset_iff_subset_ne.mpr ⟨fun k hk => ?_, fun heq => ?_⟩
  · obtain ⟨hkS, hk⟩ := Finset.mem_filter.mp hk
    exact Finset.mem_filter.mpr ⟨hkS, beyond_trans hlater (beyond_some.mp hk)⟩
  · have hself := Finset.mem_filter.mpr ⟨hS i e hmem, hlater⟩
    rw [← heq] at hself
    exact not_beyond_self _ (Finset.mem_filter.mp hself).2

end Complete

/-! ### Listing a map -/

section Listed

variable [TransOrd K] [LawfulEqOrd K] [DecidableEq K]

/-- What a client reads, by following the cursors, of a map that may change between its requests:
`maps i` is the map when page `i` is read, and `entry i` shows an entry then. -/
structure Listed (maps : ℕ → ExtTreeMap K V) (entry : ℕ → K × V → E) (key : E → K)
    (limit : ℕ → ℕ) (pages : List (List E)) : Prop where
  bounded : ∀ i page, pages[i]? = some page → page.length ≤ limit i
  current : ∀ i page, pages[i]? = some page →
    ∀ e ∈ page, ∃ k v, (maps i)[k]? = some v ∧ e = entry i (k, v)
  increasing : (pages.flatten.map key).Pairwise fun a b => compare a b = .lt
  once : ∀ k, (∀ i < pages.length, k ∈ maps i) → (pages.flatten.map key).count k = 1
  keys : ∀ m, (∀ i < pages.length, maps i = m) → pages.flatten.map key = m.keys
  whole : ∀ m f, (∀ i < pages.length, maps i = m ∧ entry i = f) → pages.flatten = m.toList.map f

variable {maps : ℕ → ExtTreeMap K V} {entry : ℕ → K × V → E} {key : E → K} {limit : ℕ → ℕ}
  {pages : List (List E)}

omit [LawfulEqOrd K] [DecidableEq K] in
theorem increasing_shown {m : ExtTreeMap K V} {f : K × V → E}
    (hkey : ∀ e ∈ m.toList, key (f e) = e.1) : Increasing key (m.toList.map f) := by
  refine List.pairwise_map.mpr (ExtTreeMap.ordered_keys_toList.imp_of_mem fun {a b} ha hb h => ?_)
  rwa [hkey a ha, hkey b hb]

theorem Traversed.listed (h : Traversed key (fun i => (maps i).toList.map (entry i)) limit none pages)
    (hkey : ∀ i, ∀ e ∈ (maps i).toList, key (entry i e) = e.1) :
    Listed maps entry key limit pages where
  bounded := h.bounded
  current := by
    intro i page hp e he
    obtain ⟨⟨k, v⟩, hkv, rfl⟩ := List.mem_map.mp (h.current i page hp e he)
    exact ⟨k, v, ExtTreeMap.mem_toList_iff_getElem?_eq_some.mp hkv, rfl⟩
  increasing := h.increasing.keys
  once := by
    intro k hk
    refine h.once fun i hi => ?_
    obtain ⟨v, hv⟩ := Map.mem_iff_exists.mp (hk i hi)
    have hmem := ExtTreeMap.mem_toList_iff_getElem?_eq_some.mpr hv
    exact ⟨entry i (k, v), List.mem_map_of_mem hmem, hkey i _ hmem⟩
  keys := by
    intro m hm
    refine h.keys (increasing_shown (hkey 0)) fun i hi => ?_
    rw [← hm i hi, List.map_map, ← ExtTreeMap.map_fst_toList_eq_keys]
    exact List.map_congr_left (hkey i)
  whole := by
    intro m f hm
    obtain ⟨rfl, rfl⟩ := hm 0 h.nonempty
    refine h.whole (increasing_shown (hkey 0)) fun i hi => ?_
    obtain ⟨hmap, hentry⟩ := hm i hi
    simp only [hmap, hentry]

/-- Following the cursors of requests against a map that may change in between: it ends, after as
many pages as there are keys, and what it reads is complete. -/
structure Complete (fetch : ℕ → Option K → Option (List E × Option K))
    (maps : ℕ → ExtTreeMap K V) (entry : ℕ → K × V → E) (key : E → K) (limit : ℕ → ℕ) : Prop where
  ends : ∃ fuel pages, traverse fuel fetch none = some pages
  within : ∀ S : Finset K, (∀ i, ∀ k ∈ maps i, k ∈ S) →
    ∃ pages, traverse (S.card + 1) fetch none = some pages
  listed : ∀ fuel pages, traverse fuel fetch none = some pages → Listed maps entry key limit pages

/-- **Requests that are answered with pages of the map list it completely.** -/
theorem Serves.complete [Finite K] {fetch : ℕ → Option K → Option (List E × Option K)}
    (h : Serves key fetch (fun i => (maps i).toList.map (entry i)) limit)
    (hlimit : ∀ i, 0 < limit i) (hkey : ∀ i, ∀ e ∈ (maps i).toList, key (entry i e) = e.1) :
    Complete fetch maps entry key limit := by
  have hwithin (S : Finset K) (hS : ∀ i, ∀ k ∈ maps i, k ∈ S) :
      ∃ pages, traverse (S.card + 1) fetch none = some pages := by
    refine h.ends hlimit (fun i e he => ?_) (Nat.lt_succ_self _)
    obtain ⟨kv, hkv, rfl⟩ := List.mem_map.mp he
    rw [hkey i kv hkv]
    exact hS i kv.1 (Map.mem_iff_exists.mpr
      ⟨kv.2, ExtTreeMap.mem_toList_iff_getElem?_eq_some.mp hkv⟩)
  have := Fintype.ofFinite K
  refine ⟨⟨_, hwithin Finset.univ fun _ k _ => Finset.mem_univ k⟩, hwithin, fun fuel pages hp => ?_⟩
  exact (Traversed.of_traverse h (fun i => increasing_shown (hkey i)) hlimit hp).listed hkey

end Listed

/-! ### One listing -/

theorem pages_eq_flatten {l : List (K × V)} {limit fuel : ℕ} {cursor : Option K}
    {found : List (List (K × V))}
    (h : traverse fuel (fun _ cursor => some (page l cursor limit)) cursor = some found) :
    pages l limit fuel cursor = found.flatten := by
  induction fuel generalizing cursor found with
  | zero => cases h
  | succ fuel ih =>
    unfold traverse at h
    unfold pages
    rcases hpage : page l cursor limit with ⟨entries, _ | next⟩ <;> simp only [hpage] at h ⊢
    · cases h
      exact List.flatten_singleton.symm
    · obtain ⟨tail, htail, rfl⟩ := Option.map_eq_some_iff.mp h
      rw [ih htail, List.flatten_cons]

/-- **Following the cursors from the start gives the whole listing.** -/
theorem pages_eq [TransOrd K] [LawfulEqOrd K] {l : List (K × V)} (h : Ordered l) {limit : ℕ}
    (hlimit : 0 < limit) {fuel : ℕ} (hf : l.length < fuel) : pages l limit fuel none = l := by
  have hserves : Serves Prod.fst (fun _ cursor => some (page l cursor limit)) (fun _ => l)
      fun _ => limit := fun _ cursor => ⟨_, rfl, isPage_page l cursor limit⟩
  have hkeys (e : K × V) (he : e ∈ l) :
      e.1 ∈ (⟨l.map Prod.fst, Increasing.nodup_keys h⟩ : Finset K) :=
    List.mem_map_of_mem he
  obtain ⟨found, hfound⟩ := hserves.ends (fun _ => hlimit) (fun _ => hkeys)
    (show Multiset.card (l.map Prod.fst : Multiset K) < fuel by simpa using hf)
  rw [pages_eq_flatten hfound]
  exact (Traversed.of_traverse hserves (fun _ => h) (fun _ => hlimit) hfound).whole h fun _ _ => rfl

end Rift.Lib.Paging
