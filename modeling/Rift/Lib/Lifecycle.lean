import Rift.Lib.Map

/-! # Histories of what opens and closes

Things open under numbers that only grow, and close. A history that records both, each closing with
something that the closed thing is known by, is kept next to a registry of what is open.

The main definition is `Records`, the main results `Records.fold_eq`, `Records.closes_open`,
`Records.opened_increasing`, `Records.closed_nodup` and `Records.count_closed`. -/

namespace Rift.Lib.Lifecycle

open Std

variable {V T : Type}

/-- A line of a log of openings and closings. -/
inductive Entry (V T : Type)
  | opened (id : ℕ) (value : V)
  | closed (id : ℕ) (tag : T)

/-- One entry replayed. -/
def replay (m : ExtTreeMap ℕ V) : Entry V T → ExtTreeMap ℕ V
  | .opened id value => m.insert id value
  | .closed id _ => m.erase id

/-- What is open after a history. -/
def fold (l : List (Entry V T)) : ExtTreeMap ℕ V := l.foldl replay ∅

/-- What the line says is opened. -/
def Entry.openedId : Entry V T → Option ℕ
  | .opened id _ => some id
  | .closed _ _ => none

/-- What the line says is closed. -/
def Entry.closedId : Entry V T → Option ℕ
  | .opened _ _ => none
  | .closed id _ => some id

/-- The numbers under which something has opened, in order. -/
def openedIds (l : List (Entry V T)) : List ℕ := l.filterMap Entry.openedId

/-- The numbers that have closed, in order. -/
def closedIds (l : List (Entry V T)) : List ℕ := l.filterMap Entry.closedId

@[simp] theorem openedIds_opened (l : List (Entry V T)) (id : ℕ) (value : V) :
    openedIds (l ++ [.opened id value]) = openedIds l ++ [id] := by
  simp [openedIds, Entry.openedId]

@[simp] theorem openedIds_closed (l : List (Entry V T)) (id : ℕ) (tag : T) :
    openedIds (l ++ [.closed id tag]) = openedIds l := by
  simp [openedIds, Entry.openedId]

@[simp] theorem closedIds_opened (l : List (Entry V T)) (id : ℕ) (value : V) :
    closedIds (l ++ [.opened id value]) = closedIds l := by
  simp [closedIds, Entry.closedId]

@[simp] theorem closedIds_closed (l : List (Entry V T)) (id : ℕ) (tag : T) :
    closedIds (l ++ [.closed id tag]) = closedIds l ++ [id] := by
  simp [closedIds, Entry.closedId]

/-- A history next to what is open after it and the next number. -/
inductive Records (tag : V → T) : List (Entry V T) → ExtTreeMap ℕ V → ℕ → Prop
  | nil (next : ℕ) : Records tag [] ∅ next
  | opened {l : List (Entry V T)} {m : ExtTreeMap ℕ V} {next : ℕ} (h : Records tag l m next)
      (value : V) : Records tag (l ++ [.opened next value]) (m.insert next value) (next + 1)
  | closed {l : List (Entry V T)} {m : ExtTreeMap ℕ V} {next id : ℕ} {value : V}
      (h : Records tag l m next) (hv : m[id]? = some value) :
      Records tag (l ++ [.closed id (tag value)]) (m.erase id) next

namespace Records

variable {tag : V → T} {l : List (Entry V T)} {m m' : ExtTreeMap ℕ V} {next id : ℕ} {value : V}

/-! ### Rules -/

theorem closeAll (entries : List (ℕ × V)) (h : Records tag l m next)
    (hopen : ∀ entry ∈ entries, m[entry.1]? = some entry.2) (hnodup : (entries.map Prod.fst).Nodup)
    (hm : ∀ id, m'[id]? = if id ∈ entries.map Prod.fst then none else m[id]?) :
    Records tag (l ++ entries.map fun entry => .closed entry.1 (tag entry.2)) m' next := by
  induction entries generalizing l m with
  | nil =>
    have heq : m' = m := ExtTreeMap.ext_getElem? fun {k} => by simpa using hm k
    subst heq
    simpa using h
  | cons entry entries ih =>
    obtain ⟨hentry, hentries⟩ := List.forall_mem_cons.mp hopen
    rw [List.map_cons, List.nodup_cons] at hnodup
    have hother (e : ℕ × V) (he : e ∈ entries) : entry.1 ≠ e.1 := fun heq =>
      hnodup.1 (heq ▸ List.mem_map_of_mem he)
    have hrest := ih (h.closed hentry)
      (fun e he => (Map.erase_ne (hother e he)).trans (hentries e he)) hnodup.2 fun id => ?_
    · simpa using hrest
    · rw [hm id]
      by_cases heq : entry.1 = id
      · subst heq
        simp
      · simp only [List.map_cons, List.mem_cons, Ne.symm heq, false_or, Map.erase_ne heq]

/-- What is left of a registry that keeps more of each thing than the history, once all that fulfils a
condition has closed. -/
theorem left_of_filter {R : Type} {registry registry' : ExtTreeMap ℕ R} (info : R → V)
    (p : ℕ × R → Bool) (hr : ∀ id, registry'[id]? = registry[id]?.filter fun r => !p (id, r))
    (id : ℕ) :
    (registry'.map fun _ => info)[id]? = if id ∈ (registry.toList.filter p).map Prod.fst then none
      else (registry.map fun _ => info)[id]? := by
  simp only [ExtTreeMap.getElem?_map, hr]
  cases hid : registry[id]? with
  | none => simp
  | some r =>
    have hmem : id ∈ (registry.toList.filter p).map Prod.fst ↔ p (id, r) = true := by
      rw [List.mem_map]
      constructor
      · rintro ⟨⟨k, r'⟩, he, rfl⟩
        obtain ⟨hr', hp⟩ := Map.mem_toList_filter.mp he
        cases hid.symm.trans hr'
        exact hp
      · exact fun hp => ⟨(id, r), Map.mem_toList_filter.mpr ⟨hid, hp⟩, rfl⟩
    simp only [hmem]
    cases hp : p (id, r) <;> simp [Option.filter, hp]

/-- **All that fulfils a condition closes**, where a registry keeps more of each thing than the
history, and not everything that is open. -/
theorem closeSome {R : Type} {registry : ExtTreeMap ℕ R} {info : R → V} (h : Records tag l m next)
    (hopen : ∀ (id : ℕ) (r : R), registry[id]? = some r → m[id]? = some (info r))
    (p : ℕ × R → Bool)
    (hm : ∀ id : ℕ, m'[id]? = if id ∈ (registry.toList.filter p).map Prod.fst then none else m[id]?) :
    Records tag (l ++ (registry.toList.filter p).map fun entry =>
      .closed entry.1 (tag (info entry.2))) m' next := by
  have hall : Records tag _ m' next := h.closeAll
    ((registry.toList.filter p).map fun entry => (entry.1, info entry.2)) ?_ ?_ ?_
  · rwa [List.map_map] at hall
  · intro entry hentry
    obtain ⟨e, he, rfl⟩ := List.mem_map.mp hentry
    exact hopen e.1 e.2 (Map.mem_toList_filter.mp he).1
  · rw [List.map_map]
    exact Map.nodup_keys_filter p
  · rw [List.map_map]
    exact hm

/-- **All that fulfils a condition closes**, where the registry keeps everything that is open. -/
theorem closeWhere {R : Type} {registry registry' : ExtTreeMap ℕ R} {info : R → V}
    (h : Records tag l (registry.map fun _ => info) next) (p : ℕ × R → Bool)
    (hr : ∀ id, registry'[id]? = registry[id]?.filter fun r => !p (id, r)) :
    Records tag (l ++ (registry.toList.filter p).map fun entry =>
      .closed entry.1 (tag (info entry.2))) (registry'.map fun _ => info) next :=
  h.closeSome (fun _ r hid => Map.map_eq_some.mpr ⟨r, hid, rfl⟩) p (left_of_filter info p hr)

/-! ### Consequences -/

/-- **Replaying the history gives the registry.** -/
theorem fold_eq (h : Records tag l m next) : fold l = m := by
  induction h with
  | nil => rfl
  | opened _ value ih => rw [← ih, fold, List.foldl_append]; rfl
  | closed _ _ ih => rw [← ih, fold, List.foldl_append]; rfl

theorem opened_of_open (h : Records tag l m next) (hv : m[id]? = some value) : id ∈ openedIds l := by
  induction h generalizing id value with
  | nil => simp at hv
  | opened _ _ ih =>
    rw [openedIds_opened, List.mem_append, List.mem_singleton]
    rcases Map.insert_eq_some.mp hv with ⟨rfl, -⟩ | ⟨-, hv⟩
    · exact Or.inr rfl
    · exact Or.inl (ih hv)
  | closed _ _ ih =>
    rw [openedIds_closed]
    exact ih (Map.erase_eq_some.mp hv).2

theorem lt_of_opened (h : Records tag l m next) (hid : id ∈ openedIds l) : id < next := by
  induction h with
  | nil => cases hid
  | opened _ _ ih =>
    rw [openedIds_opened, List.mem_append, List.mem_singleton] at hid
    rcases hid with hid | rfl
    · exact Nat.lt_succ_of_lt (ih hid)
    · exact Nat.lt_succ_self _
  | closed _ _ ih => exact ih (by simpa using hid)

/-- **What closes is open then**, and is known by what it closes with. -/
theorem closes_open (h : Records tag l m next) {before after : List (Entry V T)} {t : T}
    (hl : l = before ++ .closed id t :: after) :
    ∃ value, (fold before)[id]? = some value ∧ tag value = t := by
  induction h generalizing after with
  | nil => simp at hl
  | opened h value ih =>
    rcases List.eq_nil_or_concat' after with rfl | ⟨rest, last, rfl⟩
    · have heq := (List.append_inj' hl rfl).2
      cases heq
    · rw [← List.cons_append, ← List.append_assoc] at hl
      exact ih (List.append_inj' hl rfl).1
  | closed h hv ih =>
    rcases List.eq_nil_or_concat' after with rfl | ⟨rest, last, rfl⟩
    · obtain ⟨rfl, heq⟩ := List.append_inj' hl rfl
      cases heq
      rw [h.fold_eq]
      exact ⟨_, hv, rfl⟩
    · rw [← List.cons_append, ← List.append_assoc] at hl
      exact ih (List.append_inj' hl rfl).1

/-- **Nothing opens twice**: each number is larger than all before it. -/
theorem opened_increasing (h : Records tag l m next) : (openedIds l).Pairwise (· < ·) := by
  induction h with
  | nil => exact List.Pairwise.nil
  | opened h value ih =>
    rw [openedIds_opened]
    refine List.pairwise_append.mpr ⟨ih, List.pairwise_singleton _ _, fun id hid id' hid' => ?_⟩
    rw [List.mem_singleton.mp hid']
    exact h.lt_of_opened hid
  | closed _ _ ih => rwa [openedIds_closed]

/-- **What has opened is open, or has closed exactly once**, and nothing else has closed. -/
theorem count_closed (h : Records tag l m next) (id : ℕ) :
    (closedIds l).count id = if id ∈ openedIds l ∧ id ∉ m then 1 else 0 := by
  induction h with
  | nil => rfl
  | @opened l m next h value ih =>
    rw [closedIds_opened, openedIds_opened, ih]
    by_cases heq : id = next
    · subst heq
      have hnot : id ∉ openedIds l := fun hid => Nat.lt_irrefl _ (h.lt_of_opened hid)
      simp [hnot]
    · simp [heq, Ne.symm heq]
  | @closed l m next id' value h hv ih =>
    rw [closedIds_closed, openedIds_closed, List.count_append, ih]
    by_cases heq : id = id'
    · subst heq
      have hopen := Map.mem_iff_exists.mpr ⟨value, hv⟩
      simp [hopen, h.opened_of_open hv]
    · simp [Ne.symm heq]

/-- **Nothing closes twice.** -/
theorem closed_nodup (h : Records tag l m next) : (closedIds l).Nodup := by
  refine List.nodup_iff_count_le_one.mpr fun id => ?_
  rw [h.count_closed id]
  split_ifs <;> omega

end Records

end Rift.Lib.Lifecycle
