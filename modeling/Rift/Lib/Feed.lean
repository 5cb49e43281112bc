import Mathlib.Data.List.Chain
import Mathlib.Logic.Relation

/-! # A feed without repetitions

A publisher keeps what its last report said, and reports only what is something else. It may drop
its subject and take it up again, and then has reported nothing yet.

The main result is `Faithful.changes`. -/

namespace Rift.Lib.Feed

variable {α β : Type*} (content : α → β)

/-- What is kept of the last report, for a subject that is there, and all reports so far. -/
structure View (α β : Type*) where
  kept : Option (Option β)
  reports : List α

/-- The subject is taken up, or reported. -/
inductive Change : View α β → View α β → Prop
  | begins (reports : List α) : Change ⟨none, reports⟩ ⟨some none, reports⟩
  | reports {kept : Option β} {a : α} (h : kept ≠ some (content a)) (reports : List α) :
      Change ⟨some kept, reports⟩ ⟨some (some (content a)), reports ++ [a]⟩

/-- The reports since the subject was taken up: each has something new, and the last one is kept. -/
structure Faithful (since : List α) (kept : Option (Option β)) : Prop where
  differ : (since.map content).IsChain (· ≠ ·)
  last : ∀ last, kept = some last → last = (since.map content).getLast?
  absent : kept = none → since = []

variable {content} {since : List α} {v v' : View α β}

theorem Faithful.begins (h : Faithful content since none) : Faithful content since (some none) := by
  obtain rfl := h.absent rfl
  exact ⟨List.isChain_nil, fun last hlast => by cases hlast; rfl, fun hnone => by cases hnone⟩

theorem Faithful.report {kept : Option β} {a : α} (h : Faithful content since (some kept))
    (ha : kept ≠ some (content a)) : Faithful content (since ++ [a]) (some (some (content a))) := by
  refine ⟨?_, fun last hlast => ?_, fun hnone => by cases hnone⟩
  · rw [List.map_append]
    refine h.differ.append (List.isChain_singleton _) fun x hx y hy => ?_
    rw [Option.mem_def, ← h.last kept rfl] at hx
    cases hy
    rintro rfl
    exact ha hx
  · cases hlast
    simp

/-- **What any number of changes makes of the reports.** -/
theorem Faithful.changes (h : Relation.ReflTransGen (Change content) v v')
    (hf : Faithful content since v.kept) :
    ∃ new, v'.reports = v.reports ++ new ∧ Faithful content (since ++ new) v'.kept := by
  induction h with
  | refl => exact ⟨[], by simp, by simpa using hf⟩
  | tail _ hc ih =>
    obtain ⟨new, hreports, hnew⟩ := ih
    cases hc with
    | begins reports => exact ⟨new, hreports, hnew.begins⟩
    | @reports kept a ha reports =>
      refine ⟨new ++ [a], ?_, ?_⟩
      · rw [← List.append_assoc, ← hreports]
      · rw [← List.append_assoc]
        exact hnew.report ha

end Rift.Lib.Feed
