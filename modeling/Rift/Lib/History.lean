import Mathlib

/-! # Histories of a machine

A machine takes a call in a state and gives a result and the next state. Its history is the list of
the calls made and of their results, oldest first. What relates a state to the calls that led to it
is proved call by call (`Machine.invariant`): each call adds one event at the end of the history.

Along a history some events are landmarks, and what matters is what has not happened since the last
one: `Since p q h` says that an event satisfies `p`, in view of the events before it, and every later
one satisfies `q`.

A method that can fail is a program of `ExceptT` over the state, which keeps what was written before
it failed; a triple with two postconditions is what it does (`cases_of_triple`). -/

namespace Rift.Lib

open Std.Do

universe u v w

/-- A call and what it returned. -/
structure Event (C : Type u) (R : Type v) where
  call : C
  result : R

/-- A deterministic machine: what a call returns in a state, and the state after it. -/
abbrev Machine (C : Type u) (R : Type v) (S : Type w) := C → S → R × S

namespace Machine

variable {C : Type u} {R : Type v} {S : Type w} (machine : Machine C R S)

/-- The state after the calls. -/
def after (s : S) : List C → S
  | [] => s
  | c :: calls => after (machine c s).2 calls

/-- The history that the calls leave. -/
def history (s : S) : List C → List (Event C R)
  | [] => []
  | c :: calls => ⟨c, (machine c s).1⟩ :: history (machine c s).2 calls

@[simp] theorem after_nil (s : S) : machine.after s [] = s := rfl

@[simp] theorem history_nil (s : S) : machine.history s [] = [] := rfl

theorem after_append : ∀ (s : S) (calls later : List C),
    machine.after s (calls ++ later) = machine.after (machine.after s calls) later
  | _, [], _ => rfl
  | _, _ :: calls, later => after_append _ calls later

theorem history_append : ∀ (s : S) (calls later : List C),
    machine.history s (calls ++ later) =
      machine.history s calls ++ machine.history (machine.after s calls) later
  | _, [], _ => rfl
  | s, c :: calls, later => by
    change ⟨c, (machine c s).1⟩ :: machine.history (machine c s).2 (calls ++ later) = _
    rw [history_append]
    rfl

theorem after_concat (s : S) (calls : List C) (c : C) :
    machine.after s (calls ++ [c]) = (machine c (machine.after s calls)).2 :=
  machine.after_append s calls [c]

theorem history_concat (s : S) (calls : List C) (c : C) :
    machine.history s (calls ++ [c]) =
      machine.history s calls ++ [⟨c, (machine c (machine.after s calls)).1⟩] :=
  machine.history_append s calls [c]

/-- **The invariant rule.** What holds at first and is kept by each call, in view of the history
before it, holds after any calls. -/
theorem invariant {P : List (Event C R) → S → Prop} {s : S} (start : P [] s)
    (step : ∀ h t c, P h t → P (h ++ [⟨c, (machine c t).1⟩]) (machine c t).2) (calls : List C) :
    P (machine.history s calls) (machine.after s calls) := by
  induction calls using List.reverseRecOn with
  | nil => exact start
  | append_singleton calls c ih =>
    rw [after_concat, history_concat]
    exact step _ _ _ ih

end Machine

/-! ### Landmarks -/

section Since

variable {E : Type u} {p : List E → E → Prop} {q : E → Prop} {h : List E} {e : E}

/-- Some event satisfies `p`, in view of the events before it, and every later one satisfies `q`. -/
def Since (p : List E → E → Prop) (q : E → Prop) (h : List E) : Prop :=
  ∃ before e later, h = before ++ e :: later ∧ p before e ∧ ∀ e' ∈ later, q e'

theorem Since.now (hp : p h e) : Since p q (h ++ [e]) := ⟨h, e, [], rfl, hp, by simp⟩

theorem Since.concat (hs : Since p q h) (hq : q e) : Since p q (h ++ [e]) := by
  obtain ⟨before, m, later, rfl, hp, hl⟩ := hs
  refine ⟨before, m, later ++ [e], by simp, hp, fun e' he' => ?_⟩
  rcases List.mem_append.mp he' with he' | he'
  · exact hl e' he'
  · rwa [List.mem_singleton.mp he']

end Since

/-! ### Methods that can fail -/

theorem bind_eq_ok {ε α β : Type} {x : Except ε α} {f : α → Except ε β} {b : β}
    (h : x >>= f = .ok b) : ∃ a, x = .ok a ∧ f a = .ok b := by
  rcases x with e | a
  · cases h
  · exact ⟨a, rfl, h⟩

theorem mapError_eq_ok {ε ε' α : Type} {x : Except ε α} {f : ε → ε'} {a : α}
    (h : x.mapError f = .ok a) : x = .ok a := by
  rcases x with e | a
  · cases h
  · cases h
    rfl

theorem cases_of_triple {ε σ α : Type} {x : ExceptT ε (StateM σ) α} {P : σ → Prop}
    {Q : α → σ → Prop} {E : ε → σ → Prop}
    (h : ⦃fun a => ⌜P a⌝⦄ x ⦃post⟨fun v a => ⌜Q v a⌝, fun e a => ⌜E e a⌝⟩⦄) {a : σ} (ha : P a) :
    (∃ v, (x.run.run a).1 = .ok v ∧ Q v (x.run.run a).2) ∨
      ∃ e, (x.run.run a).1 = .error e ∧ E e (x.run.run a).2 := by
  have hw := h a ha
  rcases hr : x.run.run a with ⟨e | v, a'⟩ <;> simp [wp, hr] at hw
  · exact Or.inr ⟨e, rfl, hw⟩
  · exact Or.inl ⟨v, rfl, hw⟩

theorem triple_of_cases {ε σ α : Type} {x : ExceptT ε (StateM σ) α} {P : σ → Prop}
    {Q : α → σ → Prop} {E : ε → σ → Prop}
    (h : ∀ a, P a → (∃ v, (x.run.run a).1 = .ok v ∧ Q v (x.run.run a).2) ∨
      ∃ e, (x.run.run a).1 = .error e ∧ E e (x.run.run a).2) :
    ⦃fun a => ⌜P a⌝⦄ x ⦃post⟨fun v a => ⌜Q v a⌝, fun e a => ⌜E e a⌝⟩⦄ := by
  intro a ha
  have hc := h a ha
  rcases hr : x.run.run a with ⟨e | v, a'⟩ <;> simp [wp, hr] at hc ⊢ <;> exact hc

end Rift.Lib
