import Rift.Lib.Dialogue

/-! # Two machines side by side

Two machines of one kind, each of which takes its own steps, in any order. What a step may do depends on
the states of both: one machine relies on what the other guarantees.

Main result: what each machine keeps as long as the other keeps it, both keep in every run
(`Meets.keep`). -/

namespace Rift.Lib.Duo

open Dialogue

variable {S E : Type} (step : S → E → S)

/-- One of the machines takes a step. -/
def stepAt (w : Party → S) (e : Party × E) : Party → S :=
  Function.update w e.1 (step (w e.1) e.2)

/-- Both parties after some events. -/
def run (w : Party → S) (events : List (Party × E)) : Party → S := events.foldl (stepAt step) w

/-- Every step of the run meets a condition on the party that takes it, its state and that of the
other. -/
def Meets (cond : Party → S → S → E → Prop) : (Party → S) → List (Party × E) → Prop
  | _, [] => True
  | w, e :: events => cond e.1 (w e.1) (w e.1.other) e.2 ∧ Meets cond (stepAt step w e) events

variable {step}

theorem stepAt_forall {I : Party → S → Prop} {w : Party → S} {e : Party × E} (h : ∀ p, I p (w p))
    (hstep : I e.1 (step (w e.1) e.2)) (p : Party) : I p (stepAt step w e p) := by
  unfold stepAt
  by_cases hp : p = e.1
  · subst hp
    rwa [Function.update_self]
  · rw [Function.update_of_ne hp]
    exact h p

/-- **The rule of two machines.** -/
theorem Meets.keep {cond : Party → S → S → E → Prop} {I : Party → S → Prop}
    (hstep : ∀ p s t e, I p s → I p.other t → cond p s t e → I p (step s e)) :
    ∀ {events : List (Party × E)} {w : Party → S}, Meets step cond w events → (∀ p, I p (w p)) →
      ∀ p, I p (run step w events p)
  | [], _, _, h => h
  | e :: _, w, hm, h =>
    hm.2.keep hstep (stepAt_forall h (hstep e.1 (w e.1) (w e.1.other) e.2 (h e.1) (h e.1.other) hm.1))

end Rift.Lib.Duo
