import Mathlib

/-! # Programs whose state others change

A program owns one part of a state and shares another. Others act on the state, one action at a time
(`act`), and they get to do so each time the program looks at what it shares: `observe` lets them act
first. What they do at each of the coming points is a script that the program runs against; what
holds for every script holds under every interleaving. The states at which they acted are kept
(`seen`), so that it can be said of each of them, and not only of the last state.

The main results are `Evolves.stable`, `World.Allowed.evolves_of_mem`, the triples `observe_spec`,
`owned_spec` and `update_spec` of the three primitives, and `run_spec` and `run_of_triple`. -/

namespace Rift.Lib.Interference

open Std.Do

set_option mvcgen.warning false

variable {S R α : Type}

/-- What the others will do at each of the coming points, and the states at which they got to act. -/
structure Script (S R : Type) where
  points : List (List R)
  seen : List S

instance : Coe (List (List R)) (Script S R) := ⟨fun points => ⟨points, []⟩⟩

/-- A state, and what the others do. -/
structure World (S R : Type) where
  state : S
  script : Script S R

/-- A program that others interrupt. -/
abbrev Program (S R : Type) := StateM (World S R)

/-- What holds after a program has run. -/
abbrev Post (S R α : Type) := PostCond α (.arg (World S R) .pure)

/-- The world after the others have acted at one point. -/
def World.acted (act : S → R → S) (w : World S R) : World S R :=
  let actions := w.script.points.headD []
  ⟨actions.foldl act w.state, w.script.points.tail,
    w.script.seen ++ actions.inits.map (List.foldl act w.state)⟩

/-- Looks at what is shared, after the others have acted. -/
def observe (act : S → R → S) (f : S → α) : Program S R α := do
  modify (World.acted act)
  return f (← get).state

/-- Looks at what only the program changes. -/
def owned (f : S → α) : Program S R α := do
  return f (← get).state

/-- Changes the state. -/
def update (f : S → S) : Program S R Unit :=
  modify fun w => { w with state := f w.state }

/-- Runs a program against a script. -/
def exec (p : Program S R α) (s : S) (script : List (List R)) : α × S :=
  let r := p.run ⟨s, script⟩
  (r.1, r.2.state)

/-- The states at which the others got to act while a program ran. -/
def looks (p : Program S R α) (s : S) (script : List (List R)) : List S :=
  (p.run ⟨s, script⟩).2.script.seen

/-! ### What the others can do -/

section Evolves

variable (act : S → R → S) (P : R → Prop)

/-- The second state follows from the first by actions of the others that have the property. -/
def Evolves (s s' : S) : Prop :=
  ∃ actions : List R, (∀ r ∈ actions, P r) ∧ actions.foldl act s = s'

/-- No action with the property breaks the invariant. -/
def Stable (I : S → Prop) : Prop := ∀ s r, P r → I s → I (act s r)

/-- All that the others will do has the property. -/
def World.Allowed (w : World S R) : Prop := ∀ point ∈ w.script.points, ∀ r ∈ point, P r

variable {act P}

theorem Evolves.refl (s : S) : Evolves act P s s := ⟨[], nofun, rfl⟩

theorem Evolves.step {r : R} (h : P r) (s : S) : Evolves act P s (act s r) :=
  ⟨[r], by simpa using h, rfl⟩

theorem Evolves.trans {s s' s'' : S} (h : Evolves act P s s') (h' : Evolves act P s' s'') :
    Evolves act P s s'' := by
  obtain ⟨l, hl, rfl⟩ := h
  obtain ⟨l', hl', rfl⟩ := h'
  exact ⟨l ++ l', List.forall_mem_append.mpr ⟨hl, hl'⟩, List.foldl_append⟩

theorem Stable.foldl {I : S → Prop} (h : Stable act P I) :
    ∀ (actions : List R) {s : S}, (∀ r ∈ actions, P r) → I s → I (actions.foldl act s)
  | [], _, _, hs => hs
  | r :: actions, s, hr, hs =>
    h.foldl actions (fun r' hr' => hr r' (List.mem_cons_of_mem _ hr'))
      (h s r (hr r List.mem_cons_self) hs)

/-- **Stability.** An invariant that no action breaks survives any number of them. -/
theorem Evolves.stable {s s' : S} {I : S → Prop} (h : Evolves act P s s') (hI : Stable act P I)
    (hs : I s) : I s' := by
  obtain ⟨actions, hr, rfl⟩ := h
  exact hI.foldl actions hr hs

theorem World.Allowed.acted {w : World S R} (h : w.Allowed P) : (w.acted act).Allowed P :=
  fun point hpoint => h point (List.mem_of_mem_tail hpoint)

theorem World.Allowed.headD {w : World S R} (h : w.Allowed P) :
    ∀ r ∈ w.script.points.headD [], P r := by
  intro r hr
  obtain ⟨state, points, seen⟩ := w
  cases points with
  | nil => cases hr
  | cons point rest => exact h point List.mem_cons_self r hr

theorem World.Allowed.evolves {w : World S R} (h : w.Allowed P) :
    Evolves act P w.state (w.acted act).state :=
  ⟨w.script.points.headD [], h.headD, rfl⟩

/-- **What the others leave on the way** follows from what they found, too. -/
theorem World.Allowed.evolves_of_mem {w : World S R} (h : w.Allowed P) {s : S}
    (hs : s ∈ (w.acted act).script.seen) : s ∈ w.script.seen ∨ Evolves act P w.state s := by
  refine (List.mem_append.mp hs).imp_right fun hs => ?_
  obtain ⟨actions, hactions, rfl⟩ := List.mem_map.mp hs
  have hpre := (List.mem_inits actions _).mp hactions
  exact ⟨actions, fun r hr => h.headD r (hpre.subset hr), rfl⟩

end Evolves

/-! ### Triples -/

@[spec] theorem observe_spec (act : S → R → S) (f : S → α) {Q : Post S R α} :
    ⦃fun w => Q.1 (f (w.acted act).state) (w.acted act)⦄ observe act f ⦃Q⦄ := by
  mvcgen [observe]

@[spec] theorem owned_spec (f : S → α) {Q : Post S R α} :
    ⦃fun w => Q.1 (f w.state) w⦄ owned f ⦃Q⦄ := by
  mvcgen [owned]

@[spec] theorem update_spec (f : S → S) {Q : Post S R Unit} :
    ⦃fun w => Q.1 () { w with state := f w.state }⦄ update f ⦃Q⦄ := by
  mvcgen [update]

theorem run_spec (p : Program S R α) {Q : Post S R α} :
    ⦃fun w => Q.1 (p.run w).1 (p.run w).2⦄ p ⦃Q⦄ := by
  intro w h
  exact h

theorem run_of_triple {p : Program S R α} {w : World S R} {Q : α → World S R → Prop}
    (h : ⦃fun w' => ⌜w' = w⌝⦄ p ⦃⇓ a w' => ⌜Q a w'⌝⦄) :
    ∀ (a : α) (w' : World S R), p.run w = (a, w') → Q a w' := by
  intro a w' hr
  have hw : Q (p.run w).1 (p.run w).2 := h w rfl
  rw [hr] at hw
  exact hw

end Rift.Lib.Interference
