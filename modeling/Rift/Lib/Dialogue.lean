import Mathlib.Data.List.Infix
import Mathlib.Logic.Relation
import Mathlib.Tactic

/-! # Dialogues over reliable channels

Two parties run scripts that send, receive and ask their own side; what one sends the other receives
in the same order. Each party moves whenever it can, in any interleaving. A party whose script has
ended in an outcome that closes the connection leaves the other with what is already on its way.

A `Plan` says what each party does if all goes well: a trace of its script, such that each receives
what the other sends, and one of them is always ahead (`Leads`). Then every schedule stays on the plan
(`Plan.sound`): each party has done a beginning of its trace, or it has lost its connection to a party
that has finished and closed; and where nobody can move, both have ended (`Sound.done_of_stuck`). -/

namespace Rift.Lib.Dialogue

/-! ### Parties and scripts -/

/-- The two ends of a dialogue. -/
inductive Party
  | first
  | second
  deriving DecidableEq

def Party.other : Party → Party
  | .first => .second
  | .second => .first

@[simp] theorem Party.other_other (p : Party) : p.other.other = p := by cases p <;> rfl

theorem Party.other_ne (p : Party) : p.other ≠ p := by cases p <;> exact nofun

theorem Party.eq_other_of_ne {p q : Party} (h : q ≠ p) : q = p.other := by
  cases p <;> cases q <;> first | rfl | exact absurd rfl h

/-- What a party does next. The labels say where a connection is lost. -/
inductive Script (M L : Type) {Q : Type} (A : Q → Type) (α : Type) : Type
  | done (value : α)
  | send (label : L) (message : M) (next : Script M L A α)
  | receive (label : L) (next : M → Script M L A α)
  | ask (question : Q) (next : A question → Script M L A α)

/-- What a party has done. -/
inductive Act (M : Type) {Q : Type} (A : Q → Type)
  | sent (message : M)
  | received (message : M)
  | asked (question : Q) (answer : A question)

variable {M L Q E α : Type} {A : Q → Type}

/-- The messages that a log says were sent. -/
def sentBy : List (Act M A) → List M
  | [] => []
  | .sent m :: log => m :: sentBy log
  | .received _ :: log | .asked _ _ :: log => sentBy log

/-- The messages that a log says were received. -/
def receivedBy : List (Act M A) → List M
  | [] => []
  | .received m :: log => m :: receivedBy log
  | .sent _ :: log | .asked _ _ :: log => receivedBy log

theorem sentBy_append (log later : List (Act M A)) :
    sentBy (log ++ later) = sentBy log ++ sentBy later := by
  induction log with
  | nil => rfl
  | cons act log ih => cases act <;> simp [sentBy, ih]

theorem receivedBy_append (log later : List (Act M A)) :
    receivedBy (log ++ later) = receivedBy log ++ receivedBy later := by
  induction log with
  | nil => rfl
  | cons act log ih => cases act <;> simp [receivedBy, ih]

/-- The script does this, if it is given these messages and answers, and is then at the last one. -/
inductive Follows (answer : (q : Q) → A q) :
    Script M L A α → List (Act M A) → Script M L A α → Prop
  | refl (s : Script M L A α) : Follows answer s [] s
  | send {l : L} {m : M} {next s : Script M L A α} {trace : List (Act M A)}
      (h : Follows answer next trace s) : Follows answer (.send l m next) (.sent m :: trace) s
  | receive {l : L} {m : M} {next : M → Script M L A α} {s : Script M L A α}
      {trace : List (Act M A)} (h : Follows answer (next m) trace s) :
      Follows answer (.receive l next) (.received m :: trace) s
  | ask {q : Q} {next : A q → Script M L A α} {s : Script M L A α} {trace : List (Act M A)}
      (h : Follows answer (next (answer q)) trace s) :
      Follows answer (.ask q next) (.asked q (answer q) :: trace) s

/-! ### Interleavings -/

/-- The answers of the two sides, what a lost connection ends in, and which outcomes close it. -/
structure Setting (L E : Type) {Q : Type} (A : Q → Type) (α : Type) where
  answer : Party → (q : Q) → A q
  lost : L → E → α
  closes : α → Bool

/-- The scripts of both, what both have done, and what is on its way to each. -/
structure Talk (M L : Type) {Q : Type} (A : Q → Type) (α : Type) where
  script : Party → Script M L A α
  log : Party → List (Act M A)
  channel : Party → List M

/-- Nothing has been said yet. -/
def Talk.start (script : Party → Script M L A α) : Talk M L A α where
  script := script
  log _ := []
  channel _ := []

/-- One party has done something. -/
def Talk.put (t : Talk M L A α) (p : Party) (s : Script M L A α) (act : Act M A)
    (channel : Party → List M) : Talk M L A α where
  script := Function.update t.script p s
  log := Function.update t.log p (t.log p ++ [act])
  channel := channel

/-- One party ends without having done anything more. -/
def Talk.stop (t : Talk M L A α) (p : Party) (value : α) : Talk M L A α :=
  { t with script := Function.update t.script p (.done value) }

/-- The party has ended and closed the connection. -/
def Talk.closed (S : Setting L E A α) (t : Talk M L A α) (p : Party) : Bool :=
  match t.script p with
  | .done v => S.closes v
  | _ => false

/-- A party goes on, or loses its connection. -/
inductive Move (E : Type)
  | go (p : Party)
  | lose (p : Party) (e : E)

/-- One move, if it is possible. What is on its way can still be received once the other has closed;
a party that waits for more, or sends more, can then lose its connection. -/
def Talk.move (S : Setting L E A α) (t : Talk M L A α) : Move E → Option (Talk M L A α)
  | .go p =>
    match t.script p with
    | .done _ => none
    | .send _ m next =>
      some (t.put p next (.sent m) (Function.update t.channel p.other (t.channel p.other ++ [m])))
    | .receive _ next =>
      match t.channel p with
      | [] => none
      | m :: rest => some (t.put p (next m) (.received m) (Function.update t.channel p rest))
    | .ask q next => some (t.put p (next (S.answer p q)) (.asked q (S.answer p q)) t.channel)
  | .lose p e =>
    if t.closed S p.other then
      match t.script p, t.channel p with
      | .send l _ _, _ => some (t.stop p (S.lost l e))
      | .receive l _, [] => some (t.stop p (S.lost l e))
      | _, _ => none
    else none

/-- A schedule; a move that is not possible is none. -/
def Talk.run (S : Setting L E A α) (t : Talk M L A α) : List (Move E) → Talk M L A α
  | [] => t
  | m :: moves => ((t.move S m).getD t).run S moves

/-- Nobody can move. -/
def Talk.Stuck (S : Setting L E A α) (t : Talk M L A α) : Prop := ∀ m, t.move S m = none

/-- The cases of a move. -/
inductive Step (S : Setting L E A α) (t : Talk M L A α) : Talk M L A α → Prop
  | send {p : Party} {l : L} {m : M} {next : Script M L A α} (h : t.script p = .send l m next) :
      Step S t (t.put p next (.sent m)
        (Function.update t.channel p.other (t.channel p.other ++ [m])))
  | receive {p : Party} {l : L} {next : M → Script M L A α} {m : M} {rest : List M}
      (h : t.script p = .receive l next) (hc : t.channel p = m :: rest) :
      Step S t (t.put p (next m) (.received m) (Function.update t.channel p rest))
  | ask {p : Party} {q : Q} {next : A q → Script M L A α} (h : t.script p = .ask q next) :
      Step S t (t.put p (next (S.answer p q)) (.asked q (S.answer p q)) t.channel)
  | loseSend {p : Party} {l : L} {m : M} {next : Script M L A α} (e : E)
      (h : t.script p = .send l m next) (hc : t.closed S p.other = true) :
      Step S t (t.stop p (S.lost l e))
  | loseReceive {p : Party} {l : L} {next : M → Script M L A α} (e : E)
      (h : t.script p = .receive l next) (hn : t.channel p = []) (hc : t.closed S p.other = true) :
      Step S t (t.stop p (S.lost l e))

section Move

variable {S : Setting L E A α} {t t' : Talk M L A α} {p : Party}

theorem Talk.closed_iff : t.closed S p = true ↔ ∃ v, t.script p = .done v ∧ S.closes v = true := by
  unfold Talk.closed
  cases t.script p <;> simp

theorem step_of_move {m : Move E} (h : t.move S m = some t') : Step S t t' := by
  cases m with
  | go p =>
    simp only [Talk.move] at h
    split at h
    · cases h
    · cases h
      exact .send (by assumption)
    · split at h <;> cases h
      exact .receive (by assumption) (by assumption)
    · cases h
      exact .ask (by assumption)
  | lose p e =>
    simp only [Talk.move] at h
    split_ifs at h with hc
    split at h <;> cases h
    · exact .loseSend e (by assumption) hc
    · exact .loseReceive e (by assumption) (by assumption) hc

theorem Talk.run_keeps {P : Talk M L A α → Prop} (hP : ∀ t t', P t → Step S t t' → P t') :
    ∀ {t : Talk M L A α} (moves : List (Move E)), P t → P (t.run S moves)
  | _, [], h => h
  | t, m :: moves, h => by
    refine Talk.run_keeps hP moves ?_
    cases hm : t.move S m with
    | none => exact h
    | some t' => exact hP t t' h (step_of_move hm)

end Move

/-! ### Plans -/

/-- How far a party is ahead of its messages whenever it waits: it has sent `k` messages more than it
has received. -/
def Leads (k : ℤ) (waits : Prop) : ℤ → List (Act M A) → Prop
  | credit, [] => waits → k ≤ credit
  | credit, .sent _ :: trace => Leads k waits (credit + 1) trace
  | credit, .received _ :: trace => k ≤ credit ∧ Leads k waits (credit - 1) trace
  | credit, .asked _ _ :: trace => Leads k waits credit trace

/-- The credit that a party starts with: the first one leads. -/
def Party.lead : Party → ℤ
  | .first => 1
  | .second => 0

theorem Party.lead_add_lead_other (p : Party) : p.lead + p.other.lead = 1 := by cases p <;> rfl

/-- The script waits for a message. -/
def Script.Waits (s : Script M L A α) : Prop := ∃ l next, s = .receive l next

/-- What both parties do if no connection is lost. Each receives what the other sends; one that does
not end waits for more than the other, which closes, sends. -/
structure Plan (S : Setting L E A α) (start : Party → Script M L A α) where
  trace : Party → List (Act M A)
  final : Party → Script M L A α
  follows : ∀ p, Follows (S.answer p) (start p) (trace p) (final p)
  dual : ∀ p, receivedBy (trace p) <+: sentBy (trace p.other)
  ends : ∀ p, (∃ v, final p = .done v) ∨ (final p).Waits ∧
    receivedBy (trace p) = sentBy (trace p.other) ∧ ∃ v, final p.other = .done v ∧ S.closes v = true
  leads : ∀ p, Leads p.lead (final p).Waits 0 (trace p)

/-! ### Every interleaving stays on the plan -/

section Follows

variable {answer : (q : Q) → A q} {s : Script M L A α} {trace : List (Act M A)}

theorem Follows.trans {s' s'' : Script M L A α} {later : List (Act M A)}
    (h : Follows answer s trace s') (h' : Follows answer s' later s'') :
    Follows answer s (trace ++ later) s'' := by
  induction h with
  | refl => exact h'
  | send _ ih => exact .send (ih h')
  | receive _ ih => exact .receive (ih h')
  | ask _ ih => exact .ask (ih h')

theorem Follows.of_done {v : α} (h : Follows answer (.done v) trace s) :
    trace = [] ∧ s = .done v := by
  cases h
  exact ⟨rfl, rfl⟩

theorem Follows.of_send {l : L} {m : M} {next : Script M L A α}
    (h : Follows answer (.send l m next) trace s) :
    trace = [] ∧ s = .send l m next ∨ ∃ rest, trace = .sent m :: rest ∧ Follows answer next rest s := by
  cases h with
  | refl => exact Or.inl ⟨rfl, rfl⟩
  | send h => exact Or.inr ⟨_, rfl, h⟩

theorem Follows.of_receive {l : L} {next : M → Script M L A α}
    (h : Follows answer (.receive l next) trace s) :
    trace = [] ∧ s = .receive l next ∨
      ∃ m rest, trace = .received m :: rest ∧ Follows answer (next m) rest s := by
  cases h with
  | refl => exact Or.inl ⟨rfl, rfl⟩
  | receive h => exact Or.inr ⟨_, _, rfl, h⟩

theorem Follows.of_ask {q : Q} {next : A q → Script M L A α}
    (h : Follows answer (.ask q next) trace s) :
    trace = [] ∧ s = .ask q next ∨
      ∃ rest, trace = .asked q (answer q) :: rest ∧ Follows answer (next (answer q)) rest s := by
  cases h with
  | refl => exact Or.inl ⟨rfl, rfl⟩
  | ask h => exact Or.inr ⟨_, rfl, h⟩

end Follows

section Sound

variable {S : Setting L E A α} {start : Party → Script M L A α} (plan : Plan S start)
  {t : Talk M L A α} {p : Party}

/-- The party has done a beginning of its trace, and is where the rest goes on. -/
def OnTrace (t : Talk M L A α) (p : Party) : Prop :=
  ∃ rest, plan.trace p = t.log p ++ rest ∧ Follows (S.answer p) (t.script p) rest (plan.final p)

/-- The party has lost its connection: the other has finished and closed. What it did is a beginning
of its trace. The trace does not go on with a question there; if it goes on with a message, all that
the other sent was received; and if it is at its end, the party waits there. -/
structure Lost (t : Talk M L A α) (p : Party) : Prop where
  outcome : ∃ l e, t.script p = .done (S.lost l e)
  closed : ∃ v, t.script p.other = .done v ∧ S.closes v = true ∧ plan.final p.other = .done v
  complete : t.log p.other = plan.trace p.other
  begun : ∃ rest, plan.trace p = t.log p ++ rest ∧ (∀ q a later, rest ≠ .asked q a :: later) ∧
    (∀ m later, rest = .received m :: later → receivedBy (t.log p) = sentBy (plan.trace p.other)) ∧
    (rest = [] → (plan.final p).Waits)

/-- What is on its way was sent and not received, and each party is on its trace or lost. -/
structure Sound (t : Talk M L A α) : Prop where
  fifo : ∀ p, sentBy (t.log p.other) = receivedBy (t.log p) ++ t.channel p
  track : ∀ p, OnTrace plan t p ∨ Lost plan t p

variable {plan}

theorem Sound.onTrace (h : Sound plan t) (hp : ∀ v, t.script p ≠ .done v) : OnTrace plan t p := by
  rcases h.track p with ho | hl
  · exact ho
  · obtain ⟨l, e, heq⟩ := hl.outcome
    exact absurd heq (hp _)

theorem Sound.other_onTrace (h : Sound plan t) (hp : ∀ v, t.script p ≠ .done v) :
    OnTrace plan t p.other := by
  rcases h.track p.other with ho | hl
  · exact ho
  · obtain ⟨v, heq, -⟩ := hl.closed
    rw [Party.other_other] at heq
    exact absurd heq (hp _)

theorem OnTrace.log_begins (h : OnTrace plan t p) : t.log p <+: plan.trace p := by
  obtain ⟨rest, heq, -⟩ := h
  exact heq ▸ List.prefix_append _ _

theorem Sound.log_begins (h : Sound plan t) (p : Party) : t.log p <+: plan.trace p := by
  rcases h.track p with ho | hl
  · exact ho.log_begins
  · obtain ⟨rest, heq, -⟩ := hl.begun
    exact heq ▸ List.prefix_append _ _

theorem sentBy_mono {log trace : List (Act M A)} (h : log <+: trace) :
    sentBy log <+: sentBy trace := by
  obtain ⟨rest, rfl⟩ := h
  rw [sentBy_append]
  exact List.prefix_append _ _

/-- The next script of a plan's party is not where the plan ends, unless it ends or waits there. -/
theorem Plan.final_ne_send (plan : Plan S start) {l : L} {m : M} {next : Script M L A α} :
    plan.final p ≠ .send l m next := by
  intro heq
  rcases plan.ends p with ⟨v, hv⟩ | ⟨⟨l', next', hw⟩, -⟩
  · rw [hv] at heq
    cases heq
  · rw [hw] at heq
    cases heq

theorem Plan.final_ne_ask (plan : Plan S start) {q : Q} {next : A q → Script M L A α} :
    plan.final p ≠ .ask q next := by
  intro heq
  rcases plan.ends p with ⟨v, hv⟩ | ⟨⟨l', next', hw⟩, -⟩
  · rw [hv] at heq
    cases heq
  · rw [hw] at heq
    cases heq

theorem head_eq_of_common {x a b l : List M} {m n : M} (h : x ++ m :: a <+: l)
    (h' : x ++ n :: b <+: l) : m = n := by
  obtain ⟨later, rfl⟩ := h
  rw [List.append_assoc, List.prefix_append_right_inj, List.cons_append, List.cons_prefix_cons] at h'
  exact h'.1.symm

theorem Sound.received_next (h : Sound plan t) {l : L} {next : M → Script M L A α} {m : M}
    {later : List M} (hs : t.script p = .receive l next) (hc : t.channel p = m :: later) :
    ∃ rest, plan.trace p = t.log p ++ .received m :: rest ∧
      Follows (S.answer p) (next m) rest (plan.final p) := by
  obtain ⟨rest, htrace, hf⟩ := h.onTrace (p := p) fun v hv => by rw [hs] at hv; cases hv
  have hsent : receivedBy (t.log p) ++ m :: later <+: sentBy (plan.trace p.other) := by
    rw [← hc, ← h.fifo p]
    exact sentBy_mono (h.log_begins p.other)
  rw [hs] at hf
  rcases hf.of_receive with ⟨rfl, hfinal⟩ | ⟨m', rest, rfl, hnext⟩
  · rcases plan.ends p with ⟨v, hv⟩ | ⟨-, hall, -⟩
    · rw [hv] at hfinal
      cases hfinal
    · rw [← hall, htrace, List.append_nil] at hsent
      have := hsent.length_le
      rw [List.length_append, List.length_cons] at this
      omega
  · have hdual := plan.dual p
    rw [htrace, receivedBy_append] at hdual
    cases head_eq_of_common hsent hdual
    exact ⟨rest, htrace, hnext⟩

theorem Sound.put (h : Sound plan t) (hp : ∀ v, t.script p ≠ .done v) {s : Script M L A α}
    {act : Act M A} {channel : Party → List M}
    (hnext : ∃ rest, plan.trace p = t.log p ++ act :: rest ∧
      Follows (S.answer p) s rest (plan.final p))
    (hself : sentBy (t.log p.other) = receivedBy (t.log p ++ [act]) ++ channel p)
    (hother : sentBy (t.log p ++ [act]) = receivedBy (t.log p.other) ++ channel p.other) :
    Sound plan (t.put p s act channel) := by
  have hlog : (t.put p s act channel).log p = t.log p ++ [act] := Function.update_self ..
  have hscript : (t.put p s act channel).script p = s := Function.update_self ..
  have hlog' : (t.put p s act channel).log p.other = t.log p.other :=
    Function.update_of_ne p.other_ne ..
  have hscript' : (t.put p s act channel).script p.other = t.script p.other :=
    Function.update_of_ne p.other_ne ..
  refine ⟨fun q => ?_, fun q => Or.inl ?_⟩
  · by_cases hq : q = p
    · subst hq
      rw [hlog, hlog']
      exact hself
    · rw [Party.eq_other_of_ne hq, Party.other_other, hlog, hlog']
      exact hother
  · by_cases hq : q = p
    · subst hq
      obtain ⟨rest, htrace, hf⟩ := hnext
      refine ⟨rest, by rw [htrace, hlog, List.append_assoc, List.singleton_append], ?_⟩
      rw [hscript]
      exact hf
    · rw [Party.eq_other_of_ne hq]
      obtain ⟨rest, htrace, hf⟩ := h.other_onTrace hp
      refine ⟨rest, by rw [htrace, hlog'], ?_⟩
      rw [hscript']
      exact hf

theorem Sound.stop (h : Sound plan t) (hp : ∀ v, t.script p ≠ .done v)
    (hc : t.closed S p.other = true) (l : L) (e : E)
    (hbegun : ∃ rest, plan.trace p = t.log p ++ rest ∧ (∀ q a later, rest ≠ .asked q a :: later) ∧
      (∀ m later, rest = .received m :: later → t.channel p = []) ∧
      (rest = [] → (plan.final p).Waits)) :
    Sound plan (t.stop p (S.lost l e)) := by
  have hscript : (t.stop p (S.lost l e)).script p = .done (S.lost l e) := Function.update_self ..
  have hscript' : (t.stop p (S.lost l e)).script p.other = t.script p.other :=
    Function.update_of_ne p.other_ne ..
  obtain ⟨v, hv, hcloses⟩ := Talk.closed_iff.mp hc
  obtain ⟨rest', htrace', hf⟩ := h.other_onTrace hp
  rw [hv] at hf
  obtain ⟨rfl, hfinal⟩ := hf.of_done
  rw [List.append_nil] at htrace'
  refine ⟨h.fifo, fun q => ?_⟩
  by_cases hq : q = p
  · subst hq
    obtain ⟨rest, htrace, hask, hreceive, hend⟩ := hbegun
    refine Or.inr ⟨⟨l, e, hscript⟩, ⟨v, hscript'.trans hv, hcloses, hfinal⟩, htrace'.symm, rest, htrace,
      hask, fun m later heq => ?_, hend⟩
    have hfifo := h.fifo q
    rw [hreceive m later heq, List.append_nil] at hfifo
    rw [htrace']
    exact hfifo.symm
  · rw [Party.eq_other_of_ne hq]
    refine Or.inl ⟨[], by rw [List.append_nil]; exact htrace', ?_⟩
    rw [hscript', hv, hfinal]
    exact .refl _

theorem Sound.step (h : Sound plan t) {t' : Talk M L A α} (hstep : Step S t t') : Sound plan t' := by
  cases hstep with
  | @send p l m next hs =>
    have hp (v : α) : t.script p ≠ .done v := by rw [hs]; exact nofun
    obtain ⟨rest, htrace, hf⟩ := h.onTrace hp
    rw [hs] at hf
    rcases hf.of_send with ⟨-, hfinal⟩ | ⟨rest, rfl, hnext⟩
    · exact absurd hfinal plan.final_ne_send
    · refine h.put hp ⟨rest, htrace, hnext⟩ ?_ ?_
      · rw [h.fifo p, receivedBy_append, Function.update_of_ne p.other_ne.symm]
        simp [receivedBy]
      · have hfifo := h.fifo p.other
        rw [Party.other_other] at hfifo
        rw [sentBy_append, hfifo, Function.update_self]
        simp [sentBy]
  | @receive p l next m later hs hc =>
    have hp (v : α) : t.script p ≠ .done v := by rw [hs]; exact nofun
    refine h.put hp (h.received_next hs hc) ?_ ?_
    · rw [h.fifo p, receivedBy_append, Function.update_self, hc]
      simp [receivedBy]
    · have hfifo := h.fifo p.other
      rw [Party.other_other] at hfifo
      rw [sentBy_append, hfifo, Function.update_of_ne p.other_ne]
      simp [sentBy]
  | @ask p q next hs =>
    have hp (v : α) : t.script p ≠ .done v := by rw [hs]; exact nofun
    obtain ⟨rest, htrace, hf⟩ := h.onTrace hp
    rw [hs] at hf
    rcases hf.of_ask with ⟨-, hfinal⟩ | ⟨rest, rfl, hnext⟩
    · exact absurd hfinal plan.final_ne_ask
    · refine h.put hp ⟨rest, htrace, hnext⟩ ?_ ?_
      · rw [h.fifo p, receivedBy_append]
        simp [receivedBy]
      · have hfifo := h.fifo p.other
        rw [Party.other_other] at hfifo
        rw [sentBy_append, hfifo]
        simp [sentBy]
  | @loseSend p l m next e hs hc =>
    have hp (v : α) : t.script p ≠ .done v := by rw [hs]; exact nofun
    obtain ⟨rest, htrace, hf⟩ := h.onTrace hp
    rw [hs] at hf
    rcases hf.of_send with ⟨-, hfinal⟩ | ⟨rest, rfl, -⟩
    · exact absurd hfinal plan.final_ne_send
    · exact h.stop hp hc l e ⟨_, htrace, nofun, nofun, nofun⟩
  | @loseReceive p l next e hs hn hc =>
    have hp (v : α) : t.script p ≠ .done v := by rw [hs]; exact nofun
    obtain ⟨rest, htrace, hf⟩ := h.onTrace hp
    rw [hs] at hf
    rcases hf.of_receive with ⟨rfl, hfinal⟩ | ⟨m, rest, rfl, -⟩
    · exact h.stop hp hc l e ⟨_, htrace, nofun, nofun, fun _ => ⟨l, next, hfinal⟩⟩
    · exact h.stop hp hc l e ⟨_, htrace, nofun, fun _ _ _ => hn, nofun⟩

/-- **Every schedule stays on the plan.** -/
theorem Plan.sound (plan : Plan S start) (moves : List (Move E)) :
    Sound plan ((Talk.start start).run S moves) :=
  Talk.run_keeps (fun _ _ h hstep => h.step hstep) moves
    ⟨fun _ => rfl, fun p => Or.inl ⟨plan.trace p, rfl, plan.follows p⟩⟩

/-! ### Nobody waits forever -/

theorem Leads.append {k : ℤ} {waits : Prop} {later : List (Act M A)} :
    ∀ (log : List (Act M A)) {credit : ℤ}, Leads k waits credit (log ++ later) →
      Leads k waits (credit + (sentBy log).length - (receivedBy log).length) later
  | [], credit, h => by simpa [sentBy, receivedBy] using h
  | .sent _ :: log, credit, h => by
    have heq : credit + 1 + (sentBy log).length - (receivedBy log).length =
        credit + ((sentBy log).length + 1 : ℕ) - (receivedBy log).length := by push_cast; ring
    exact heq ▸ Leads.append log h
  | .received _ :: log, credit, h => by
    have heq : credit - 1 + (sentBy log).length - (receivedBy log).length =
        credit + (sentBy log).length - ((receivedBy log).length + 1 : ℕ) := by push_cast; ring
    exact heq ▸ Leads.append log h.2
  | .asked _ _ :: log, credit, h => Leads.append log h

theorem Sound.lead_le (h : Sound plan t) (hw : (t.script p).Waits) :
    p.lead ≤ (sentBy (t.log p)).length - (receivedBy (t.log p)).length := by
  obtain ⟨l, next, hs⟩ := hw
  obtain ⟨rest, htrace, hf⟩ := h.onTrace (p := p) fun v hv => by rw [hs] at hv; cases hv
  have hleads := plan.leads p
  rw [htrace] at hleads
  have hrest := Leads.append _ hleads
  rw [zero_add] at hrest
  rw [hs] at hf
  rcases hf.of_receive with ⟨rfl, hfinal⟩ | ⟨m, rest, rfl, -⟩
  · exact hrest ⟨l, next, hfinal⟩
  · exact hrest.1

theorem waits_of_stuck (hstuck : t.Stuck S) (hp : ∀ v, t.script p ≠ .done v) :
    (t.script p).Waits ∧ t.channel p = [] := by
  have hgo := hstuck (.go p)
  simp only [Talk.move] at hgo
  cases hs : t.script p with
  | done v => exact absurd hs (hp v)
  | send l m next => simp [hs] at hgo
  | ask q next => simp [hs] at hgo
  | receive l next =>
    refine ⟨⟨l, next, rfl⟩, ?_⟩
    cases hc : t.channel p with
    | nil => rfl
    | cons m rest => simp [hs, hc] at hgo

/-- **Nobody waits forever.** If no party can move, both have ended. -/
theorem Sound.done_of_stuck [Nonempty E] (h : Sound plan t) (hstuck : t.Stuck S) (p : Party) :
    ∃ v, t.script p = .done v := by
  by_contra hn
  have hp (v : α) : t.script p ≠ .done v := fun hv => hn ⟨v, hv⟩
  obtain ⟨⟨l, next, hs⟩, hc⟩ := waits_of_stuck hstuck hp
  have hfifo := h.fifo p
  rw [hc, List.append_nil] at hfifo
  obtain ⟨rest', htrace', hf'⟩ := h.other_onTrace hp
  by_cases hq : ∃ v, t.script p.other = .done v
  · obtain ⟨v, hv⟩ := hq
    rw [hv] at hf'
    obtain ⟨rfl, hfinal'⟩ := hf'.of_done
    rw [List.append_nil] at htrace'
    have hopen : S.closes v ≠ true := by
      intro hcloses
      obtain ⟨e⟩ := ‹Nonempty E›
      have hlose := hstuck (.lose p e)
      simp [Talk.move, Talk.closed, hv, hcloses, hs, hc] at hlose
    obtain ⟨rest, htrace, hf⟩ := h.onTrace hp
    rw [hs] at hf
    rcases hf.of_receive with ⟨rfl, hfinal⟩ | ⟨m, rest, rfl, -⟩
    · rcases plan.ends p with ⟨w, hw⟩ | ⟨-, -, w, hw, hcloses⟩
      · rw [hw] at hfinal
        cases hfinal
      · rw [hfinal'] at hw
        cases hw
        exact hopen hcloses
    · have hdual := (plan.dual p).length_le
      rw [htrace, htrace', hfifo, receivedBy_append, List.length_append] at hdual
      simp [receivedBy] at hdual
  · obtain ⟨hw', hc'⟩ := waits_of_stuck hstuck fun v hv => hq ⟨v, hv⟩
    have hfifo' := h.fifo p.other
    rw [hc', List.append_nil, Party.other_other] at hfifo'
    have hlead := h.lead_le ⟨l, next, hs⟩
    have hlead' := h.lead_le hw'
    have hlen := congrArg List.length hfifo
    have hlen' := congrArg List.length hfifo'
    have hsum := p.lead_add_lead_other
    omega

/-! ### How a party ends -/

theorem Sound.ended (h : Sound plan t) {v : α} (hv : t.script p = .done v) :
    t.log p = plan.trace p ∧ plan.final p = .done v ∨ Lost plan t p := by
  rcases h.track p with ⟨rest, htrace, hf⟩ | hl
  · rw [hv] at hf
    obtain ⟨rfl, hfinal⟩ := hf.of_done
    rw [List.append_nil] at htrace
    exact Or.inl ⟨htrace.symm, hfinal⟩
  · exact Or.inr hl

/-- A party whose messages are all received by the other is lost only where it waits for more than the
other sends. -/
theorem Lost.waits (h : Sound plan t) (hl : Lost plan t p)
    (hall : sentBy (plan.trace p) = receivedBy (plan.trace p.other)) : (plan.final p).Waits := by
  obtain ⟨rest, htrace, hask, hreceive, hend⟩ := hl.begun
  have hfifo := h.fifo p.other
  rw [Party.other_other, hl.complete, ← hall, htrace, sentBy_append] at hfifo
  have hlen := congrArg List.length hfifo
  rw [List.length_append, List.length_append] at hlen
  rcases rest with _ | ⟨m | m | ⟨q, a⟩, rest⟩
  · exact hend rfl
  · simp only [sentBy, List.length_cons] at hlen
    omega
  · have hdual := (plan.dual p).length_le
    rw [← hreceive m rest rfl, htrace, receivedBy_append, List.length_append] at hdual
    simp only [receivedBy, List.length_cons] at hdual
    omega
  · exact absurd rfl (hask q a rest)

end Sound

end Rift.Lib.Dialogue
