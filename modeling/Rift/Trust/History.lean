import Rift.Trust.Refinement

/-! # Revocation and forgetting over whole histories

A history of the store is a list of events: calls of its mutations, by whichever caller the lock lets
in, and reopenings of its file. A store whose rollback failed is poisoned and its file must not be
reopened (`Quarantined`); within the instance such calls are allowed.

The main results are `Call.run_revoked`, `revoked_runEvents`, `GenerationsBounded.commit` and
`revocation_sticky_and_forget_fences`. -/

namespace Rift.Trust

open Rift.Lib Rift.Core Std

variable {blake3 : Blake3}

/-! ### Histories -/

/-- A call with what the file system does during it, or a reopening of the file. -/
inductive Event
  | call (call : Call) (io : IoOutcome)
  | reopen (fails : OpenStep → Bool)

/-- The store after an event; there is none if the file cannot be reopened. -/
def Event.step (blake3 : Blake3) (s : StoreInner) :
    Event → Option StoreInner
  | .call c io => some (c.run blake3 s io).2
  | .reopen fails => (openStore blake3 fails (some s.file.bytes)).toOption

/-- The store after some events, unless it cannot be opened. -/
def runEvents (blake3 : Blake3) : StoreInner → List Event → Option StoreInner
  | s, [] => some s
  | s, e :: events => (e.step blake3 s).bind fun s' => runEvents blake3 s' events

/-- The event is not a call whose rollback fails. -/
def Event.RollsBack : Event → Prop
  | .call _ io => io.rollback = .done
  | .reopen _ => True

/-- The event opens the store again. -/
def Event.IsReopen : Event → Prop
  | .call _ _ => False
  | .reopen _ => True

/-- The file is not reopened after a failed rollback. -/
def Quarantined (events : List Event) : Prop :=
  events.Pairwise fun e e' => e'.IsReopen → e.RollsBack

/-- As long as the file may still be reopened, the store refines it. -/
def Recoverable (blake3 : Blake3) (s : StoreInner) (rest : List Event) :
    Prop :=
  (∃ es, Refines blake3 s es) ∨ ∀ e ∈ rest, ¬ e.IsReopen

theorem Recoverable.step {s s' : StoreInner} {e : Event} {rest : List Event}
    (h : Recoverable blake3 s (e :: rest)) (hq : Quarantined (e :: rest))
    (hs : e.step blake3 s = some s') : Recoverable blake3 s' rest := by
  rcases h with ⟨es, h⟩ | h
  · cases e with
    | call c io =>
      cases hs
      by_cases hio : io.rollback = .done
      · rw [c.run_eq_commit]
        exact Or.inl (h.commit hio)
      · exact Or.inr fun e' he' hr => hio ((List.pairwise_cons.mp hq).1 e' he' hr)
    | reopen fails =>
      cases ho : openStore blake3 fails (some s.file.bytes) with
      | error e => simp [Event.step, ho, Except.toOption] at hs
      | ok s₁ =>
        simp only [Event.step, ho, Except.toOption, Option.some.injEq] at hs
        subst hs
        exact Or.inl (openStore_refines ho).2.2
  · exact Or.inr fun e' he' => h e' (List.mem_cons_of_mem _ he')

theorem Recoverable.run : ∀ {s s' : StoreInner} {events rest : List Event},
    Recoverable blake3 s (events ++ rest) → Quarantined (events ++ rest) →
      runEvents blake3 s events = some s' → Recoverable blake3 s' rest
  | s, s', [], rest, h, _, hs => by cases hs; exact h
  | s, s', e :: events, rest, h, hq, hs => by
    obtain ⟨s₁, h₁, h₂⟩ := Option.bind_eq_some_iff.mp hs
    exact Recoverable.run (h.step hq h₁) (List.pairwise_cons.mp hq).2 h₂

/-! ### Revocation is sticky -/

theorem state_eq_revoked_iff {s : StoreInner} {d : DeviceId} :
    s.state d = some .revoked ↔ s.decisions[d]? = some .revoked := by
  unfold StoreInner.state StoreInner.entry
  cases hd : s.decisions[d]? with
  | none => simp
  | some decision => cases decision <;> simp [trustEntry, TrustEntry.state]

theorem applyMutation_revoked {decisions : Decisions} {m : TrustMutation} {d : DeviceId}
    (h : decisions[d]? = some .revoked) (ht : validateTransition decisions m = .ok ())
    (hm : m ≠ .forget d) : (applyMutation decisions m)[d]? = some .revoked := by
  cases m with
  | trust peer =>
    have hne : peer.deviceId ≠ d := by
      rintro rfl
      simp [validateTransition, h] at ht
    simp [applyMutation, ExtTreeMap.getElem?_insert, hne, h]
  | revoke d' =>
    by_cases hd : d' = d
    · simp [applyMutation, hd]
    · simp [applyMutation, ExtTreeMap.getElem?_insert, hd, h]
  | forget d' =>
    have hne : d' ≠ d := fun hd => hm (by rw [hd])
    simp [applyMutation, ExtTreeMap.getElem?_erase, hne, h]

/-- **One call** keeps a revocation unless it is a forget that succeeds. -/
theorem Call.run_revoked {s : StoreInner} {d : DeviceId} {c : Call} {io : IoOutcome}
    (h : s.decisions[d]? = some .revoked)
    (hf : c = .forget d → (c.run blake3 s io).1 ≠ .ok ()) :
    (c.run blake3 s io).2.decisions[d]? = some .revoked := by
  rw [c.run_eq_commit] at hf ⊢
  rcases commit_cases blake3 s c.mutation c.expectedGeneration io with
    ⟨e, -, he⟩ | ⟨record, hc, -, he⟩ | ⟨record, written, e, file, -, -, he, -⟩
  · rw [he]; exact h
  · rw [he] at hf ⊢
    have ht := (commitChecks_ok_iff.mp hc).2.2.2.1
    refine applyMutation_revoked h ht fun hm => ?_
    cases c with
    | forget d' => cases hm; exact hf rfl rfl
    | trust | trustIfGeneration | revoke => cases hm
  · rw [he]; exact h

/-- **Over a whole history** a revocation stays until a forget succeeds. -/
theorem revoked_runEvents {d : DeviceId} : ∀ {s s' : StoreInner} {events : List Event},
    s.decisions[d]? = some .revoked → Recoverable blake3 s events → Quarantined events →
      runEvents blake3 s events = some s' →
      s'.decisions[d]? = some .revoked ∨
        ∃ pre io post s₁, events = pre ++ .call (.forget d) io :: post ∧
          runEvents blake3 s pre = some s₁ ∧ ((Call.forget d).run blake3 s₁ io).1 = .ok ()
  | s, s', [], h, _, _, hs => by cases hs; exact Or.inl h
  | s, s', e :: events, h, hr, hq, hs => by
    obtain ⟨s₁, h₁, h₂⟩ := Option.bind_eq_some_iff.mp hs
    have hr₁ := hr.step hq h₁
    have hq₁ := (List.pairwise_cons.mp hq).2
    by_cases hf : ∃ io, e = .call (.forget d) io ∧ ((Call.forget d).run blake3 s io).1 = .ok ()
    · obtain ⟨io, rfl, hok⟩ := hf
      exact Or.inr ⟨[], io, events, s, rfl, rfl, hok⟩
    · have h₁' : s₁.decisions[d]? = some .revoked := by
        cases e with
        | call c io =>
          cases h₁
          refine Call.run_revoked h fun hc hok => hf ⟨io, by rw [hc], ?_⟩
          rw [← hc]; exact hok
        | reopen fails =>
          have hes : ∃ es, Refines blake3 s es :=
            hr.resolve_right fun hno => hno _ List.mem_cons_self trivial
          obtain ⟨es, hes⟩ := hes
          rcases hes.reopen fails with ⟨step, -, ho⟩ | ho
          · simp [Event.step, ho, Except.toOption] at h₁
          · simp only [Event.step, ho, Except.toOption, Option.some.injEq] at h₁
            subst h₁
            exact h
      rcases revoked_runEvents h₁' hr₁ hq₁ h₂ with hend | ⟨pre, io, post, s₂, rfl, hpre, hok⟩
      · exact Or.inl hend
      · refine Or.inr ⟨e :: pre, io, post, s₂, rfl, ?_, hok⟩
        rw [runEvents, h₁]
        exact hpre

/-! ### Generations -/

theorem length_le_of_legal : ∀ {st : ReplayResult} {es : List Entry},
    (journalLog blake3).Legal st es → st.recordCount ≤ maxRecords →
      st.recordCount + es.length ≤ maxRecords
  | st, [], _, h => h
  | st, e :: es, hl, _ => by
    have := length_le_of_legal hl.2 hl.1.1
    change st.recordCount + 1 + es.length ≤ maxRecords at this
    rw [List.length_cons]; omega

/-- Every generation is at most the number of records, which is at most `maxRecords`. -/
def GenerationsBounded (s : StoreInner) : Prop :=
  s.recordCount ≤ maxRecords ∧ ∀ d, s.currentGeneration d ≤ s.recordCount

theorem openStore_generationsBounded {fails : OpenStep → Bool} {existing : Option Bytes}
    {s : StoreInner} (h : openStore blake3 fails existing = .ok s) : GenerationsBounded s := by
  obtain ⟨-, hg, es, hr⟩ := openStore_refines h
  refine ⟨?_, fun d => ?_⟩
  · have := length_le_of_legal hr.legal (Nat.zero_le _)
    rw [hr.recordCount]
    exact (Nat.le_add_left _ _).trans this
  · simp [StoreInner.currentGeneration, hg]

theorem currentGeneration_committed (s : StoreInner) (m : TrustMutation) (file : File) (n : ℕ)
    (d : DeviceId) : (s.committed m file n).currentGeneration d =
      if m = .forget d then min (s.currentGeneration d + 1) u64Max else s.currentGeneration d := by
  unfold StoreInner.currentGeneration StoreInner.committed
  cases m with
  | trust peer => rfl
  | revoke d' => rfl
  | forget d' =>
    by_cases hd : d' = d
    · simp [bumpGeneration, hd]
    · simp [bumpGeneration, ExtTreeMap.getElem?_insert, hd]

variable (blake3) in
/-- **One commit** moves the generation of `d`, by one, if and only if it is a forget of `d` that
succeeds. -/
theorem GenerationsBounded.commit {s : StoreInner} (h : GenerationsBounded s) (m : TrustMutation)
    (expected : Option (DeviceId × ℕ)) (io : IoOutcome) :
    GenerationsBounded (commit blake3 s m expected io).2 ∧
      ∀ d, (commit blake3 s m expected io).2.currentGeneration d = s.currentGeneration d +
        if m = .forget d ∧ (commit blake3 s m expected io).1 = .ok () then 1 else 0 := by
  rcases commit_cases blake3 s m expected io with
    ⟨e, -, he⟩ | ⟨record, hc, -, he⟩ | ⟨record, written, e, file, -, -, he, -⟩
  · rw [he]; exact ⟨h, fun d => by simp⟩
  · have hn := (commitChecks_ok_iff.mp hc).2.2.2.2.1
    have hg : ∀ d, (s.committed m (s.file.write record) record.length).currentGeneration d =
        s.currentGeneration d + if m = .forget d then 1 else 0 := by
      intro d
      have := h.2 d
      rw [currentGeneration_committed]
      unfold maxRecords at hn
      unfold u64Max
      split_ifs <;> omega
    rw [he]
    refine ⟨⟨hn, fun d => ?_⟩, fun d => by rw [hg]; simp⟩
    have := h.2 d
    rw [hg]
    change _ ≤ s.recordCount + 1
    split_ifs <;> omega
  · rw [he]; exact ⟨h, fun d => by simp [StoreInner.currentGeneration]⟩

theorem GenerationsBounded.run {s s' : StoreInner} {events : List Event}
    (h : GenerationsBounded s) (hs : runEvents blake3 s events = some s') :
    GenerationsBounded s' := by
  induction events generalizing s with
  | nil => cases hs; exact h
  | cons e events ih =>
    obtain ⟨s₁, h₁, h₂⟩ := Option.bind_eq_some_iff.mp hs
    refine ih ?_ h₂
    cases e with
    | call c io =>
      cases h₁
      rw [c.run_eq_commit]
      exact (h.commit blake3 _ _ _).1
    | reopen fails =>
      cases ho : openStore blake3 fails (some s.file.bytes) with
      | error e => simp [Event.step, ho, Except.toOption] at h₁
      | ok s₂ =>
        simp only [Event.step, ho, Except.toOption, Option.some.injEq] at h₁
        subst h₁
        exact openStore_generationsBounded ho

variable (blake3) in
/-- **Within one instance** generations never go back. -/
theorem GenerationsBounded.runCalls_generation (d : DeviceId) :
    ∀ {s : StoreInner} (calls : List (Call × IoOutcome)), GenerationsBounded s →
      GenerationsBounded (runCalls blake3 s calls) ∧
        s.currentGeneration d ≤ (runCalls blake3 s calls).currentGeneration d
  | s, [], h => ⟨h, Nat.le_refl _⟩
  | s, (c, io) :: calls, h => by
    obtain ⟨h', hg⟩ := h.commit blake3 c.mutation c.expectedGeneration io
    rw [← c.run_eq_commit] at h' hg
    obtain ⟨h₁, h₂⟩ := runCalls_generation d calls h'
    refine ⟨h₁, Nat.le_trans ?_ h₂⟩
    rw [hg d]
    exact Nat.le_add_right _ _

theorem runCalls_append : ∀ (s : StoreInner) (calls calls' : List (Call × IoOutcome)),
    runCalls blake3 s (calls ++ calls') = runCalls blake3 (runCalls blake3 s calls) calls'
  | _, [], _ => rfl
  | s, (c, io) :: calls, calls' => runCalls_append (c.run blake3 s io).2 calls calls'

/-- **The fence.** A trust that insists on the generation of `d` as it was read before some calls
succeeds only if none of them is a forget of `d` that succeeded. -/
theorem GenerationsBounded.no_forget_between {s : StoreInner} (h : GenerationsBounded s)
    {p : TrustedPeer} {io : IoOutcome} {between : List (Call × IoOutcome)}
    (hok : ((Call.trustIfGeneration p (s.currentGeneration p.deviceId)).run blake3
      (runCalls blake3 s between) io).1 = .ok ())
    {pre post : List (Call × IoOutcome)} {io' : IoOutcome}
    (hb : between = pre ++ (.forget p.deviceId, io') :: post) :
    ((Call.forget p.deviceId).run blake3 (runCalls blake3 s pre) io').1 ≠ .ok () := by
  intro hf
  obtain ⟨hpre, hle⟩ := runCalls_generation blake3 p.deviceId pre h
  obtain ⟨hfor, hg⟩ := hpre.commit blake3 (.forget p.deviceId) none io'
  obtain ⟨-, hle'⟩ := runCalls_generation blake3 p.deviceId post hfor
  have hstep := hg p.deviceId
  rw [if_pos ⟨rfl, hf⟩] at hstep
  have hend : runCalls blake3 s between =
      runCalls blake3
        (Trust.commit blake3 (runCalls blake3 s pre) (.forget p.deviceId) none io').2 post := by
    rw [hb, runCalls_append]
    rfl
  -- the commit of the trust has compared the generation it insists on with the current one
  have hsame : (runCalls blake3 s between).currentGeneration p.deviceId =
      s.currentGeneration p.deviceId := by
    rw [Call.run_eq_commit] at hok
    rcases commit_cases blake3 (runCalls blake3 s between) _ _ io with
      ⟨e, -, he⟩ | ⟨record, hc, -, -⟩ | ⟨_, _, e, _, -, -, he, -⟩
    · rw [he] at hok; cases hok
    · have := (commitChecks_ok_iff.mp hc).2.2.1
      simpa [StoreInner.isStale, Call.expectedGeneration] using this
    · rw [he] at hok; cases hok
  rw [hend] at hsame
  omega

/-- **Revocation is sticky and forget fences pairing.** After any history of an opened store: a
revocation that succeeds leaves the identity revoked at every later point of every continuation,
reopenings included as long as none follows a failed rollback, unless a forget of it succeeds in
between; a trust that insists on the current generation of its identity succeeds only if no forget of
that identity succeeds first; and no generation is ever at the bound at which it would saturate. -/
theorem revocation_sticky_and_forget_fences (blake3 : Blake3)
    (fails : OpenStep → Bool) (existing : Option Bytes) (s₀ : StoreInner)
    (hopen : openStore blake3 fails existing = .ok s₀) (history : List Event) (s : StoreInner)
    (hrun : runEvents blake3 s₀ history = some s) :
    (∀ (d : DeviceId) (io : IoOutcome) (later : List Event) (s' : StoreInner),
      Quarantined (history ++ .call (.revoke d) io :: later) →
      ((Call.revoke d).run blake3 s io).1 = .ok () →
      runEvents blake3 ((Call.revoke d).run blake3 s io).2 later = some s' →
      s'.state d = some .revoked ∨
        ∃ pre io' post s₁, later = pre ++ .call (.forget d) io' :: post ∧
          runEvents blake3 ((Call.revoke d).run blake3 s io).2 pre = some s₁ ∧
          ((Call.forget d).run blake3 s₁ io').1 = .ok ()) ∧
    (∀ (p : TrustedPeer) (io : IoOutcome) (between : List (Call × IoOutcome)),
      ((Call.trustIfGeneration p (s.currentGeneration p.deviceId)).run blake3
        (runCalls blake3 s between) io).1 = .ok () →
      ∀ pre io' post, between = pre ++ (.forget p.deviceId, io') :: post →
        ((Call.forget p.deviceId).run blake3 (runCalls blake3 s pre) io').1 ≠ .ok ()) ∧
    (∀ d, s.currentGeneration d < u64Max) := by
  have hgen : GenerationsBounded s := (openStore_generationsBounded hopen).run hrun
  refine ⟨?_, fun p io between hok pre io' post hb => hgen.no_forget_between hok hb, ?_⟩
  · intro d io later s' hq hok hlater
    have hrec : Recoverable blake3 s (.call (.revoke d) io :: later) :=
      Recoverable.run (Or.inl (openStore_refines hopen).2.2) hq hrun
    have hq' : Quarantined (.call (.revoke d) io :: later) := (List.pairwise_append.mp hq).2.1
    have hrev : ((Call.revoke d).run blake3 s io).2.decisions[d]? = some .revoked := by
      rw [Call.run_eq_commit] at hok ⊢
      rcases commit_cases blake3 s _ _ io with
        ⟨e, -, he⟩ | ⟨record, -, -, he⟩ | ⟨_, _, e, _, -, -, he, -⟩
      · rw [he] at hok; cases hok
      · rw [he]
        change (applyMutation s.decisions (.revoke d))[d]? = _
        simp [applyMutation]
      · rw [he] at hok; cases hok
    rw [state_eq_revoked_iff]
    exact revoked_runEvents hrev (hrec.step hq' rfl) (List.pairwise_cons.mp hq').2 hlater
  · intro d
    have h₁ := hgen.1
    have h₂ := hgen.2 d
    unfold maxRecords at h₁
    unfold u64Max
    omega

/-- A peer that is trusted, then revoked, is revoked after the file was reopened; and a trust at the
generation read before a forget fails. -/
theorem revoked_after_reopen_and_stale_after_forget :
    let s := ((Call.trust samplePeer).run sampleBlake3 createdStore .ok).2
    let revoked := ((Call.revoke samplePeer.deviceId).run sampleBlake3 s .ok).2
    (∃ s', runEvents sampleBlake3 revoked [.reopen fun _ => false] = some s' ∧
      s'.state samplePeer.deviceId = some .revoked) ∧
    ((Call.trustIfGeneration samplePeer (s.currentGeneration samplePeer.deviceId)).run sampleBlake3
      (runCalls sampleBlake3 s [(.forget samplePeer.deviceId, .ok)]) .ok).1 ≠ .ok () := by
  intro s revoked
  obtain ⟨hsticky, hfence, -⟩ := revocation_sticky_and_forget_fences sampleBlake3 (fun _ => false)
    none createdStore rfl [.call (.trust samplePeer) .ok] s rfl
  refine ⟨?_, fun hok => hfence samplePeer .ok _ hok [] .ok [] rfl (by decide)⟩
  obtain ⟨s', hs'⟩ : ∃ s', runEvents sampleBlake3 revoked [.reopen fun _ => false] = some s' :=
    Option.isSome_iff_exists.mp (by decide +kernel)
  refine ⟨s', hs', (hsticky _ .ok _ s' ?_ (by decide) hs').resolve_right ?_⟩
  · simp [Quarantined, Event.RollsBack, Event.IsReopen, IoOutcome.ok]
  · rintro ⟨pre, io, post, s₁, hl, -⟩
    rcases pre with _ | ⟨e, pre⟩ <;> simp at hl

/-- A revocation is not sticky across a failed rollback: the sync of a forget fails, its record cannot
be cut off again, and the store that is reopened all the same finds it and knows the identity no
more. -/
theorem reopening_quarantined_path_lifts_revocation :
    let d := samplePeer.deviceId
    let revoked := (Call.revoke d).run sampleBlake3 createdStore .ok
    let failing : IoOutcome := ⟨.fails .sync 69, .truncateFails⟩
    revoked.1 = .ok () ∧ ((Call.forget d).run sampleBlake3 revoked.2 failing).1 ≠ .ok () ∧
      (runEvents sampleBlake3 revoked.2 [.call (.forget d) failing, .reopen fun _ => false]).map
        (StoreInner.state · d) = some none := by
  decide +kernel

end Rift.Trust
