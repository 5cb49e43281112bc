import Rift.Identity.Creation

/-! # One identity is elected

However the steps of the creators interleave, and wherever they fail or crash, one of them promotes
its envelope, and no step touches that again.

The main results are `Files.effect`, `Inv.effect` and `identity_is_elected_once`. -/

namespace Rift.Identity

open Rift.Lib Rift.Core

variable {C Key : Type} (blake3 : Bytes → FixedBytes checksumLen) (keys : KeyScheme Key)

/-! ### What holds throughout -/

/-- What holds of the files of the callers. A file that is not yet promoted has one name and one
caller, and no one else writes it. -/
structure Files (σ : System C Key) : Prop where
  allocated : ∀ name inode, σ.directory.names name = some inode → inode < σ.directory.next
  owned : ∀ c t, (σ.phases c).temporary = some t → σ.directory.names t.name = some t.inode
  exclusive : ∀ c c' t t', (σ.phases c).temporary = some t → (σ.phases c').temporary = some t' →
    t.name = t'.name → c = c'
  sole : ∀ c key t n, (σ.phases c).draft = some (key, t, n) →
    ∀ name, σ.directory.names name = some t.inode → name = t.name
  content : ∀ c key t n, (σ.phases c).draft = some (key, t, n) → n ≤ identityFileLen ∧
    (σ.directory.inodes t.inode).bytes = (encode blake3 keys key).take n

/-- What holds of the directory and the callers, whatever they do. The keys that may be promoted have
a property. -/
structure Inv (P : Key → Prop) (σ : System C Key) : Prop extends Files blake3 keys σ where
  published : ∀ inode, σ.directory.names .identity = some inode →
    ∃ key, P key ∧ (σ.directory.inodes inode).bytes = encode blake3 keys key
  succeeded : ∀ c identity, (σ.phases c).success = some identity →
    ∃ inode, σ.directory.names .identity = some inode ∧
      decode blake3 keys (σ.directory.inodes inode).bytes = .ok identity

/-- The identity stays where it is and as it is. -/
def KeepsIdentity (d d' : Directory Name) : Prop :=
  ∀ inode, d.names .identity = some inode →
    d'.names .identity = some inode ∧ (d'.inodes inode).bytes = (d.inodes inode).bytes

variable {blake3 keys} {P : Key → Prop} {σ : System C Key} {c : C} {p' : Phase Key}
  {d' : Directory Name}

theorem Temporary.name_ne_identity (t : Temporary) : t.name ≠ .identity := nofun

theorem Files.inode_ne (h : Files blake3 keys σ) {c' : C} {key : Key} {t t' : Temporary} {n : ℕ}
    (hd : (σ.phases c).draft = some (key, t, n)) (ht : (σ.phases c').temporary = some t')
    (hne : c' ≠ c) : t'.inode ≠ t.inode := by
  intro heq
  have hname := h.sole c key t n hd t'.name (heq ▸ h.owned c' t' ht)
  exact hne (h.exclusive c' c t' t ht (Phase.temporary_of_draft hd) hname)

theorem Files.identity_ne (h : Files blake3 keys σ) {key : Key} {t : Temporary} {n inode : ℕ}
    (hd : (σ.phases c).draft = some (key, t, n))
    (hi : σ.directory.names .identity = some inode) : inode ≠ t.inode := by
  rintro rfl
  exact t.name_ne_identity (h.sole c key t n hd .identity hi).symm

section

variable (he : Effect blake3 keys σ.directory (σ.phases c) p' d')

include he

theorem Effect.keepsIdentity (h : Files blake3 keys σ) : KeepsIdentity σ.directory d' := by
  intro inode hi
  cases he with
  | quiet hd hp => exact ⟨by rw [hd.names, hi], hd.bytes inode⟩
  | @created key t mode hname hinode =>
    have hne : inode ≠ σ.directory.next := Nat.ne_of_lt (h.allocated _ _ hi)
    rw [Directory.allocate_names_of_ne t.name_ne_identity.symm, Directory.allocate_inodes_of_ne hne]
    exact ⟨hi, rfl⟩
  | @wrote key t n m p' hp hp' hs =>
    exact ⟨hi, by rw [Directory.writeAt_inodes_of_ne (h.identity_ne hp hi)]⟩
  | linked hp hfree hname => rw [hfree] at hi; cases hi
  | @removed t p' hp ht hs =>
    rw [Directory.setName_names_of_ne t.name_ne_identity.symm]
    exact ⟨hi, rfl⟩
  | loaded hname => exact ⟨hi, rfl⟩

theorem Effect.temporary_cases {t : Temporary} (ht : p'.temporary = some t) :
    (σ.phases c).temporary = some t ∨
      σ.directory.names t.name = none ∧ t.inode = σ.directory.next ∧
        ∃ mode, d' = σ.directory.allocate t.name mode := by
  cases he with
  | quiet hd hp =>
    rcases hp.temporary with h | h
    · rw [h] at ht; cases ht
    · exact Or.inl (h ▸ ht)
  | created hname hinode => cases ht; exact Or.inr ⟨hname, hinode, _, rfl⟩
  | wrote hp hp' hs =>
    rw [Phase.temporary_of_draft hp'] at ht
    exact Or.inl (ht ▸ Phase.temporary_of_draft hp)
  | linked hp hfree hname => cases ht; exact Or.inl (by rw [hp]; rfl)
  | removed hp hnone hs => rw [hnone] at ht; cases ht
  | loaded hname => cases hr : decode blake3 keys _ <;> rw [hr] at ht <;> cases ht

theorem Files.names_kept (h : Files blake3 keys σ) {c₁ : C} {t : Temporary}
    (ht : (σ.phases c₁).temporary = some t) (hc : c₁ ≠ c ∨ p'.temporary = some t) :
    d'.names t.name = some t.inode := by
  have hold := h.owned c₁ t ht
  cases he with
  | quiet hd hp => rw [hd.names, hold]
  | @created key t' mode hname hinode =>
    have hne : t.name ≠ t'.name := fun heq => by rw [heq, hname] at hold; cases hold
    rw [Directory.allocate_names_of_ne hne, hold]
  | wrote hp hp' hs => exact hold
  | linked hp hfree hname => rw [Directory.setName_names_of_ne t.name_ne_identity, hold]
  | @removed t' p' hp hnone hs =>
    have hne : t.name ≠ t'.name := fun heq => by
      have := h.exclusive c₁ c t t' ht hp heq
      rcases hc with hc | hc
      · exact hc this
      · rw [hnone] at hc; cases hc
    rw [Directory.setName_names_of_ne hne, hold]
  | loaded hname => exact hold

theorem Files.allocated_kept (h : Files blake3 keys σ) (name : Name) (inode : ℕ)
    (hn : d'.names name = some inode) : inode < d'.next := by
  cases he with
  | quiet hd hp =>
    rw [hd.names] at hn
    rw [hd.next]
    exact h.allocated name inode hn
  | @created key t mode hname hinode =>
    show inode < σ.directory.next + 1
    by_cases heq : name = t.name
    · rw [heq, Directory.allocate_names_self] at hn
      cases hn
      exact Nat.lt_succ_self _
    · rw [Directory.allocate_names_of_ne heq] at hn
      exact Nat.lt_succ_of_lt (h.allocated name inode hn)
  | wrote hp hp' hs => exact h.allocated name inode hn
  | @linked key t inode' hp hfree hname =>
    by_cases heq : name = .identity
    · rw [heq, Directory.setName_names_self] at hn
      cases hn
      exact h.allocated _ _ hname
    · rw [Directory.setName_names_of_ne heq] at hn
      exact h.allocated name inode hn
  | @removed t p' hp hnone hs =>
    by_cases heq : name = t.name
    · rw [heq, Directory.setName_names_self] at hn
      cases hn
    · rw [Directory.setName_names_of_ne heq] at hn
      exact h.allocated name inode hn
  | loaded hname => exact h.allocated name inode hn

theorem Files.draft_kept (h : Files blake3 keys σ) {c₁ : C} (hc : c₁ ≠ c) {key : Key}
    {t : Temporary} {n : ℕ} (hd : (σ.phases c₁).draft = some (key, t, n)) :
    (∀ name, d'.names name = some t.inode → name = t.name) ∧
      (d'.inodes t.inode).bytes = (encode blake3 keys key).take n := by
  have hsole := h.sole c₁ key t n hd
  have hcontent := (h.content c₁ key t n hd).2
  have hlt := h.allocated _ _ (h.owned c₁ t (Phase.temporary_of_draft hd))
  cases he with
  | quiet hsame hp =>
    refine ⟨fun name hn => hsole name ?_, by rw [hsame.bytes, hcontent]⟩
    rwa [hsame.names] at hn
  | @created key' t' mode hname hinode =>
    refine ⟨fun name hn => ?_, by rw [Directory.allocate_inodes_of_ne (Nat.ne_of_lt hlt), hcontent]⟩
    by_cases heq : name = t'.name
    · rw [heq, Directory.allocate_names_self] at hn
      exact absurd (Option.some.inj hn) (Nat.ne_of_gt hlt)
    · rw [Directory.allocate_names_of_ne heq] at hn
      exact hsole name hn
  | @wrote key' t' n' m p' hp hp' hs =>
    have hne := h.inode_ne hp (Phase.temporary_of_draft hd) hc
    exact ⟨hsole, by rw [Directory.writeAt_inodes_of_ne hne, hcontent]⟩
  | @linked key' t' inode hp hfree hname =>
    refine ⟨fun name hn => ?_, hcontent⟩
    by_cases heq : name = .identity
    · rw [heq, Directory.setName_names_self] at hn
      cases hn
      have hdraft : (σ.phases c).draft = some (key', t', identityFileLen) := by rw [hp]; rfl
      have hinode := h.owned c t' (Phase.temporary_of_draft hdraft)
      rw [hname] at hinode
      exact absurd (Option.some.inj hinode)
        (h.inode_ne hdraft (Phase.temporary_of_draft hd) hc)
    · rw [Directory.setName_names_of_ne heq] at hn
      exact hsole name hn
  | @removed t' p' hp hnone hs =>
    refine ⟨fun name hn => ?_, hcontent⟩
    by_cases heq : name = t'.name
    · rw [heq, Directory.setName_names_self] at hn
      cases hn
    · rw [Directory.setName_names_of_ne heq] at hn
      exact hsole name hn
  | loaded hname => exact ⟨hsole, hcontent⟩

theorem Files.draft_own (h : Files blake3 keys σ) {key : Key} {t : Temporary} {n : ℕ}
    (hd : p'.draft = some (key, t, n)) :
    (∀ name, d'.names name = some t.inode → name = t.name) ∧ n ≤ identityFileLen ∧
      (d'.inodes t.inode).bytes = (encode blake3 keys key).take n := by
  cases he with
  | quiet hsame hp =>
    rcases hp.draft with hnone | hdraft
    · rw [hnone] at hd; cases hd
    rw [hdraft] at hd
    rw [hsame.names, hsame.bytes]
    exact ⟨h.sole c key t n hd, h.content c key t n hd⟩
  | @created key' t' mode hname hinode =>
    cases hd
    refine ⟨fun name hn => ?_, Nat.zero_le _, by rw [hinode, Directory.allocate_bytes_self]; rfl⟩
    by_contra hne
    rw [Directory.allocate_names_of_ne hne, hinode] at hn
    exact Nat.lt_irrefl _ (h.allocated name _ hn)
  | @wrote key' t' n' m p' hp hp' hs =>
    rw [hd] at hp'
    cases hp'
    obtain ⟨hle, hbytes⟩ := h.content c key t n' hp
    have hlen := length_encode blake3 keys key
    have hpos : n' = ((encode blake3 keys key).take n').length := by
      rw [List.length_take, hlen, Nat.min_eq_left hle]
    refine ⟨h.sole c key t n' hp, ?_, ?_⟩
    · rw [List.length_take, List.length_drop, hlen]
      omega
    · have hwrite := Directory.writeAt_bytes hbytes (((encode blake3 keys key).drop n').take m)
      rw [← hpos] at hwrite
      rw [hwrite, List.take_add]
      congr 1
      rw [List.length_take, List.take_eq_take_min, List.length_drop]
  | linked hp hfree hname => cases hd
  | removed hp hnone hs =>
    rw [Phase.temporary_of_draft hd] at hnone
    cases hnone
  | loaded hname => cases hr : decode blake3 keys _ <;> rw [hr] at hd <;> cases hd

theorem Effect.identity_cases {inode : ℕ}
    (hi : d'.names .identity = some inode) :
    σ.directory.names .identity = some inode ∨
      d'.inodes = σ.directory.inodes ∧
        ∃ key t, σ.phases c = .hardLink key t ∧ p' = .cleanup t true ∧
          σ.directory.names t.name = some inode := by
  cases he with
  | quiet hd hp => exact Or.inl (hd.names ▸ hi)
  | @created key t mode hname hinode =>
    rw [Directory.allocate_names_of_ne t.name_ne_identity.symm] at hi
    exact Or.inl hi
  | wrote hp hp' hs => exact Or.inl hi
  | linked hp hfree hname =>
    rw [Directory.setName_names_self] at hi
    cases hi
    exact Or.inr ⟨rfl, _, _, hp, rfl, hname⟩
  | @removed t p' hp hnone hs =>
    rw [Directory.setName_names_of_ne t.name_ne_identity.symm] at hi
    exact Or.inl hi
  | loaded hname => exact Or.inl hi

theorem Effect.success_cases {identity : StoredIdentity Key} (hs : p'.success = some identity) :
    (σ.phases c).success = some identity ∨
      ∃ inode, σ.directory.names .identity = some inode ∧
        decode blake3 keys (σ.directory.inodes inode).bytes = .ok identity := by
  cases he with
  | quiet hd hp =>
    rcases hp.success with h | h
    · rw [h] at hs; cases hs
    · exact Or.inl (h ▸ hs)
  | created | linked => cases hs
  | wrote _ _ hnone => rw [hnone] at hs; cases hs
  | removed _ _ hnone => rw [hnone] at hs; cases hs
  | @loaded inode hname =>
    refine Or.inr ⟨inode, hname, ?_⟩
    cases hr : decode blake3 keys (σ.directory.inodes inode).bytes with
    | error e => rw [hr] at hs; cases hs
    | ok found => rw [hr] at hs; cases hs; rfl

end

/-! ### Runs -/

section Runs

variable [DecidableEq C]

theorem phases_cases {α : Type} (f : Phase Key → Option α) {c₁ : C} {x : α}
    (h : f (Function.update σ.phases c p' c₁) = some x) :
    c₁ = c ∧ f p' = some x ∨ c₁ ≠ c ∧ f (σ.phases c₁) = some x := by
  by_cases hc : c₁ = c
  · subst hc
    rw [Function.update_self] at h
    exact Or.inl ⟨rfl, h⟩
  · rw [Function.update_of_ne hc] at h
    exact Or.inr ⟨hc, h⟩

theorem Files.effect (h : Files blake3 keys σ)
    (he : Effect blake3 keys σ.directory (σ.phases c) p' d') :
    Files blake3 keys ⟨Function.update σ.phases c p', d'⟩ where
  allocated := h.allocated_kept he
  owned := by
    intro c₁ t ht
    rcases phases_cases Phase.temporary ht with ⟨rfl, hown⟩ | ⟨hc, hother⟩
    · rcases he.temporary_cases hown with hold | ⟨-, hinode, mode, rfl⟩
      · exact h.names_kept he hold (Or.inr hown)
      · rw [hinode]
        exact Directory.allocate_names_self
    · exact h.names_kept he hother (Or.inl hc)
  exclusive := by
    -- A name that has just been created was free, so no other caller has it.
    have hfresh {c₁ : C} {t t' : Temporary} (ht : p'.temporary = some t)
        (ht' : (σ.phases c₁).temporary = some t') (hname : t.name = t'.name) (hc : c₁ ≠ c) :
        False := by
      rcases he.temporary_cases ht with hold | ⟨hfree, -⟩
      · exact hc (h.exclusive c c₁ t t' hold ht' hname).symm
      · rw [hname, h.owned c₁ t' ht'] at hfree
        cases hfree
    intro c₁ c₂ t t' ht ht' hname
    rcases phases_cases Phase.temporary ht with ⟨rfl, h₁⟩ | ⟨hc, h₁⟩ <;>
      rcases phases_cases Phase.temporary ht' with ⟨rfl, h₂⟩ | ⟨hc', h₂⟩
    · rfl
    · exact (hfresh h₁ h₂ hname hc').elim
    · exact (hfresh h₂ h₁ hname.symm hc).elim
    · exact h.exclusive c₁ c₂ t t' h₁ h₂ hname
  sole := by
    intro c₁ key t n hd
    rcases phases_cases Phase.draft hd with ⟨rfl, hown⟩ | ⟨hc, hother⟩
    · exact (h.draft_own he hown).1
    · exact (h.draft_kept he hc hother).1
  content := by
    intro c₁ key t n hd
    rcases phases_cases Phase.draft hd with ⟨rfl, hown⟩ | ⟨hc, hother⟩
    · exact (h.draft_own he hown).2
    · exact ⟨(h.content c₁ key t n hother).1, (h.draft_kept he hc hother).2⟩

/-- **One step.** The property has to hold of the key that the step promotes. -/
theorem Inv.effect (h : Inv blake3 keys P σ)
    (he : Effect blake3 keys σ.directory (σ.phases c) p' d')
    (hP : ∀ key t, σ.phases c = .hardLink key t → p' = .cleanup t true → P key) :
    Inv blake3 keys P ⟨Function.update σ.phases c p', d'⟩ where
  toFiles := h.toFiles.effect he
  published := by
    intro inode hi
    rcases he.identity_cases hi with hold | ⟨hinodes, key, t, hp, hp', hname⟩
    · obtain ⟨key, hkey, hbytes⟩ := h.published inode hold
      exact ⟨key, hkey, by rw [← hbytes]; exact (he.keepsIdentity h.toFiles inode hold).2⟩
    · have hdraft : (σ.phases c).draft = some (key, t, identityFileLen) := by rw [hp]; rfl
      have howned := h.owned c t (Phase.temporary_of_draft hdraft)
      rw [hname] at howned
      cases howned
      refine ⟨key, hP key t hp hp', ?_⟩
      show (d'.inodes t.inode).bytes = _
      rw [hinodes, (h.content c key t _ hdraft).2]
      exact List.take_of_length_le (Nat.le_of_eq (length_encode ..))
  succeeded := by
    have hkeep (identity : StoredIdentity Key)
        (hold : ∃ inode, σ.directory.names .identity = some inode ∧
          decode blake3 keys (σ.directory.inodes inode).bytes = .ok identity) :
        ∃ inode, d'.names .identity = some inode ∧
          decode blake3 keys (d'.inodes inode).bytes = .ok identity := by
      obtain ⟨inode, hi, hdec⟩ := hold
      obtain ⟨hi', hbytes⟩ := he.keepsIdentity h.toFiles inode hi
      exact ⟨inode, hi', by rw [hbytes, hdec]⟩
    intro c₁ identity hs
    rcases phases_cases Phase.success hs with ⟨rfl, hown⟩ | ⟨-, hother⟩
    · rcases he.success_cases hown with hold | hread
      · exact hkeep identity (h.succeeded c₁ identity hold)
      · exact hkeep identity hread
    · exact hkeep identity (h.succeeded c₁ identity hother)

variable {hasFileName : Bool}

theorem Phase.quiet_crash (p : Phase Key) : Quiet p p.crash := by
  cases p with
  | returned => exact ⟨Or.inr rfl, Or.inr rfl, Or.inr rfl⟩
  | _ => exact .of_none rfl rfl rfl

theorem step_effect (blake3 : Bytes → FixedBytes checksumLen) (keys : KeyScheme Key)
    (hasFileName : Bool) (σ : System C Key) (event : Event C Key) :
    ∃ c p' d', Effect blake3 keys σ.directory (σ.phases c) p' d' ∧
      step blake3 keys hasFileName σ event = ⟨Function.update σ.phases c p', d'⟩ ∧
      ∀ t promoted, p' = .cleanup t promoted → ∃ answer, event = .call c answer := by
  cases event with
  | call c a =>
    exact ⟨c, _, _, advance_effect blake3 keys hasFileName σ.directory a _, rfl,
      fun _ _ _ => ⟨a, rfl⟩⟩
  | crash c =>
    refine ⟨c, _, _, .quiet (.refl _) (Phase.quiet_crash _), rfl, fun t promoted h => ?_⟩
    cases hp : σ.phases c <;> rw [hp] at h <;> cases h

/-- Every caller is about to start, and there is no identity. -/
structure Initial (σ : System C Key) : Prop where
  phases : ∀ c, σ.phases c = .inspect
  absent : σ.directory.names .identity = none
  allocated : ∀ name inode, σ.directory.names name = some inode → inode < σ.directory.next

/-- The hard link of one of the callers, which has generated the key, succeeds in a run. -/
def Promotes (blake3 : Bytes → FixedBytes checksumLen) (keys : KeyScheme Key) (hasFileName : Bool)
    (σ : System C Key) (events : List (Event C Key)) (key : Key) : Prop :=
  ∃ before c answer after t, events = before ++ .call c answer :: after ∧
    (run blake3 keys hasFileName σ before).phases c = .hardLink key t ∧
    (run blake3 keys hasFileName σ (before ++ [.call c answer])).phases c = .cleanup t true

theorem run_append (σ : System C Key) (events more : List (Event C Key)) :
    run blake3 keys hasFileName σ (events ++ more) =
      run blake3 keys hasFileName (run blake3 keys hasFileName σ events) more :=
  List.foldl_append

omit [DecidableEq C] in
theorem Initial.inv (h : Initial σ) (P : Key → Prop) : Inv blake3 keys P σ where
  allocated := h.allocated
  owned := by intro c t ht; rw [h.phases] at ht; cases ht
  exclusive := by intro c c' t t' ht; rw [h.phases] at ht; cases ht
  sole := by intro c key t n hd; rw [h.phases] at hd; cases hd
  content := by intro c key t n hd; rw [h.phases] at hd; cases hd
  published := by intro inode hi; rw [h.absent] at hi; cases hi
  succeeded := by intro c identity hs; rw [h.phases] at hs; cases hs

omit [DecidableEq C] in
theorem Inv.mono {P' : Key → Prop} (h : Inv blake3 keys P σ) (hP : ∀ key, P key → P' key) :
    Inv blake3 keys P' σ :=
  { h with
    published := fun inode hi => by
      obtain ⟨key, hkey, hbytes⟩ := h.published inode hi
      exact ⟨key, hP key hkey, hbytes⟩ }

/-- **Every run** keeps the invariant, and promotes only what its callers have generated. -/
theorem Initial.run (blake3 : Bytes → FixedBytes checksumLen) (keys : KeyScheme Key)
    (hasFileName : Bool) (h : Initial σ) (events : List (Event C Key)) :
    Inv blake3 keys (Promotes blake3 keys hasFileName σ events)
      (run blake3 keys hasFileName σ events) := by
  induction events using List.reverseRecOn with
  | nil => exact h.inv _
  | append_singleton events event ih =>
    have hmono (key : Key) (hkey : Promotes blake3 keys hasFileName σ events key) :
        Promotes blake3 keys hasFileName σ (events ++ [event]) key := by
      obtain ⟨before, c, answer, after, t, rfl, hlink, hclean⟩ := hkey
      exact ⟨before, c, answer, after ++ [event], t, by simp, hlink, hclean⟩
    obtain ⟨c, p', d', he, hstep, hcall⟩ := step_effect blake3 keys hasFileName
      (Identity.run blake3 keys hasFileName σ events) event
    have hrun : Identity.run blake3 keys hasFileName σ (events ++ [event]) = _ :=
      (run_append σ events [event]).trans hstep
    rw [hrun]
    refine (ih.mono hmono).effect he fun key t hlink hclean => ?_
    obtain ⟨answer, rfl⟩ := hcall t true hclean
    refine ⟨events, c, answer, [], t, rfl, hlink, ?_⟩
    rw [hrun, ← hclean]
    exact Function.update_self ..

theorem Inv.keepsIdentity_run (h : Inv blake3 keys P σ) (hP : ∀ key, P key)
    (events : List (Event C Key)) :
    KeepsIdentity σ.directory (run blake3 keys hasFileName σ events).directory := by
  induction events generalizing σ with
  | nil => exact fun inode hi => ⟨hi, rfl⟩
  | cons event events ih =>
    obtain ⟨c, p', d', he, hstep, -⟩ := step_effect blake3 keys hasFileName σ event
    have hnext := h.effect he fun key _ _ _ => hP key
    have hrest := ih hnext
    intro inode hi
    obtain ⟨hi₁, hbytes₁⟩ := he.keepsIdentity h.toFiles inode hi
    obtain ⟨hi₂, hbytes₂⟩ := hrest inode hi₁
    have hrun : run blake3 keys hasFileName σ (event :: events) =
        run blake3 keys hasFileName ⟨Function.update σ.phases c p', d'⟩ events := by
      rw [← hstep]
      rfl
    rw [hrun]
    exact ⟨hi₂, hbytes₂.trans hbytes₁⟩

/-- **Concurrent creation elects one identity.** Whatever the callers do, in any order, and wherever
they fail or crash: the callers that succeed have the identity of the caller whose hard link
succeeded, and from then on the path holds the envelope of its key. -/
theorem identity_is_elected_once (blake3 : Bytes → FixedBytes checksumLen) (keys : KeyScheme Key)
    (hasFileName : Bool) {σ₀ : System C Key} (h₀ : Initial σ₀) (events : List (Event C Key)) :
    let σ := run blake3 keys hasFileName σ₀ events
    (∀ c c' found found', σ.phases c = .returned (.ok found) →
      σ.phases c' = .returned (.ok found') → found.deviceId = found'.deviceId) ∧
    (∀ c found, σ.phases c = .returned (.ok found) →
      ∃ key, Promotes blake3 keys hasFileName σ₀ events key ∧
        found = ⟨key, ⟨keys.publicKey key⟩⟩) ∧
    ∀ file, σ.directory.metadata .identity = .ok file →
      (∃ key, Promotes blake3 keys hasFileName σ₀ events key ∧
        file.bytes = encode blake3 keys key) ∧
      ∀ more, ∃ file', (run blake3 keys hasFileName σ more).directory.metadata .identity =
        .ok file' ∧ file'.bytes = file.bytes := by
  intro σ
  have hinv := h₀.run blake3 keys hasFileName events
  have hsuccess (c : C) (found : StoredIdentity Key) (hc : σ.phases c = .returned (.ok found)) :
      ∃ inode, σ.directory.names .identity = some inode ∧
        decode blake3 keys (σ.directory.inodes inode).bytes = .ok found :=
    hinv.succeeded c found (by rw [hc]; rfl)
  refine ⟨fun c c' found found' hc hc' => ?_, fun c found hc => ?_, fun file hfile => ?_⟩
  · obtain ⟨inode, hi, hdec⟩ := hsuccess c found hc
    obtain ⟨inode', hi', hdec'⟩ := hsuccess c' found' hc'
    rw [hi] at hi'
    cases hi'
    rw [hdec] at hdec'
    cases hdec'
    rfl
  · obtain ⟨inode, hi, hdec⟩ := hsuccess c found hc
    obtain ⟨key, hkey, hbytes⟩ := hinv.published inode hi
    rw [hbytes, decode_encode] at hdec
    exact ⟨key, hkey, (Except.ok.inj hdec).symm⟩
  · obtain ⟨inode, hi, rfl⟩ := Directory.metadata_eq_ok.mp hfile
    refine ⟨hinv.published inode hi, fun more => ?_⟩
    obtain ⟨hi', hbytes⟩ :=
      (hinv.mono fun _ _ => trivial).keepsIdentity_run (fun _ => trivial) more inode hi
    exact ⟨_, Directory.metadata_eq_ok.mpr ⟨inode, hi', rfl⟩, hbytes⟩

/-- Keys that are their own public keys. -/
def sampleKeys : KeyScheme (FixedBytes secretKeyLen) where
  toBytes key := key
  fromBytes bytes := bytes
  publicKey key := key
  fromBytes_toBytes _ := rfl
  toBytes_fromBytes _ := rfl

def sampleSystem : System Bool (FixedBytes secretKeyLen) :=
  ⟨fun _ => .inspect, ⟨fun _ => none, fun _ => ⟨true, 0, []⟩, 0⟩⟩

/-- Two callers that take turns, until both have returned. -/
def sampleEvents : List (Event Bool (FixedBytes secretKeyLen)) :=
  (List.range 24).map fun i =>
    .call (i % 2 = 0)
      ⟨none, .replicate secretKeyLen (if i % 2 = 0 then 1 else 2), i % 2, 0, privateMode, 100⟩

/-- Two callers find no identity and both create one; the second one returns what the first one has
promoted. -/
theorem sample_creators_agree :
    let σ := run (fun _ => .replicate checksumLen 0) sampleKeys true sampleSystem sampleEvents
    ∃ found found', σ.phases true = .returned (.ok found) ∧
      σ.phases false = .returned (.ok found') ∧ found.deviceId = found'.deviceId := by
  intro σ
  have h (c : Bool) : σ.phases c =
      .returned (.ok ⟨.replicate secretKeyLen 1, .repeated 1⟩) := by
    revert c
    decide +kernel
  have h₀ : Initial sampleSystem := ⟨fun _ => rfl, rfl, nofun⟩
  exact ⟨_, _, h true, h false,
    (identity_is_elected_once (fun _ => .replicate checksumLen 0) sampleKeys true h₀
      sampleEvents).1 true false _ _ (h true) (h false)⟩

end Runs

end Rift.Identity
