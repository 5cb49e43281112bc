import Rift.Identity.Envelope

/-! # Loading or creating an identity

Any number of callers load the identity at one path, or create it when it is absent. A creator writes
its envelope to a temporary file of its own and promotes that file with a hard link, which fails if
the path exists by then; whoever loses loads what the winner promoted. Every call of the file system
is one step. The steps of the callers interleave in any order, every call may fail, and a caller may
crash at any step.

The main result is `advance_effect`. -/

namespace Rift.Identity

open Rift.Lib Rift.Core

/-! ### The callers -/

/-- The names in the directory of the identity. -/
inductive Name
  | identity
  | temporary (process counter : ℕ)
  deriving DecidableEq

/-- A temporary file: its name, and the inode that its handle is on. -/
structure Temporary where
  process : ℕ
  counter : ℕ
  inode : ℕ
  deriving DecidableEq

/-- The name under which a temporary file is created. -/
def Temporary.name (t : Temporary) : Name := .temporary t.process t.counter

/-- The next call of a caller. -/
inductive Phase (Key : Type)
  /-- `load_or_create` looks whether there is an identity. -/
  | inspect
  /-- `create_temporary` tries one name after the other. -/
  | openTemporary (key : Key)
  | write (key : Key) (t : Temporary) (written : ℕ)
  | flush (key : Key) (t : Temporary)
  | syncAll (key : Key) (t : Temporary)
  | setPermissions (key : Key) (t : Temporary)
  | inspectTemporary (key : Key) (t : Temporary)
  | hardLink (key : Key) (t : Temporary)
  /-- `cleanup.remove()`, after the promotion or after losing it. -/
  | cleanup (t : Temporary) (promoted : Bool)
  | syncParent
  /-- `load` looks at what there is, and then reads it. -/
  | inspectExisting
  | readExisting
  /-- The cleanup is dropped on the way out with an error. -/
  | abandon (t : Temporary) (error : IdentityError)
  | returned (result : Except IdentityError (StoredIdentity Key))
  | crashed
  deriving DecidableEq

/-- What the rest of the world has to say about one call: whether it fails, the key that is
generated, the name that is tried, the mode that the file gets and how much of it is written. -/
structure Answer (Key : Type) where
  fault : Option FileErrorKind
  key : Key
  process : ℕ
  counter : ℕ
  mode : ℕ
  accepted : ℕ

/-- A call, unless it fails for reasons of its own. -/
def attempt {α : Type} (fault : Option FileErrorKind) (result : Except FileErrorKind α) :
    Except FileErrorKind α :=
  match fault with
  | some kind => .error kind
  | none => result

/-- The mode of a file that only its owner may use. -/
def privateMode : ℕ := 0o600

/-- Only the owner may read or write the file. -/
def validatePermissions (file : Inode) : Except IdentityError Unit :=
  if file.mode % 0o1000 ≠ privateMode then .error (.insecurePermissions (file.mode % 0o1000))
  else .ok ()

/-- The checks of `load` before it reads. -/
def validateExisting (file : Inode) : Except IdentityError Unit := do
  if file.regular = false then throw .notRegularFile
  validatePermissions file
  if file.bytes.length < identityFileLen then
    throw (.truncatedIdentity file.bytes.length identityFileLen)
  if identityFileLen < file.bytes.length then
    throw (.trailingData file.bytes.length identityFileLen)

variable {Key : Type} (blake3 : Bytes → FixedBytes checksumLen) (keys : KeyScheme Key)
  (hasFileName : Bool)

/-- `write_all`, one write at a time. -/
def advanceWrite (d : Directory Name) (a : Answer Key) (key : Key) (t : Temporary) (written : ℕ) :
    Phase Key × Directory Name :=
  match a.fault with
  | some .interrupted => (.write key t written, d)
  | some kind => (.abandon t (.io "write temporary file" kind), d)
  | none =>
    let data := ((encode blake3 keys key).drop written).take a.accepted
    if data = [] then (.abandon t (.io "write temporary file" .writeZero), d)
    else
      let d' := d.writeAt t.inode written data
      if written + data.length = identityFileLen then (.flush key t, d')
      else (.write key t (written + data.length), d')

/-- A call that only succeeds or fails. -/
def advanceOr (fault : Option FileErrorKind) (next : Phase Key) (failed : FileErrorKind → Phase Key) :
    Phase Key :=
  match fault with
  | some kind => failed kind
  | none => next

/-- One call of a caller. -/
def advance (d : Directory Name) (a : Answer Key) : Phase Key → Phase Key × Directory Name
  | .inspect =>
    match attempt a.fault (d.metadata .identity) with
    | .ok _ => (.inspectExisting, d)
    | .error .notFound => (.openTemporary a.key, d)
    | .error kind => (.returned (.error (.io "inspect" kind)), d)
  | .openTemporary key =>
    if hasFileName = false then (.returned (.error .missingFileName), d)
    else
      match attempt a.fault (d.createNew (.temporary a.process a.counter) a.mode) with
      | .ok (inode, d') => (.write key ⟨a.process, a.counter, inode⟩ 0, d')
      | .error .alreadyExists => (.openTemporary key, d)
      | .error kind => (.returned (.error (.io "create temporary file" kind)), d)
  | .write key t written => advanceWrite blake3 keys d a key t written
  | .flush key t =>
    (advanceOr a.fault (.syncAll key t) fun kind => .abandon t (.io "flush temporary file" kind), d)
  | .syncAll key t =>
    (advanceOr a.fault (.setPermissions key t) fun kind =>
      .abandon t (.io "sync temporary file" kind), d)
  | .setPermissions key t =>
    match attempt a.fault (d.setMode t.name privateMode) with
    | .ok d' => (.inspectTemporary key t, d')
    | .error kind => (.abandon t (.io "set permissions" kind), d)
  | .inspectTemporary key t =>
    match a.fault, validatePermissions (d.inodes t.inode) with
    | some kind, _ => (.abandon t (.io "inspect temporary file" kind), d)
    | none, .error error => (.abandon t error, d)
    | none, .ok () => (.hardLink key t, d)
  | .hardLink _ t =>
    match attempt a.fault (d.hardLink t.name .identity) with
    | .ok d' => (.cleanup t true, d')
    | .error .alreadyExists => (.cleanup t false, d)
    | .error kind => (.abandon t (.io "promote temporary file" kind), d)
  | .cleanup t promoted =>
    match attempt a.fault (d.removeFile t.name) with
    | .ok d' => (if promoted then .syncParent else .inspectExisting, d')
    | .error kind => (.returned (.error (.io "remove temporary file" kind)), d)
  | .syncParent =>
    (advanceOr a.fault .inspectExisting fun kind =>
      .returned (.error (.io "sync parent directory" kind)), d)
  | .inspectExisting =>
    match attempt a.fault (d.metadata .identity) with
    | .error kind => (.returned (.error (.io "inspect" kind)), d)
    | .ok file =>
      match validateExisting file with
      | .error error => (.returned (.error error), d)
      | .ok () => (.readExisting, d)
  | .readExisting =>
    match attempt a.fault (d.metadata .identity) with
    | .error kind => (.returned (.error (.io "read" kind)), d)
    | .ok file => (.returned (decode blake3 keys file.bytes), d)
  | .abandon t error =>
    match attempt a.fault (d.removeFile t.name) with
    | .ok d' => (.returned (.error error), d')
    | .error _ => (.returned (.error error), d)
  | .returned result => (.returned result, d)
  | .crashed => (.crashed, d)

/-! ### What a step can do -/

/-- The temporary file that a caller still has to remove. -/
def Phase.temporary : Phase Key → Option Temporary
  | .write _ t _ | .flush _ t | .syncAll _ t | .setPermissions _ t | .inspectTemporary _ t
  | .hardLink _ t | .cleanup t _ | .abandon t _ => some t
  | _ => none

/-- What a caller has written of its envelope, before it is promoted. -/
def Phase.draft : Phase Key → Option (Key × Temporary × ℕ)
  | .write key t written => some (key, t, written)
  | .flush key t | .syncAll key t | .setPermissions key t | .inspectTemporary key t
  | .hardLink key t => some (key, t, identityFileLen)
  | _ => none

/-- The identity with which a caller has succeeded. -/
def Phase.success : Phase Key → Option (StoredIdentity Key)
  | .returned (.ok identity) => some identity
  | _ => none

theorem Phase.temporary_of_draft {p : Phase Key} {key : Key} {t : Temporary} {n : ℕ}
    (h : p.draft = some (key, t, n)) : p.temporary = some t := by
  cases p <;> simp_all [Phase.draft, Phase.temporary]

/-- The caller goes on with what it has, or lets go of it. -/
structure Quiet (p p' : Phase Key) : Prop where
  temporary : p'.temporary = none ∨ p'.temporary = p.temporary
  draft : p'.draft = none ∨ p'.draft = p.draft
  success : p'.success = none ∨ p'.success = p.success

theorem Quiet.of_none {p p' : Phase Key} (ht : p'.temporary = none) (hd : p'.draft = none)
    (hs : p'.success = none) : Quiet p p' :=
  ⟨Or.inl ht, Or.inl hd, Or.inl hs⟩

theorem Quiet.abandon {p : Phase Key} {t : Temporary} (h : p.temporary = some t)
    (error : IdentityError) : Quiet p (.abandon t error) :=
  ⟨Or.inr h.symm, Or.inl rfl, Or.inl rfl⟩

/-- What a step can do to the directory, and to what its caller has. -/
inductive Effect (d : Directory Name) (p : Phase Key) : Phase Key → Directory Name → Prop
  | quiet {p' : Phase Key} {d' : Directory Name} (hd : d.SameContents d') (hp : Quiet p p') :
      Effect d p p' d'
  | created {key : Key} {t : Temporary} {mode : ℕ} (hname : d.names t.name = none)
      (hinode : t.inode = d.next) :
      Effect d p (.write key t 0) (d.allocate t.name mode)
  | wrote {key : Key} {t : Temporary} {n m : ℕ} {p' : Phase Key}
      (hp : p.draft = some (key, t, n))
      (hp' : p'.draft = some (key, t, n + (((encode blake3 keys key).drop n).take m).length))
      (hs : p'.success = none) :
      Effect d p p' (d.writeAt t.inode n (((encode blake3 keys key).drop n).take m))
  | linked {key : Key} {t : Temporary} {inode : ℕ} (hp : p = .hardLink key t)
      (hfree : d.names .identity = none) (hname : d.names t.name = some inode) :
      Effect d p (.cleanup t true) (d.setName .identity (some inode))
  | removed {t : Temporary} {p' : Phase Key} (hp : p.temporary = some t)
      (ht : p'.temporary = none) (hs : p'.success = none) :
      Effect d p p' (d.setName t.name none)
  | loaded {inode : ℕ} (hname : d.names .identity = some inode) :
      Effect d p (.returned (decode blake3 keys (d.inodes inode).bytes)) d

theorem attempt_eq_ok {α : Type} {fault : Option FileErrorKind} {r : Except FileErrorKind α} {x : α}
    (h : attempt fault r = .ok x) : r = .ok x := by
  unfold attempt at h
  cases fault with
  | none => exact h
  | some kind => cases h

theorem effect_removed {d d' : Directory Name} {p p' : Phase Key} {t : Temporary}
    {fault : Option FileErrorKind} (h : attempt fault (d.removeFile t.name) = .ok d')
    (hp : p.temporary = some t) (ht : p'.temporary = none) (hs : p'.success = none) :
    Effect blake3 keys d p p' d' := by
  obtain ⟨-, rfl⟩ := Directory.removeFile_eq_ok.mp (attempt_eq_ok h)
  exact .removed hp ht hs

theorem advanceWrite_effect (d : Directory Name) (a : Answer Key) (key : Key) (t : Temporary)
    (n : ℕ) :
    Effect blake3 keys d (.write key t n) (advanceWrite blake3 keys d a key t n).1
      (advanceWrite blake3 keys d a key t n).2 := by
  have habandon (error : IdentityError) : Quiet (.write key t n) (.abandon t error) :=
    Quiet.abandon rfl error
  unfold advanceWrite
  split
  · exact .quiet (.refl d) ⟨Or.inr rfl, Or.inr rfl, Or.inl rfl⟩
  · exact .quiet (.refl d) (habandon _)
  · dsimp only
    split_ifs with hnil hfull
    · exact .quiet (.refl d) (habandon _)
    · exact .wrote rfl (by rw [hfull]; rfl) rfl
    · exact .wrote rfl rfl rfl

/-- **The effect of a step.** -/
theorem advance_effect (d : Directory Name) (a : Answer Key) (p : Phase Key) :
    Effect blake3 keys d p (advance blake3 keys hasFileName d a p).1
      (advance blake3 keys hasFileName d a p).2 := by
  have hlet {p p' : Phase Key} (ht : p'.temporary = none) (hd : p'.draft = none)
      (hs : p'.success = none) : Effect blake3 keys d p p' d :=
    .quiet (.refl d) (.of_none ht hd hs)
  have hgo {p p' : Phase Key} (ht : p'.temporary = p.temporary)
      (hd : p'.draft = none ∨ p'.draft = p.draft) (hs : p'.success = none) :
      Effect blake3 keys d p p' d :=
    .quiet (.refl d) ⟨Or.inr ht, hd, Or.inl hs⟩
  cases p with
  | inspect =>
    simp only [advance]
    split <;> exact hlet rfl rfl rfl
  | openTemporary key =>
    simp only [advance]
    split_ifs
    · exact hlet rfl rfl rfl
    split
    · next inode d' h =>
      obtain ⟨hname, rfl, rfl⟩ := Directory.createNew_eq_ok.mp (attempt_eq_ok h)
      exact .created hname rfl
    · exact hlet rfl rfl rfl
    · exact hlet rfl rfl rfl
  | write key t n => exact advanceWrite_effect blake3 keys d a key t n
  | flush key t =>
    simp only [advance, advanceOr]
    cases a.fault with
    | some kind => exact hgo rfl (Or.inl rfl) rfl
    | none => exact hgo rfl (Or.inr rfl) rfl
  | syncAll key t =>
    simp only [advance, advanceOr]
    cases a.fault with
    | some kind => exact hgo rfl (Or.inl rfl) rfl
    | none => exact hgo rfl (Or.inr rfl) rfl
  | setPermissions key t =>
    simp only [advance]
    split
    · next d' h =>
      exact .quiet (Directory.sameContents_setMode (attempt_eq_ok h))
        ⟨Or.inr rfl, Or.inr rfl, Or.inl rfl⟩
    · exact hgo rfl (Or.inl rfl) rfl
  | inspectTemporary key t =>
    simp only [advance]
    split
    · exact hgo rfl (Or.inl rfl) rfl
    · exact hgo rfl (Or.inl rfl) rfl
    · exact hgo rfl (Or.inr rfl) rfl
  | hardLink key t =>
    simp only [advance]
    split
    · next d' h =>
      obtain ⟨hfree, inode, hname, rfl⟩ := Directory.hardLink_eq_ok.mp (attempt_eq_ok h)
      exact .linked rfl hfree hname
    · exact hgo rfl (Or.inl rfl) rfl
    · exact hgo rfl (Or.inl rfl) rfl
  | cleanup t promoted =>
    simp only [advance]
    split
    · next d' h =>
      refine effect_removed blake3 keys h rfl ?_ ?_ <;> cases promoted <;> rfl
    · exact hlet rfl rfl rfl
  | syncParent =>
    simp only [advance, advanceOr]
    cases a.fault <;> exact hlet rfl rfl rfl
  | inspectExisting =>
    simp only [advance]
    split
    · exact hlet rfl rfl rfl
    · split <;> exact hlet rfl rfl rfl
  | readExisting =>
    simp only [advance]
    split
    · exact hlet rfl rfl rfl
    · next file h =>
      obtain ⟨inode, hname, rfl⟩ := Directory.metadata_eq_ok.mp (attempt_eq_ok h)
      exact .loaded hname
  | abandon t error =>
    simp only [advance]
    split
    · next d' h => exact effect_removed blake3 keys h rfl rfl rfl
    · exact hlet rfl rfl rfl
  | returned result => exact .quiet (.refl d) ⟨Or.inr rfl, Or.inr rfl, Or.inr rfl⟩
  | crashed => exact hlet rfl rfl rfl

/-! ### The system -/

/-- The callers and the directory that they share. -/
structure System (C Key : Type) where
  phases : C → Phase Key
  directory : Directory Name

/-- A call of a process returns, or the process crashes. -/
inductive Event (C Key : Type)
  | call (c : C) (answer : Answer Key)
  | crash (c : C)

/-- What a crash leaves of a process. -/
def Phase.crash : Phase Key → Phase Key
  | .returned result => .returned result
  | _ => .crashed

variable {C : Type} [DecidableEq C]

/-- The processes and the directory after an event. -/
def step (σ : System C Key) : Event C Key → System C Key
  | .call c a =>
    let r := advance blake3 keys hasFileName σ.directory a (σ.phases c)
    ⟨Function.update σ.phases c r.1, r.2⟩
  | .crash c => { σ with phases := Function.update σ.phases c (σ.phases c).crash }

/-- The processes and the directory after some events. -/
def run (σ : System C Key) (events : List (Event C Key)) : System C Key :=
  events.foldl (step blake3 keys hasFileName) σ

end Rift.Identity
