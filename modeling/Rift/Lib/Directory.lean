import Mathlib.Logic.Function.Basic
import Rift.Lib.Bytes

/-! # A directory with hard links

A directory gives names to inodes, and an inode may have several names. A file is written through a
handle on its inode, whatever its names are by then; a link gives one more name to an inode and never
replaces one. Every call is atomic. -/

namespace Rift.Lib

/-- Why a call of the file system fails. -/
inductive FileErrorKind
  | notFound
  | alreadyExists
  | interrupted
  | writeZero
  | other (code : ℕ)
  deriving DecidableEq

/-- A file: its kind, its permissions and its content. -/
structure Inode where
  regular : Bool
  mode : ℕ
  bytes : Bytes
  deriving DecidableEq

/-- Names, and the files they stand for. -/
structure Directory (Name : Type) where
  names : Name → Option ℕ
  inodes : ℕ → Inode
  /-- The inode that the next file gets. -/
  next : ℕ

namespace Directory

variable {Name : Type} [DecidableEq Name]

/-- The file of a name. -/
def metadata (d : Directory Name) (name : Name) : Except FileErrorKind Inode :=
  match d.names name with
  | some inode => .ok (d.inodes inode)
  | none => .error .notFound

/-- The directory with an empty file under a name. -/
def allocate (d : Directory Name) (name : Name) (mode : ℕ) : Directory Name where
  names := Function.update d.names name (some d.next)
  inodes := Function.update d.inodes d.next ⟨true, mode, []⟩
  next := d.next + 1

/-- The directory with another inode, or with none, under a name. -/
def setName (d : Directory Name) (name : Name) (inode : Option ℕ) : Directory Name :=
  { d with names := Function.update d.names name inode }

/-- Creates an empty file; fails if the name is taken. -/
def createNew (d : Directory Name) (name : Name) (mode : ℕ) :
    Except FileErrorKind (ℕ × Directory Name) :=
  match d.names name with
  | some _ => .error .alreadyExists
  | none => .ok (d.next, d.allocate name mode)

/-- Writes through a handle at its position. -/
def writeAt (d : Directory Name) (inode pos : ℕ) (data : Bytes) : Directory Name :=
  let file := d.inodes inode
  { d with inodes := Function.update d.inodes inode { file with
      bytes := file.bytes.take pos ++ data ++ file.bytes.drop (pos + data.length) } }

/-- Changes the permissions of a file. -/
def setMode (d : Directory Name) (name : Name) (mode : ℕ) : Except FileErrorKind (Directory Name) :=
  match d.names name with
  | some inode => .ok { d with
      inodes := Function.update d.inodes inode { d.inodes inode with mode } }
  | none => .error .notFound

/-- Gives one more name to a file; fails if the name is taken. -/
def hardLink (d : Directory Name) (source target : Name) : Except FileErrorKind (Directory Name) :=
  match d.names target, d.names source with
  | some _, _ => .error .alreadyExists
  | none, none => .error .notFound
  | none, some inode => .ok (d.setName target (some inode))

/-- Removes a name. -/
def removeFile (d : Directory Name) (name : Name) : Except FileErrorKind (Directory Name) :=
  match d.names name with
  | some _ => .ok (d.setName name none)
  | none => .error .notFound

/-! ### What the calls do -/

variable {d d' : Directory Name} {name source target : Name} {mode inode : ℕ}

omit [DecidableEq Name] in
theorem metadata_eq_ok {file : Inode} :
    d.metadata name = .ok file ↔ ∃ inode, d.names name = some inode ∧ d.inodes inode = file := by
  unfold metadata
  cases d.names name <;> simp

theorem createNew_eq_ok :
    d.createNew name mode = .ok (inode, d') ↔
      d.names name = none ∧ inode = d.next ∧ d' = d.allocate name mode := by
  unfold createNew
  cases d.names name <;> simp [eq_comm]

theorem hardLink_eq_ok :
    d.hardLink source target = .ok d' ↔
      d.names target = none ∧
        ∃ inode, d.names source = some inode ∧ d' = d.setName target (some inode) := by
  unfold hardLink
  cases d.names target <;> cases d.names source <;> simp [eq_comm]

theorem removeFile_eq_ok :
    d.removeFile name = .ok d' ↔
      d.names name ≠ none ∧ d' = d.setName name none := by
  unfold removeFile
  cases d.names name <;> simp [eq_comm]

@[simp] theorem allocate_names_self : (d.allocate name mode).names name = some d.next :=
  Function.update_self ..

theorem allocate_names_of_ne (h : target ≠ name) :
    (d.allocate name mode).names target = d.names target :=
  Function.update_of_ne h ..

@[simp] theorem allocate_bytes_self : ((d.allocate name mode).inodes d.next).bytes = [] := by
  simp [allocate]

theorem allocate_inodes_of_ne (h : inode ≠ d.next) :
    (d.allocate name mode).inodes inode = d.inodes inode :=
  Function.update_of_ne h ..

@[simp] theorem setName_names_self {i : Option ℕ} : (d.setName name i).names name = i :=
  Function.update_self ..

theorem setName_names_of_ne {i : Option ℕ} (h : target ≠ name) :
    (d.setName name i).names target = d.names target :=
  Function.update_of_ne h ..

omit [DecidableEq Name] in
theorem writeAt_inodes_of_ne {inode' pos : ℕ} (h : inode' ≠ inode) (data : Bytes) :
    (d.writeAt inode pos data).inodes inode' = d.inodes inode' :=
  Function.update_of_ne h ..

omit [DecidableEq Name] in
theorem writeAt_bytes {bytes : Bytes} (h : (d.inodes inode).bytes = bytes) (data : Bytes) :
    ((d.writeAt inode bytes.length data).inodes inode).bytes = bytes ++ data := by
  simp [writeAt, h]

/-- The same names for the same contents; the modes may differ. -/
structure SameContents (d d' : Directory Name) : Prop where
  names : d'.names = d.names
  bytes : ∀ inode, (d'.inodes inode).bytes = (d.inodes inode).bytes
  next : d'.next = d.next

omit [DecidableEq Name] in
theorem SameContents.refl (d : Directory Name) : SameContents d d := ⟨rfl, fun _ => rfl, rfl⟩

omit [DecidableEq Name] in
theorem sameContents_setMode (h : d.setMode name mode = .ok d') : SameContents d d' := by
  unfold setMode at h
  cases hn : d.names name with
  | none => rw [hn] at h; cases h
  | some inode =>
    rw [hn] at h
    cases h
    refine ⟨rfl, fun inode' => ?_, rfl⟩
    by_cases hi : inode' = inode
    · subst hi
      simp
    · simp [Function.update_of_ne hi]

end Directory

end Rift.Lib
