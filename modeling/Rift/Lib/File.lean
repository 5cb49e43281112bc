import Rift.Lib.Bytes

/-! # A file with a position

A file is its content and the position of the handle that writes it. Writing replaces the bytes at
the position and moves it; changing the length leaves the position where it is, as the operating
system does, so a write behind the end fills the gap with zeros. -/

namespace Rift.Lib

/-- The content of an open file and the position of its handle. -/
structure File where
  bytes : Bytes
  pos : ℕ
  deriving DecidableEq

namespace File

/-- Cuts the file or fills it up with zeros; the position stays. -/
def setLen (f : File) (n : ℕ) : File :=
  { f with bytes := f.bytes.take n ++ List.replicate (n - f.bytes.length) 0 }

/-- Writes at the position and moves it behind what was written. -/
def write (f : File) (b : Bytes) : File where
  bytes := f.bytes.take f.pos ++ List.replicate (f.pos - f.bytes.length) 0 ++ b ++
    f.bytes.drop (f.pos + b.length)
  pos := f.pos + b.length

variable {f : File}

theorem write_at_end (h : f.pos = f.bytes.length) (b : Bytes) :
    f.write b = ⟨f.bytes ++ b, f.bytes.length + b.length⟩ := by
  simp [write, h]

theorem setLen_append (b q : Bytes) (p : ℕ) :
    (⟨b ++ q, p⟩ : File).setLen b.length = ⟨b, p⟩ := by
  simp [setLen]

end File

end Rift.Lib
