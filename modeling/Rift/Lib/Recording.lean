import Rift.Lib.AsyncIo

/-! # Writers that keep a record

A program over an arbitrary writer cannot tell a writer from one that keeps a record of how much each
write took. So what the program leaves in the record says how it split what it wrote.

The main definitions are `Simulates` and `Recorded`. -/

namespace Rift.Lib

/-! ### Programs on a part of the state -/

section Simulates

variable {ε ε' σ τ α β : Type} {f : σ → τ}

/-- The first program does to the part of its state what the second one does, and returns the same. -/
def Simulates (f : σ → τ) (p : ExceptT ε (StateM σ) α) (q : ExceptT ε (StateM τ) α) : Prop :=
  ∀ s, q.run.run (f s) = Prod.map id f (p.run.run s)

theorem run_bind (p : ExceptT ε (StateM σ) α) (k : α → ExceptT ε (StateM σ) β) (s : σ) :
    (p >>= k).run.run s = match p.run.run s with
      | (.ok a, s') => (k a).run.run s'
      | (.error e, s') => (.error e, s') := by
  have hbind : (p >>= k).run.run s =
      (ExceptT.bindCont k (p.run.run s).1).run (p.run.run s).2 := rfl
  rw [hbind]
  rcases p.run.run s with ⟨e | a, s'⟩ <;> rfl

namespace Simulates

variable {p : ExceptT ε (StateM σ) α} {q : ExceptT ε (StateM τ) α}

theorem returns (a : α) :
    Simulates f (pure a : ExceptT ε (StateM σ) α) (pure a : ExceptT ε (StateM τ) α) :=
  fun _ => rfl

theorem throws (e : ε) :
    Simulates f (throw e : ExceptT ε (StateM σ) α) (throw e : ExceptT ε (StateM τ) α) :=
  fun _ => rfl

theorem bind {k : α → ExceptT ε (StateM σ) β} {l : α → ExceptT ε (StateM τ) β}
    (h : Simulates f p q) (hk : ∀ a, Simulates f (k a) (l a)) :
    Simulates f (p >>= k) (q >>= l) := by
  intro s
  rw [run_bind, run_bind, h s]
  rcases p.run.run s with ⟨e | a, s'⟩
  · rfl
  · exact hk a s'

theorem adapt (h : Simulates f p q) (g : ε → ε') : Simulates f (p.adapt g) (q.adapt g) := by
  intro s
  have hp : (ExceptT.run (p.adapt g)).run s = ((p.run.run s).1.mapError g, (p.run.run s).2) := rfl
  have hq : (ExceptT.run (q.adapt g)).run (f s) =
      ((q.run.run (f s)).1.mapError g, (q.run.run (f s)).2) := rfl
  rw [hp, hq, h s]
  rfl

theorem updates {g : σ → σ} {g' : τ → τ} (h : ∀ s, g' (f s) = f (g s)) :
    Simulates f (modify g : ExceptT ε (StateM σ) Unit) (modify g' : ExceptT ε (StateM τ) Unit) :=
  fun s => congrArg (Prod.mk (Except.ok ())) (h s)

end Simulates

end Simulates

/-! ### Writers with a record -/

/-- A writer, and how much each write took that took anything. -/
structure Recorded (W : Type) where
  writer : W
  sizes : List ℕ

namespace Recorded

variable {W : Type}

/-- The sizes with that of one more call, if it moved something. -/
def note (sizes : List ℕ) : Except StepError ℕ → List ℕ
  | .ok n => if n = 0 then sizes else sizes ++ [n]
  | .error _ => sizes

instance [AsyncWrite W] : AsyncWrite (Recorded W) where
  write bytes w := ((AsyncWrite.write bytes w.writer).1,
    ⟨(AsyncWrite.write bytes w.writer).2, note w.sizes (AsyncWrite.write bytes w.writer).1⟩)
  flush w := ((AsyncWrite.flush w.writer).1, ⟨(AsyncWrite.flush w.writer).2, w.sizes⟩)
  write_le h := AsyncWrite.write_le h

instance [AsyncRead W] : AsyncRead (Recorded W) where
  read n w := ((AsyncRead.read n w.writer).1, ⟨(AsyncRead.read n w.writer).2, w.sizes⟩)
  length_read_le h := AsyncRead.length_read_le h

instance [AsyncSeek W] : AsyncSeek (Recorded W) where
  seek point w := ((AsyncSeek.seek point w.writer).1, ⟨(AsyncSeek.seek point w.writer).2, w.sizes⟩)

theorem sizes_of_write [AsyncWrite W] {bytes : Bytes} {w w' : Recorded W} {n : ℕ}
    (h : AsyncWrite.write bytes w = (.ok n, w')) (hn : n ≠ 0) : w'.sizes = w.sizes ++ [n] := by
  have hresult : (AsyncWrite.write bytes w.writer).1 = .ok n := congrArg Prod.fst h
  have hsizes : note w.sizes (AsyncWrite.write bytes w.writer).1 = w'.sizes :=
    congrArg (fun x => x.2.sizes) h
  rw [← hsizes, hresult]
  exact if_neg hn

theorem sizes_of_refused [AsyncWrite W] {bytes : Bytes} {w w' : Recorded W}
    {result : Except StepError ℕ} (h : AsyncWrite.write bytes w = (result, w'))
    (hn : ∀ n, result = .ok n → n = 0) : w'.sizes = w.sizes := by
  have hresult : (AsyncWrite.write bytes w.writer).1 = result := congrArg Prod.fst h
  have hsizes : note w.sizes (AsyncWrite.write bytes w.writer).1 = w'.sizes :=
    congrArg (fun x => x.2.sizes) h
  rw [← hsizes, hresult]
  cases result with
  | error e => rfl
  | ok n => exact if_pos (hn n rfl)

end Recorded

end Rift.Lib
