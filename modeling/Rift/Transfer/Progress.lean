import Rift.Lib.Recording
import Rift.Transfer.Payload

/-! # What the payload workers report

A worker reports a total after a write if enough is new since the last report: a mebibyte, or a
hundredth of the file if that is more. However the suffix is split into writes, the totals grow from
the offset to the length of the file, so the reports are few and far between.

The main definitions are `Paced` and `Tracks`, the main results `paced_of_ascending` and
`progress_is_bounded`. -/

namespace Rift.Transfer

open Rift.Lib Rift.Core Rift.Protocol Std.Do

set_option mvcgen.warning false

/-! ### Growing totals -/

/-- The totals after each of some writes. -/
def totals : ℕ → List ℕ → List ℕ
  | _, [] => []
  | total, size :: sizes => (total + size) :: totals (total + size) sizes

theorem totals_concat (total : ℕ) (sizes : List ℕ) (size : ℕ) :
    totals total (sizes ++ [size]) = totals total sizes ++ [total + sizes.sum + size] := by
  induction sizes generalizing total with
  | nil => simp [totals]
  | cons first sizes ih =>
    rw [List.cons_append, totals, ih, totals, List.sum_cons, List.cons_append]
    congr 3
    omega

/-- Totals that grow from the offset and stay within the length. -/
structure Ascending (byteLen offset : ℕ) (seen : List ℕ) : Prop where
  grow : (offset :: seen).Pairwise (· < ·)
  within : ∀ total ∈ seen, total ≤ byteLen

theorem ascending_totals {byteLen offset : ℕ} {sizes : List ℕ} (hpos : ∀ size ∈ sizes, size ≠ 0)
    (hle : offset + sizes.sum ≤ byteLen) : Ascending byteLen offset (totals offset sizes) := by
  induction sizes generalizing offset with
  | nil => exact ⟨List.pairwise_singleton _ _, nofun⟩
  | cons size sizes ih =>
    obtain ⟨hsize, hsizes⟩ := List.forall_mem_cons.mp hpos
    rw [List.sum_cons] at hle
    have hrest : offset + size + sizes.sum ≤ byteLen := by omega
    obtain ⟨hgrow, hwithin⟩ := ih hsizes hrest
    refine ⟨List.pairwise_cons.mpr ⟨fun total hmem => ?_, hgrow⟩, ?_⟩
    · rcases List.mem_cons.mp hmem with rfl | hmem
      · omega
      · have hlater := (List.pairwise_cons.mp hgrow).1 total hmem
        omega
    · exact List.forall_mem_cons.mpr ⟨by omega, hwithin⟩

/-- How much has to be new for a report. -/
def spacing (byteLen : ℕ) : ℕ := max (1024 * 1024) (byteLen ⌈/⌉ 100)

/-- Reports as they should be: they grow from above the offset to at most the length, the first one
and the offset and any two that follow each other are far enough apart, and there are at most a
hundred. -/
structure Paced (byteLen offset : ℕ) (reported : List ℕ) : Prop where
  grow : reported.Pairwise (· < ·)
  within : ∀ total ∈ reported, offset < total ∧ total ≤ byteLen
  spaced : (offset :: reported).IsChain fun earlier later => earlier + spacing byteLen ≤ later
  few : reported.length ≤ 100

theorem spacing_pos (byteLen : ℕ) : 0 < spacing byteLen :=
  Nat.lt_of_lt_of_le (by decide) (Nat.le_max_left _ _)

theorem le_spacing (byteLen : ℕ) : byteLen ≤ 100 * spacing byteLen := by
  have hceil : byteLen ⌈/⌉ 100 = (byteLen + 99) / 100 := Nat.ceilDiv_eq_add_pred_div _ _
  have hle : byteLen ⌈/⌉ 100 ≤ spacing byteLen := Nat.le_max_right _ _
  omega

theorem far_of_spaced {step byteLen : ℕ} : ∀ {first : ℕ} {later : List ℕ},
    (first :: later).IsChain (fun a b => a + step ≤ b) → first ≤ byteLen →
    (∀ total ∈ later, total ≤ byteLen) → first + later.length * step ≤ byteLen
  | first, [], _, hfirst, _ => by simpa using hfirst
  | first, next :: later, hchain, _, hwithin => by
    obtain ⟨hstep, hrest⟩ := List.isChain_cons_cons.mp hchain
    obtain ⟨hnext, hlater⟩ := List.forall_mem_cons.mp hwithin
    have hfar := far_of_spaced hrest hnext hlater
    rw [List.length_cons, Nat.succ_mul]
    omega

/-- The progress after some totals: the last report is the last of the reports, if any, and the reports
are some of the totals, far enough apart. -/
structure Reporting (byteLen offset : ℕ) (seen : List ℕ) (progress : Progress) : Prop where
  step : progress.step = spacing byteLen
  last : progress.last = (offset :: progress.reported).getLast (List.cons_ne_nil _ _)
  seen : ∀ total ∈ progress.reported, total ∈ seen
  spaced : (offset :: progress.reported).IsChain fun earlier later =>
    earlier + spacing byteLen ≤ later

theorem Reporting.last_mem {byteLen offset : ℕ} {seen : List ℕ} {progress : Progress}
    (h : Reporting byteLen offset seen progress) : progress.last ∈ offset :: seen := by
  have hmem := List.getLast_mem (List.cons_ne_nil offset progress.reported)
  rw [← h.last] at hmem
  rcases List.mem_cons.mp hmem with heq | hmem
  · rw [heq]
    exact List.mem_cons_self
  · exact List.mem_cons_of_mem _ (h.seen _ hmem)

theorem reporting_new (byteLen offset : ℕ) :
    Reporting byteLen offset [] (Progress.new byteLen offset) where
  step := by
    unfold spacing
    rw [Nat.ceilDiv_eq_add_pred_div]
    rfl
  last := rfl
  seen _ h := h
  spaced := List.isChain_singleton _

theorem Reporting.observe {byteLen offset total : ℕ} {seen : List ℕ} {progress : Progress}
    (h : Reporting byteLen offset seen progress) (hle : progress.last ≤ total) :
    Reporting byteLen offset (seen ++ [total]) (progress.observe total) := by
  unfold Progress.observe
  split_ifs with hstep
  · refine ⟨h.step, by simp, fun t ht => ?_, ?_⟩
    · rcases List.mem_append.mp ht with ht | ht
      · exact List.mem_append_left _ (h.seen t ht)
      · exact List.mem_append_right _ ht
    · rw [← List.cons_append]
      refine List.isChain_append.mpr ⟨h.spaced, List.isChain_singleton _, fun a ha b hb => ?_⟩
      rw [List.getLast?_eq_some_getLast (List.cons_ne_nil _ _), ← h.last] at ha
      obtain rfl := Option.some.inj ha
      obtain rfl := Option.some.inj hb
      rw [h.step] at hstep
      omega
  · exact ⟨h.step, h.last, fun t ht => List.mem_append_left _ (h.seen t ht), h.spaced⟩

/-- **Growing totals are reported step by step**, and the last report is never above the next total. -/
theorem reporting_of_ascending {byteLen offset : ℕ} {seen : List ℕ}
    (h : (offset :: seen).Pairwise (· < ·)) :
    Reporting byteLen offset seen (seen.foldl Progress.observe (.new byteLen offset)) := by
  induction seen using List.reverseRecOn with
  | nil => exact reporting_new byteLen offset
  | append_singleton seen total ih =>
    rw [← List.cons_append, List.pairwise_append] at h
    obtain ⟨hseen, -, hlast⟩ := h
    have hreporting := ih hseen
    rw [List.foldl_append, List.foldl_cons, List.foldl_nil]
    exact hreporting.observe (hlast _ hreporting.last_mem total List.mem_cons_self).le

theorem last_lt_of_ascending {byteLen offset total : ℕ} {before after : List ℕ}
    (h : (offset :: (before ++ total :: after)).Pairwise (· < ·)) :
    (before.foldl Progress.observe (.new byteLen offset)).last < total := by
  rw [← List.cons_append, List.pairwise_append] at h
  obtain ⟨hbefore, -, hlater⟩ := h
  exact hlater _ (reporting_of_ascending hbefore).last_mem total List.mem_cons_self

theorem paced_of_ascending {byteLen offset : ℕ} {seen : List ℕ} (hle : offset ≤ byteLen)
    (h : Ascending byteLen offset seen) :
    Paced byteLen offset (seen.foldl Progress.observe (.new byteLen offset)).reported := by
  have hreporting : Reporting byteLen offset seen _ := reporting_of_ascending h.grow
  have hpositive := spacing_pos byteLen
  have hgrow : (offset :: (seen.foldl Progress.observe (.new byteLen offset)).reported).Pairwise
      (· < ·) :=
    (hreporting.spaced.imp fun a b hab => show a < b by omega).pairwise
  have hwithin := fun total hmem => h.within total (hreporting.seen total hmem)
  refine ⟨hgrow.of_cons, fun total hmem => ⟨?_, hwithin total hmem⟩, hreporting.spaced, ?_⟩
  · exact (List.pairwise_cons.mp hgrow).1 total hmem
  · have hfar := far_of_spaced hreporting.spaced hle hwithin
    have hceil := le_spacing byteLen
    by_contra hmany
    have hmore : 101 * spacing byteLen ≤
        (seen.foldl Progress.observe (.new byteLen offset)).reported.length * spacing byteLen :=
      Nat.mul_le_mul_right _ (by omega)
    omega

/-! ### The writes of a worker -/

section Tracks

variable {R W : Type} {failures : Failures} {byteLen offset total : ℕ}

/-- The worker has looked at the total after each write so far, and is now at `total`. -/
structure Tracks (byteLen offset total : ℕ) (e : Ends R (Recorded W)) : Prop where
  progress : e.progress =
    (totals offset e.writer.sizes).foldl Progress.observe (.new byteLen offset)
  total : offset + e.writer.sizes.sum = total
  pos : ∀ size ∈ e.writer.sizes, size ≠ 0

theorem tracks_new {e : Ends R (Recorded W)} (hsizes : e.writer.sizes = [])
    (hprogress : e.progress = .new byteLen offset) : Tracks byteLen offset offset e where
  progress := by rw [hsizes]; exact hprogress
  total := by rw [hsizes]; rfl
  pos := by rw [hsizes]; exact nofun

theorem Tracks.write {e : Ends R (Recorded W)} (h : Tracks byteLen offset total e) {w : Recorded W}
    {count : ℕ} (hw : w.sizes = e.writer.sizes ++ [count]) (hcount : count ≠ 0) :
    Tracks byteLen offset (total + count)
      { e with writer := w, progress := e.progress.observe (total + count) } where
  progress := by
    rw [hw, totals_concat, List.foldl_append, h.total, ← h.progress]
    rfl
  total := by
    rw [hw, List.sum_append, List.sum_singleton, ← Nat.add_assoc, h.total]
  pos := by
    rw [hw]
    intro size hmem
    rcases List.mem_append.mp hmem with hmem | hmem
    · exact h.pos size hmem
    · rwa [List.mem_singleton.mp hmem]

theorem Tracks.keep {e e' : Ends R (Recorded W)} (h : Tracks byteLen offset total e)
    (hsizes : e'.writer.sizes = e.writer.sizes) (hprogress : e'.progress = e.progress) :
    Tracks byteLen offset total e' where
  progress := by rw [hprogress, hsizes]; exact h.progress
  total := by rw [hsizes]; exact h.total
  pos := by rw [hsizes]; exact h.pos

theorem Tracks.ascending {e : Ends R (Recorded W)} (h : Tracks byteLen offset total e)
    (hle : total ≤ byteLen) : Ascending byteLen offset (totals offset e.writer.sizes) :=
  ascending_totals h.pos (h.total.le.trans hle)

theorem writeAll_tracks (byteLen offset : ℕ) [AsyncWrite W] (bytes : Bytes) : ∀ total : ℕ,
    ⦃fun e : Ends R (Recorded W) => ⌜Tracks byteLen offset total e⌝⦄ writeAll failures bytes total
    ⦃post⟨fun _ e => ⌜Tracks byteLen offset (total + bytes.length) e⌝,
      fun _ e => ⌜∃ reached, reached ≤ total + bytes.length ∧ Tracks byteLen offset reached e⌝⟩⦄ := by
  induction hn : bytes.length using Nat.strongRecOn generalizing bytes with
  | ind n ih =>
    subst hn
    have ih' := fun (x : Bytes) (hx : x.length < bytes.length) => ih _ hx x rfl
    intro total
    unfold writeAll
    mvcgen [atWriter, observe, ih']
    case vc1 hz e htracks =>
      subst hz
      exact htracks
    case vc2 hz e htracks count w' hr _ hc =>
      refine ⟨total, by omega, htracks.keep ?_ rfl⟩
      exact Recorded.sizes_of_refused (step_ok hr) fun n hn => (Except.ok.inj hn).symm.trans hc
    case vc3 hz e htracks count w' hr _ hc _ =>
      have := List.length_pos_of_ne_nil hz
      rw [List.length_drop]
      omega
    case vc4 hz e htracks count w' hr _ hc _ =>
      exact htracks.write (Recorded.sizes_of_write (step_ok hr) hc) hc
    case vc5 hz e htracks count w' hr _ hc _ _ e' =>
      intro hrest
      have hle := AsyncWrite.write_le (congrArg Prod.fst (step_ok hr))
      have htotal : total + count + (bytes.drop count).length = total + bytes.length := by
        rw [List.length_drop]
        omega
      rwa [htotal] at hrest
    case vc6 hz e htracks count w' hr _ hc _ _ e' =>
      rintro ⟨reached, hreached, hrest⟩
      have hle := AsyncWrite.write_le (congrArg Prod.fst (step_ok hr))
      rw [List.length_drop] at hreached
      exact ⟨reached, by omega, hrest⟩
    case vc7 hz e htracks err w' hr _ =>
      obtain ⟨err', hw⟩ := step_error hr
      refine ⟨total, by omega, htracks.keep (Recorded.sizes_of_refused hw fun n hn => ?_) rfl⟩
      cases hn

theorem copySuffix_tracks (byteLen offset : ℕ) (blake3 : Hasher (FixedBytes 32)) [AsyncRead R]
    [AsyncWrite W] (total : ℕ) : total ≤ byteLen → ∀ hasher : blake3.State,
    ⦃fun e : Ends R (Recorded W) => ⌜Tracks byteLen offset total e⌝⦄
      copySuffix blake3 failures byteLen total hasher
    ⦃post⟨fun _ e => ⌜Tracks byteLen offset byteLen e⌝,
      fun _ e => ⌜∃ reached, reached ≤ byteLen ∧ Tracks byteLen offset reached e⌝⟩⦄ := by
  induction hn : byteLen - total using Nat.strongRecOn generalizing total with
  | ind n ih =>
    subst hn
    have ih' := fun (t : ℕ) (ht : byteLen - t < byteLen - total) => ih _ ht t rfl
    intro hle hasher
    unfold copySuffix
    have hwrite := @writeAll_tracks R W failures byteLen offset _
    mvcgen [atReader, hwrite, ih']
    case vc1 hlt e htracks bytes r' hr _ hb => exact ⟨total, hle, htracks.keep rfl rfl⟩
    case vc2 hlt e htracks bytes r' hr _ hb => exact htracks.keep rfl rfl
    case vc4 hlt e htracks bytes r' hr _ hb _ =>
      have := List.length_pos_of_ne_nil hb
      intros
      omega
    case vc5 hlt e htracks bytes r' hr _ hb _ =>
      have := AsyncRead.length_read_le (congrArg Prod.fst (step_ok hr))
      intros
      omega
    case vc6 hlt e htracks bytes r' hr _ hb _ _ =>
      rintro ⟨reached, hreached, hrest⟩
      have := AsyncRead.length_read_le (congrArg Prod.fst (step_ok hr))
      exact ⟨reached, by omega, hrest⟩
    case vc7 hlt e htracks _ r' hr _ => exact ⟨total, hle, htracks.keep rfl rfl⟩
    case vc8 hge e htracks =>
      obtain rfl : total = byteLen := by omega
      exact htracks

/-- A worker has either not begun to write, or looked at every total. -/
def Steady (byteLen offset : ℕ) (before : Progress) (e : Ends R (Recorded W)) : Prop :=
  e.writer.sizes = [] ∧ e.progress = before ∨
    ∃ reached, offset ≤ byteLen ∧ reached ≤ byteLen ∧ Tracks byteLen offset reached e

end Tracks

section Workers

variable (blake3 : Hasher (FixedBytes 32)) (metadata : TransferMetadata) (offset : ℕ)
  (before : Progress)

theorem sendPayload_steady {R W : Type} [AsyncRead R] [AsyncSeek R] [AsyncWrite W] :
    ⦃fun e : Ends R (Recorded W) => ⌜e.writer.sizes = [] ∧ e.progress = before⌝⦄
      sendPayload blake3 metadata offset
    ⦃post⟨fun _ e => ⌜Steady metadata.byteLen offset before e⌝,
      fun _ e => ⌜Steady metadata.byteLen offset before e⌝⟩⦄ := by
  have hcopy := @copySuffix_tracks R W sendFailures metadata.byteLen offset blake3 _ _
  mvcgen [sendPayload, require, atReader, hcopy]
  case vc2 e hnone _ _ _ _ _ _ _ _ _ _ _ _ _ _ _ => exact tracks_new hnone.1 rfl
  case vc3 e _ hle _ _ _ _ _ _ _ _ _ _ _ _ _ _ _ e' htracks _ _ _ _ _ |
      vc4 e _ hle _ _ _ _ _ _ _ _ _ _ _ _ _ _ _ e' htracks _ _ _ _ _ |
      vc5 e _ hle _ _ _ _ _ _ _ _ _ _ _ _ _ _ _ e' htracks _ _ _ _ =>
    exact .inr ⟨_, hle, le_rfl, htracks.keep rfl rfl⟩
  case vc6 e _ hle _ _ _ _ _ _ _ _ _ _ _ _ _ _ _ e' =>
    rintro ⟨reached, hreached, htracks⟩
    exact .inr ⟨reached, hle, hreached, htracks⟩
  -- Nothing is written, or looked at, before the payload loop.
  all_goals exact .inl ‹_›

section Receiving

variable {R S : Type}

theorem sizes_of_seek [AsyncSeek S] {fail : StepError → TransferIoError} {point : SeekFrom}
    {w w' : Recorded S} {result : Except TransferIoError ℕ}
    (h : (step fail (AsyncSeek.seek point)).run.run w = (result, w')) : w'.sizes = w.sizes := by
  rw [← step_state h]
  rfl

theorem sizes_of_flush [AsyncWrite S] {fail : StepError → TransferIoError} {w w' : Recorded S}
    {result : Except TransferIoError Unit}
    (h : (step fail AsyncWrite.flush).run.run w = (result, w')) : w'.sizes = w.sizes := by
  rw [← step_state h]
  rfl

theorem sizes_of_hashed [AsyncRead S] {remaining : ℕ} {hasher : blake3.State} {w w' : Recorded S}
    {result : Except TransferIoError blake3.State}
    (h : (ExceptT.run ((hashPrefix blake3 remaining hasher).adapt stagingFailure)).run w =
      (result, w')) : w'.sizes = w.sizes := by
  have hreads : Reads w w' := by
    cases result with
    | error e =>
      obtain ⟨_, herror⟩ := adapt_error h
      exact hashPrefix_error blake3 herror
    | ok state =>
      obtain ⟨_, -, hdelivers, -⟩ := hashPrefix_ok blake3 (adapt_ok h)
      exact hdelivers.reads
  exact hreads.keeps (P := fun v => v.sizes = w.sizes) (fun _ _ hv => hv) rfl

theorem receivePayload_steady [AsyncRead R] [AsyncRead S] [AsyncWrite S] [AsyncSeek S] :
    ⦃fun e : Ends R (Recorded S) => ⌜e.writer.sizes = [] ∧ e.progress = before⌝⦄
      receivePayload blake3 metadata offset
    ⦃post⟨fun _ e => ⌜Steady metadata.byteLen offset before e⌝,
      fun _ e => ⌜Steady metadata.byteLen offset before e⌝⟩⦄ := by
  have hcopy := @copySuffix_tracks R S receiveFailures metadata.byteLen offset blake3 _ _
  mvcgen [receivePayload, require, atReader, atWriter, hcopy]
  case vc2 e hnone hle _ f₁ h₁ _ hn _ f₂ h₂ _ hasher f₃ h₃ _ _ =>
    refine tracks_new ?_ rfl
    exact (sizes_of_hashed blake3 h₃).trans
      ((sizes_of_seek h₂).trans ((sizes_of_seek h₁).trans hnone.1))
  case vc3 e hnone hle _ f₁ h₁ _ hn _ f₂ h₂ _ hasher f₃ h₃ _ _ hasher' e' htracks _ r' hend _ hnil
      hfinal _ f₄ hflush _ =>
    exact .inr ⟨_, hle, le_rfl, htracks.keep (sizes_of_flush hflush) rfl⟩
  case vc4 e hnone hle _ f₁ h₁ _ hn _ f₂ h₂ _ hasher f₃ h₃ _ _ hasher' e' htracks _ r' hend _ hnil
      hfinal _ f₄ hflush _ =>
    exact .inr ⟨_, hle, le_rfl, htracks.keep (sizes_of_flush hflush) rfl⟩
  case vc5 e hnone hle _ f₁ h₁ _ hn _ f₂ h₂ _ hasher f₃ h₃ _ _ hasher' e' htracks _ r' hend _ _ _ |
      vc6 e hnone hle _ f₁ h₁ _ hn _ f₂ h₂ _ hasher f₃ h₃ _ _ hasher' e' htracks _ r' hend _ _ |
      vc7 e hnone hle _ f₁ h₁ _ hn _ f₂ h₂ _ hasher f₃ h₃ _ _ hasher' e' htracks _ r' hend _ =>
    exact .inr ⟨_, hle, le_rfl, htracks.keep rfl rfl⟩
  case vc8 e hnone hle _ f₁ h₁ _ hn _ f₂ h₂ _ hasher f₃ h₃ _ _ _ e' =>
    rintro ⟨reached, hreached, htracks⟩
    exact .inr ⟨reached, hle, hreached, htracks⟩
  case vc9 e hnone hle _ f₁ h₁ _ hn _ f₂ h₂ _ _ f₃ h₃ _ =>
    refine .inl ⟨?_, hnone.2⟩
    exact (sizes_of_hashed blake3 h₃).trans
      ((sizes_of_seek h₂).trans ((sizes_of_seek h₁).trans hnone.1))
  case vc10 e hnone hle _ f₁ h₁ _ hn _ f₂ h₂ _ =>
    exact .inl ⟨(sizes_of_seek h₂).trans ((sizes_of_seek h₁).trans hnone.1), hnone.2⟩
  case vc11 e hnone hle _ f₁ h₁ _ _ | vc12 e hnone hle _ f₁ h₁ _ =>
    exact .inl ⟨(sizes_of_seek h₁).trans hnone.1, hnone.2⟩
  case vc13 e hnone _ => exact .inl hnone

end Receiving

end Workers

/-! ### The record changes nothing -/

section Plain

variable {R W α : Type}

/-- The ends, without the record. -/
def Ends.plain (e : Ends R (Recorded W)) : Ends R W := ⟨e.reader, e.writer.writer, e.progress⟩

/-- The ends, with an empty record. -/
def Ends.recorded (e : Ends R W) : Ends R (Recorded W) := ⟨e.reader, ⟨e.writer, []⟩, e.progress⟩

theorem run_atReader (work : Work R α) (e : Ends R W) : (atReader work).run.run e =
    ((work.run.run e.reader).1, { e with reader := (work.run.run e.reader).2 }) := by
  have h : ∀ x : Except TransferIoError α × R,
      (ExceptT.run (match x with
        | (.ok a, reader) => do
          modify fun ends => { ends with reader }
          return a
        | (.error e, reader) => do
          modify fun ends => { ends with reader }
          throw e : Work (Ends R W) α)).run e = (x.1, { e with reader := x.2 }) := by
    rintro ⟨e | a, reader⟩ <;> rfl
  exact h _

theorem run_atWriter (work : Work W α) (e : Ends R W) : (atWriter work).run.run e =
    ((work.run.run e.writer).1, { e with writer := (work.run.run e.writer).2 }) := by
  have h : ∀ x : Except TransferIoError α × W,
      (ExceptT.run (match x with
        | (.ok a, writer) => do
          modify fun ends => { ends with writer }
          return a
        | (.error e, writer) => do
          modify fun ends => { ends with writer }
          throw e : Work (Ends R W) α)).run e = (x.1, { e with writer := x.2 }) := by
    rintro ⟨e | a, writer⟩ <;> rfl
  exact h _

theorem simulates_require {σ τ : Type} {f : σ → τ} (condition : Prop) [Decidable condition]
    (error : TransferIoError) : Simulates f (require condition error) (require condition error) := by
  unfold require
  split_ifs
  · exact .returns ()
  · exact .throws error

theorem simulates_step {σ τ : Type} {f : σ → τ} {fail : StepError → TransferIoError}
    {operation : IoStep σ α} {operation' : IoStep τ α}
    (h : ∀ s, operation' (f s) = Prod.map id f (operation s)) :
    Simulates f (step fail operation) (step fail operation') := by
  intro s
  rw [run_step, run_step, h s]
  rfl

theorem simulates_atReader (work : Work R α) :
    Simulates (Ends.plain (W := W)) (atReader work) (atReader work) := by
  intro e
  rw [run_atReader, run_atReader]
  rfl

theorem simulates_atWriter {work : Work (Recorded W) α} {work' : Work W α}
    (h : Simulates Recorded.writer work work') :
    Simulates (Ends.plain (R := R)) (atWriter work) (atWriter work') := by
  intro e
  have hwork : work'.run.run e.plain.writer = Prod.map id Recorded.writer (work.run.run e.writer) :=
    h e.writer
  rw [run_atWriter, run_atWriter, hwork]
  rfl

theorem writeAll_simulates [AsyncWrite W] (failures : Failures) (bytes : Bytes) : ∀ total : ℕ,
    Simulates (Ends.plain (R := R) (W := W)) (writeAll failures bytes total)
      (writeAll failures bytes total) := by
  induction hn : bytes.length using Nat.strongRecOn generalizing bytes with
  | ind n ih =>
    subst hn
    intro total
    unfold writeAll
    split_ifs with hz
    · exact .returns ()
    · refine .bind (simulates_atWriter (simulates_step fun _ => rfl)) fun count => ?_
      split_ifs with hc
      · exact .throws _
      · refine .bind (.updates fun _ => rfl) fun _ => ih _ ?_ (bytes.drop count) rfl _
        have := List.length_pos_of_ne_nil hz
        rw [List.length_drop]
        omega

theorem copySuffix_simulates (blake3 : Hasher (FixedBytes 32)) [AsyncRead R] [AsyncWrite W]
    (failures : Failures) (byteLen total : ℕ) : ∀ hasher : blake3.State,
    Simulates (Ends.plain (R := R) (W := W)) (copySuffix blake3 failures byteLen total hasher)
      (copySuffix blake3 failures byteLen total hasher) := by
  induction hn : byteLen - total using Nat.strongRecOn generalizing total with
  | ind n ih =>
    subst hn
    intro hasher
    unfold copySuffix
    split_ifs with hlt
    · refine .bind (simulates_atReader _) fun bytes => ?_
      split_ifs with hb
      · exact .throws _
      · refine .bind (writeAll_simulates failures bytes total) fun _ => ih _ ?_ _ rfl _
        have := List.length_pos_of_ne_nil hb
        omega
    · exact .returns hasher

theorem hashPrefix_simulates (blake3 : Hasher (FixedBytes 32)) [AsyncRead W] (remaining : ℕ) :
    ∀ hasher : blake3.State, Simulates (Recorded.writer (W := W))
      (hashPrefix blake3 remaining hasher) (hashPrefix blake3 remaining hasher) := by
  induction remaining using Nat.strongRecOn with
  | ind remaining ih =>
    intro hasher
    unfold hashPrefix
    split_ifs with hz
    · exact .returns hasher
    · refine .bind (simulates_step fun _ => rfl) fun bytes => ?_
      split_ifs with hb
      · exact .throws _
      · refine ih _ ?_ _
        have := List.length_pos_of_ne_nil hb
        omega

variable (blake3 : Hasher (FixedBytes 32)) (metadata : TransferMetadata) (offset : ℕ)

theorem sendPayload_simulates [AsyncRead R] [AsyncSeek R] [AsyncWrite W] :
    Simulates (Ends.plain (R := R) (W := W)) (sendPayload blake3 metadata offset)
      (sendPayload blake3 metadata offset) := by
  refine .bind (simulates_require _ _) fun _ => .bind (simulates_atReader _) fun digest => ?_
  refine .bind (simulates_require _ _) fun _ => .bind (simulates_atReader _) fun _ => ?_
  refine .bind (simulates_atReader _) fun hasher => .bind (.updates fun _ => rfl) fun _ => ?_
  refine .bind (copySuffix_simulates blake3 _ _ _ _) fun hasher => ?_
  exact .bind (simulates_atReader _) fun _ => simulates_require _ _

theorem receivePayload_simulates [AsyncRead R] [AsyncRead W] [AsyncWrite W] [AsyncSeek W] :
    Simulates (Ends.plain (R := R) (W := W)) (receivePayload blake3 metadata offset)
      (receivePayload blake3 metadata offset) := by
  have hseek (point : SeekFrom) : Simulates (Ends.plain (R := R) (W := W))
      (atWriter (step localIo (AsyncSeek.seek point)))
      (atWriter (step localIo (AsyncSeek.seek point))) :=
    simulates_atWriter (simulates_step fun _ => rfl)
  refine .bind (simulates_require _ _) fun _ => .bind (hseek .ending) fun actual => ?_
  refine .bind (simulates_require _ _) fun _ => .bind (hseek .start) fun _ => ?_
  refine .bind (simulates_atWriter ((hashPrefix_simulates blake3 _ _).adapt _)) fun hasher => ?_
  refine .bind (.updates fun _ => rfl) fun _ => ?_
  refine .bind (copySuffix_simulates blake3 _ _ _ _) fun hasher => ?_
  refine .bind (simulates_atReader _) fun extra => .bind (simulates_require _ _) fun _ => ?_
  refine .bind (simulates_require _ _) fun _ => ?_
  exact simulates_atWriter (simulates_step fun _ => rfl)

end Plain

/-! ### What is reported -/

/-- What an attempt reports whose writer took pieces of the given sizes: it has looked at the total
after each of them, the reports are as they should be, and no total it looked at was below the last
report. -/
structure Reports (byteLen offset : ℕ) (sizes : List ℕ) (progress : Progress) : Prop where
  looked : progress = (totals offset sizes).foldl Progress.observe (.new byteLen offset)
  paced : Paced byteLen offset progress.reported
  fits : ∀ earlier total later, totals offset sizes = earlier ++ total :: later →
    (earlier.foldl Progress.observe (.new byteLen offset)).last ≤ total

theorem Tracks.reports {R W : Type} {byteLen offset total : ℕ} {e : Ends R (Recorded W)}
    (h : Tracks byteLen offset total e) (hoffset : offset ≤ byteLen) (hle : total ≤ byteLen) :
    Reports byteLen offset e.writer.sizes e.progress where
  looked := h.progress
  paced := by
    rw [h.progress]
    exact paced_of_ascending hoffset (h.ascending hle)
  fits earlier total later hsplit := by
    have hgrow := (h.ascending hle).grow
    rw [hsplit] at hgrow
    exact (last_lt_of_ascending hgrow).le

/-- The attempt is the one with a record, and it has either reported nothing yet, since it failed
before it began to write, or reports as it should. -/
def ReportsWell {R W : Type} (byteLen offset : ℕ) (e : Ends R W)
    (attempt : Except TransferIoError Unit × Ends R W)
    (recorded : Except TransferIoError Unit × Ends R (Recorded W)) : Prop :=
  attempt = Prod.map id Ends.plain recorded ∧
    (recorded.2.writer.sizes = [] ∧ recorded.2.progress = e.progress ∨
      Reports byteLen offset recorded.2.writer.sizes recorded.2.progress)

theorem reportsWell_of_steady {R W : Type} {byteLen offset : ℕ} {e : Ends R W}
    {work : Work (Ends R W) Unit} {recorded : Work (Ends R (Recorded W)) Unit}
    (hsame : Simulates Ends.plain recorded work)
    (hspec : ⦃fun e' => ⌜e'.writer.sizes = [] ∧ e'.progress = e.progress⌝⦄ recorded
      ⦃post⟨fun _ e' => ⌜Steady byteLen offset e.progress e'⌝,
        fun _ e' => ⌜Steady byteLen offset e.progress e'⌝⟩⦄) :
    ReportsWell byteLen offset e (work.run.run e) (recorded.run.run e.recorded) := by
  refine ⟨hsame e.recorded, ?_⟩
  have hsteady : Steady byteLen offset e.progress (recorded.run.run e.recorded).2 := by
    rcases cases_of_triple hspec (a := e.recorded) ⟨rfl, rfl⟩ with ⟨_, -, h⟩ | ⟨_, -, h⟩ <;>
      exact h
  rcases hsteady with hnone | ⟨reached, hoffset, hreached, htracks⟩
  · exact .inl hnone
  · exact .inr (htracks.reports hoffset hreached)

/-- **Progress is bounded and monotone**, for both workers, every file length and offset, and whatever
the two ends do: however the writer takes the suffix, the reports of the attempt grow from the offset
to at most the length, lie far enough apart and are at most a hundred, and no total is below the last
report. -/
theorem progress_is_bounded (blake3 : Hasher (FixedBytes 32)) (metadata : TransferMetadata)
    (offset : ℕ) :
    (∀ (R W : Type) [AsyncRead R] [AsyncSeek R] [AsyncWrite W] (e : Ends R W),
      ReportsWell metadata.byteLen offset e ((sendPayload blake3 metadata offset).run.run e)
        ((sendPayload blake3 metadata offset).run.run e.recorded)) ∧
    ∀ (R S : Type) [AsyncRead R] [AsyncRead S] [AsyncWrite S] [AsyncSeek S] (e : Ends R S),
      ReportsWell metadata.byteLen offset e ((receivePayload blake3 metadata offset).run.run e)
        ((receivePayload blake3 metadata offset).run.run e.recorded) :=
  ⟨fun _ _ _ _ _ e => reportsWell_of_steady (sendPayload_simulates blake3 metadata offset)
      (sendPayload_steady blake3 metadata offset e.progress),
    fun _ _ _ _ _ _ e => reportsWell_of_steady (receivePayload_simulates blake3 metadata offset)
      (receivePayload_steady blake3 metadata offset e.progress)⟩

end Rift.Transfer
