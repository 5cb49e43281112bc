import Rift.Transfer.Streaming

/-! # What the payload workers guarantee

The main results are `sendPayload_spec`, `receivePayload_spec`, `sent_payload_is_promised_file`
and `received_payload_is_verified`. -/

namespace Rift.Transfer

open Rift.Lib Rift.Core Rift.Protocol Std.Do

set_option mvcgen.warning false

variable (blake3 : Hasher (FixedBytes 32)) (metadata : TransferMetadata) (offset : ℕ)

/-! ### Sending -/

section Sending

variable {R W : Type} [AsyncRead R] [AsyncSeek R] [Sink W]

theorem hashSource_keeps {P : R → Prop} (hread : ∀ n r, P r → P (AsyncRead.read n r).2)
    (hseek : ∀ r, P r → P (AsyncSeek.seek .start r).2) {byteLen : ℕ} {r r' : R}
    {result : Except TransferIoError (FixedBytes 32)} (hr : P r)
    (h : (hashSource blake3 byteLen).run.run r = (result, r')) : P r' := by
  have hs : ⦃fun s => ⌜s = r⌝⦄ hashSource blake3 byteLen
      ⦃post⟨fun _ s => ⌜P s⌝, fun _ s => ⌜P s⌝⟩⦄ := by
    mvcgen [hashSource, requireSourceEof, require, step, hashPrefix_spec]
    all_goals subst_vars
    case vc1 hs _ _ hx s' hread' | vc2 hs _ _ hx _ s' hread' _ | vc3 hs _ _ hx _ s' hread' =>
      obtain ⟨x, -, hd, -⟩ := hx
      have hP' := hread 1 _ (hd.reads.keeps hread (by simpa [hs] using hseek _ hr))
      rwa [hread'] at hP'
    case vc4 hs _ _ => exact fun hreads => hreads.keeps hread (by simpa [hs] using hseek _ hr)
    case vc5 hs => simpa [hs] using hseek _ hr
    case vc6 => exact hr
  rcases cases_of_triple hs rfl with ⟨_, -, hP⟩ | ⟨_, -, hP⟩ <;> rwa [h] at hP

/-- The source was rewound from a state with the property, and then delivered a prefix of `offset`
bytes and the bytes `x`. -/
def SecondPass (P : R → Prop) (offset : ℕ) (p x : Bytes) : Prop :=
  ∃ r n r', P r ∧ (AsyncSeek.seek .start r).1 = .ok n ∧ p.length = offset ∧
    Delivers (AsyncSeek.seek .start r).2 (p ++ x) r'

theorem secondPass_of_hashed {P : R → Prop} {r₁ r₂ r₃ : R} {n : ℕ} {hasher : blake3.State}
    (hP : P r₁) (hs : (step localIo (AsyncSeek.seek .start)).run.run r₁ = (.ok n, r₂))
    (hh : (hashPrefix blake3 offset blake3.new).run.run r₂ = (.ok hasher, r₃)) :
    ∃ p, blake3.Fed hasher p ∧ ∀ x r₄, Delivers r₃ x r₄ → SecondPass P offset p x := by
  obtain ⟨p, hp, hd, hf⟩ := hashPrefix_ok blake3 hh
  have hseek := step_ok hs
  refine ⟨p, hf [] Hasher.fed_new, fun x r₄ hx => ⟨r₁, n, r₄, hP, by rw [hseek], hp, ?_⟩⟩
  rw [hseek]
  exact hd.trans hx

/-- What the sender has done: the first pass matched and what the second pass read behind the prefix
was written; or it failed, and a beginning of that was written, nothing if the first pass failed. -/
theorem sendPayload_spec {P : R → Prop} (hread : ∀ n r, P r → P (AsyncRead.read n r).2)
    (hseek : ∀ r, P r → P (AsyncSeek.seek .start r).2) (e₀ : Ends R W) (hP : P e₀.reader)
    (hready : Sink.ready e₀.writer) :
    ⦃fun e => ⌜e = e₀⌝⦄ sendPayload blake3 metadata offset
    ⦃post⟨fun _ e => ⌜offset ≤ metadata.byteLen ∧ ∃ p x, SecondPass P offset p x ∧
        x.length = metadata.byteLen - offset ∧ blake3.hash (p ++ x) = metadata.blake3 ∧
        Sink.taken e.writer = Sink.taken e₀.writer ++ x ∧
        ((hashSource blake3 metadata.byteLen).run.run e₀.reader).1 = .ok metadata.blake3⌝,
      fun _ e => ⌜Sink.taken e.writer = Sink.taken e₀.writer ∨
        ∃ p x y, SecondPass P offset p x ∧ x.length ≤ metadata.byteLen - offset ∧ y <+: x ∧
          Sink.taken e.writer = Sink.taken e₀.writer ++ y ∧
          ((hashSource blake3 metadata.byteLen).run.run e₀.reader).1 = .ok metadata.blake3⌝⟩⦄ := by
  mvcgen [sendPayload, require, atReader, copySuffix_spec]
  case vc1 =>
    subst_vars
    exact hready
  case vc2 e heq hle _ r₁ h₁ _ hdigest _ r₂ h₂ _ _ r₃ h₃ _ _ hasher e' hcopy _ _ _ _ hfinal =>
    subst heq hdigest
    obtain ⟨x, hx, hd, -, ht, hf⟩ := hcopy
    obtain ⟨p, hp, hpass⟩ := secondPass_of_hashed blake3 offset
      (hashSource_keeps blake3 hread hseek hP h₁) h₂ h₃
    refine ⟨hle, p, x, hpass x _ hd, hx, ?_, ht, congrArg Prod.fst h₁⟩
    rw [← (hf p hp).finalize]
    exact hfinal
  -- The payload was read and written, but its end or its digest is not the announced one.
  case vc3 e heq hle _ r₁ h₁ _ hdigest _ r₂ h₂ _ _ r₃ h₃ _ _ hasher e' hcopy _ _ _ _ _ |
      vc4 e heq hle _ r₁ h₁ _ hdigest _ r₂ h₂ _ _ r₃ h₃ _ _ hasher e' hcopy _ _ _ _ =>
    subst heq hdigest
    obtain ⟨x, hx, hd, -, ht, -⟩ := hcopy
    obtain ⟨p, hp, hpass⟩ := secondPass_of_hashed blake3 offset
      (hashSource_keeps blake3 hread hseek hP h₁) h₂ h₃
    exact Or.inr ⟨p, x, x, hpass x _ hd, hx.le, List.prefix_refl _, ht, congrArg Prod.fst h₁⟩
  case vc5 e heq hle _ r₁ h₁ _ hdigest _ r₂ h₂ _ _ r₃ h₃ _ _ _ e' =>
    subst heq hdigest
    rintro ⟨x, y, r₄, hx, hd, hy, ht⟩
    obtain ⟨p, hp, hpass⟩ := secondPass_of_hashed blake3 offset
      (hashSource_keeps blake3 hread hseek hP h₁) h₂ h₃
    exact Or.inr ⟨p, x, y, hpass x _ hd, hx, hy, ht, congrArg Prod.fst h₁⟩
  -- Nothing was written before the payload loop.
  all_goals
    subst_vars
    exact Or.inl rfl

end Sending

/-! ### Receiving -/

section Receiving

variable {R : Type} [AsyncRead R]

theorem adapt_ok {σ α : Type} {work : Work σ α} {f : TransferIoError → TransferIoError} {s s' : σ}
    {a : α} (h : (ExceptT.run (work.adapt f)).run s = (.ok a, s')) :
    work.run.run s = (.ok a, s') := by
  have hr : (ExceptT.run (work.adapt f)).run s =
    ((work.run.run s).1.mapError f, (work.run.run s).2) := rfl
  rw [hr] at h
  rcases hw : work.run.run s with ⟨e | a, s''⟩ <;> rw [hw] at h <;> cases h
  rfl

theorem adapt_error {σ α : Type} {work : Work σ α} {f : TransferIoError → TransferIoError} {s s' : σ}
    {e : TransferIoError} (h : (ExceptT.run (work.adapt f)).run s = (.error e, s')) :
    ∃ e', work.run.run s = (.error e', s') := by
  have hr : (ExceptT.run (work.adapt f)).run s =
    ((work.run.run s).1.mapError f, (work.run.run s).2) := rfl
  rw [hr] at h
  rcases hw : work.run.run s with ⟨e | a, s''⟩ <;> rw [hw] at h <;> cases h
  exact ⟨_, rfl⟩

/-- A staging file that was measured and rehashed is unchanged, and its position is at its end. -/
theorem staging_prepared {f₀ f₁ f₂ f₃ : ScriptedFile} {n : ℕ} {hasher : blake3.State}
    (h₁ : (step localIo (AsyncSeek.seek .ending)).run.run f₀ = (.ok offset, f₁))
    (h₂ : (step localIo (AsyncSeek.seek .start)).run.run f₁ = (.ok n, f₂))
    (h₃ : (ExceptT.run ((hashPrefix blake3 offset blake3.new).adapt stagingFailure)).run f₂ =
      (.ok hasher, f₃)) :
    f₀.content.length = offset ∧ f₃.content = f₀.content ∧ f₃.pos = f₃.content.length ∧
      blake3.Fed hasher f₀.content := by
  obtain ⟨hlen, rfl⟩ := ScriptedFile.eq_of_seek (step_ok h₁)
  obtain ⟨-, rfl⟩ := ScriptedFile.eq_of_seek (step_ok h₂)
  obtain ⟨x, hx, hd, hf⟩ := hashPrefix_ok blake3 (adapt_ok h₃)
  have hlen : f₀.content.length = offset := hlen.symm
  have hcontent : f₃.content = f₀.content :=
    (ScriptedFile.content_reads hd.reads :
      f₃.content = ((f₀.moveTo .ending).moveTo .start).content)
  have hpos : f₃.pos = 0 + x.length := ScriptedFile.pos_delivers hd
  have hahead : f₀.content = x ++ f₃.rest := Tape.ahead_delivers hd
  have hrest : f₃.rest = [] := by
    have := congrArg List.length hahead
    rw [List.length_append] at this
    exact List.eq_nil_of_length_eq_zero (by omega)
  refine ⟨hlen, hcontent, by rw [hpos, hcontent]; omega, ?_⟩
  rw [hahead, hrest, List.append_nil]
  exact hf [] Hasher.fed_new

theorem content_of_seek {f g : ScriptedFile} {point : SeekFrom} {r : Except TransferIoError ℕ}
    (h : (step localIo (AsyncSeek.seek point)).run.run f = (r, g)) : g.content = f.content := by
  rw [← step_state h]
  exact ScriptedFile.content_seek point f

theorem content_of_flush {f g : ScriptedFile} {r : Except TransferIoError Unit}
    (h : (step localIo AsyncWrite.flush).run.run f = (r, g)) : g.content = f.content := by
  rw [← step_state h]
  exact ScriptedFile.content_flush f

/-- The staging file was extended by a beginning of what the stream delivered. -/
def Appended (missing : ℕ) (e₀ : Ends R ScriptedFile) (content : Bytes) : Prop :=
  ∃ x y r, x.length ≤ missing ∧ Delivers e₀.reader x r ∧ y <+: x ∧
    content = e₀.writer.content ++ y

theorem appended_nothing {missing : ℕ} {e₀ : Ends R ScriptedFile} {content : Bytes}
    (h : content = e₀.writer.content) : Appended missing e₀ content :=
  ⟨[], [], e₀.reader, Nat.zero_le _, .refl _, List.prefix_refl _, by rw [h, List.append_nil]⟩

/-- What the receiver has done: it appended exactly what was missing, as the stream delivered it up to
its end, and the whole has the promised digest; or it failed, and appended a beginning of what the
stream delivered. -/
theorem receivePayload_spec (e₀ : Ends R ScriptedFile) :
    ⦃fun e => ⌜e = e₀⌝⦄ receivePayload blake3 metadata offset
    ⦃post⟨fun _ e => ⌜offset ≤ metadata.byteLen ∧ e₀.writer.content.length = offset ∧
        ∃ x r, x.length = metadata.byteLen - offset ∧ Delivers e₀.reader x r ∧
          (AsyncRead.read 1 r).1 = .ok [] ∧ e.writer.content = e₀.writer.content ++ x ∧
          blake3.hash (e₀.writer.content ++ x) = metadata.blake3⌝,
      fun _ e => ⌜Appended (metadata.byteLen - offset) e₀ e.writer.content⌝⟩⦄ := by
  mvcgen [receivePayload, require, atReader, atWriter, copySuffix_spec]
  case vc1 e heq hle _ f₁ h₁ _ hn _ f₂ h₂ _ hasher f₃ h₃ _ _ =>
    subst heq hn
    exact (staging_prepared blake3 _ h₁ h₂ h₃).2.2.1
  case vc2 e heq hle _ f₁ h₁ _ hn _ f₂ h₂ _ hasher f₃ h₃ _ _ hasher' e' hcopy _ r' hend _ hnil hfinal
      _ f₄ hflush _ =>
    subst heq hn hnil
    obtain ⟨x, hx, hd, -, ht, hf⟩ := hcopy
    obtain ⟨hlen, hcontent, -, hfed⟩ := staging_prepared blake3 _ h₁ h₂ h₃
    refine ⟨hle, hlen, x, _, hx, hd, congrArg Prod.fst (step_ok hend), ?_, ?_⟩
    · exact (content_of_flush hflush).trans (ht.trans (congrArg (· ++ x) hcontent))
    · rw [← (hf _ hfed).finalize]
      exact hfinal
  case vc3 e heq hle _ f₁ h₁ _ hn _ f₂ h₂ _ hasher f₃ h₃ _ _ hasher' e' hcopy _ r' hend _ hnil hfinal
      _ f₄ hflush _ =>
    subst heq hn hnil
    obtain ⟨x, hx, hd, -, ht, -⟩ := hcopy
    obtain ⟨-, hcontent, -⟩ := staging_prepared blake3 _ h₁ h₂ h₃
    exact ⟨x, x, _, hx.le, hd, List.prefix_refl _,
      (content_of_flush hflush).trans (ht.trans (congrArg (· ++ x) hcontent))⟩
  case vc4 e heq hle _ f₁ h₁ _ hn _ f₂ h₂ _ hasher f₃ h₃ _ _ hasher' e' hcopy _ r' hend _ _ _ |
      vc5 e heq hle _ f₁ h₁ _ hn _ f₂ h₂ _ hasher f₃ h₃ _ _ hasher' e' hcopy _ r' hend _ _ |
      vc6 e heq hle _ f₁ h₁ _ hn _ f₂ h₂ _ hasher f₃ h₃ _ _ hasher' e' hcopy _ r' hend _ =>
    subst heq hn
    obtain ⟨x, hx, hd, -, ht, -⟩ := hcopy
    obtain ⟨-, hcontent, -⟩ := staging_prepared blake3 _ h₁ h₂ h₃
    exact ⟨x, x, _, hx.le, hd, List.prefix_refl _, ht.trans (congrArg (· ++ x) hcontent)⟩
  case vc7 e heq hle _ f₁ h₁ _ hn _ f₂ h₂ _ hasher f₃ h₃ _ _ _ e' =>
    subst heq hn
    rintro ⟨x, y, r, hx, hd, hy, ht⟩
    obtain ⟨-, hcontent, -⟩ := staging_prepared blake3 _ h₁ h₂ h₃
    exact ⟨x, y, r, hx, hd, hy, ht.trans (congrArg (· ++ y) hcontent)⟩
  case vc8 e heq hle _ f₁ h₁ _ hn _ f₂ h₂ _ _ f₃ h₃ _ =>
    subst heq
    obtain ⟨_, herr⟩ := adapt_error h₃
    refine appended_nothing ((ScriptedFile.content_reads (hashPrefix_error blake3 herr)).trans ?_)
    exact (content_of_seek h₂).trans (content_of_seek h₁)
  case vc9 e heq hle _ f₁ h₁ _ hn _ f₂ h₂ _ =>
    subst heq
    exact appended_nothing ((content_of_seek h₂).trans (content_of_seek h₁))
  case vc10 e heq hle _ f₁ h₁ _ _ | vc11 e heq hle _ f₁ h₁ _ =>
    subst heq
    exact appended_nothing (content_of_seek h₁)
  case vc12 e heq _ =>
    subst heq
    exact appended_nothing rfl

end Receiving

/-! ### Undisturbed workers -/

section Calm

theorem requireSourceEof_calm (content : Bytes) :
    ⦃fun f : ScriptedFile => ⌜f.Calm ∧ f.rest = [] ∧ f.content = content⌝⦄ requireSourceEof
    ⦃post⟨fun _ f => ⌜f.Calm ∧ f.content = content⌝, fun _ _ => ⌜False⌝⟩⦄ := by
  mvcgen [requireSourceEof, require, step]
  case vc1 f h bytes f' hr hb =>
    have hcontent := ScriptedFile.content_read 1 f
    rw [hr] at hcontent
    exact ⟨(h.1.of_read Nat.one_pos hr).1, hcontent.trans h.2.2⟩
  case vc2 f h bytes f' hr hb =>
    obtain ⟨-, hlen, -⟩ := h.1.of_read Nat.one_pos hr
    rw [h.2.1, List.length_nil] at hlen
    exact hb (List.eq_nil_of_length_eq_zero (by omega))
  case vc3 f h _ f' hr => exact h.1.read_ne_error Nat.one_pos hr

theorem eq_nil_of_copied {x rest : Bytes} {n : ℕ} (hn : x.length = n) (h : x = x.take n ++ rest) :
    rest = [] := by
  rw [← hn, List.take_length] at h
  exact List.self_eq_append_right.1 h

theorem rest_eq_nil {f : ScriptedFile} (h : f.content.length ≤ f.pos) : f.rest = [] :=
  List.drop_of_length_le h

theorem hashSource_calm (content : Bytes) (hle : content.length ≤ maxTransferBytes) :
    ⦃fun f : ScriptedFile => ⌜f.Calm ∧ f.content = content⌝⦄ hashSource blake3 content.length
    ⦃post⟨fun digest f => ⌜digest = blake3.hash content ∧ f.Calm ∧ f.content = content⌝,
      fun _ _ => ⌜False⌝⟩⦄ := by
  have heof := requireSourceEof_calm content
  mvcgen [hashSource, require, step, hashPrefix_done, heof]
  case vc1 f h _ _ f' hs =>
    obtain ⟨-, rfl, hcalm⟩ := h.1.of_seek hs
    exact ⟨trivial, hcalm, by rw [← h.2]; rfl⟩
  case vc2 f h _ _ f' hs hasher f'' hd =>
    obtain ⟨-, rfl, -⟩ := h.1.of_seek hs
    obtain ⟨hcalm, hcontent, hpos, -⟩ := hd
    have hc : f''.content = content := hcontent.trans h.2
    have hp : f''.pos = 0 + content.length := hpos
    exact ⟨hcalm, rest_eq_nil (by rw [hc]; omega), hc⟩
  case vc3 f h _ _ f' hs hasher f'' hd _ f₃ h₃ =>
    obtain ⟨-, rfl, -⟩ := h.1.of_seek hs
    have hf := hd.2.2.2 [] Hasher.fed_new
    have hrest : (f.moveTo .start).rest = content := h.2
    rw [hrest, List.take_length, List.nil_append] at hf
    exact ⟨hf.finalize, h₃⟩
  case vc4 f h _ _ f' hs => exact h.1.seek_ne_error hs

theorem run_of_done {σ α : Type} {work : Work σ α} {P : σ → Prop} {Q : α → σ → Prop}
    (h : ⦃fun s => ⌜P s⌝⦄ work ⦃post⟨fun a s => ⌜Q a s⌝, fun _ _ => ⌜False⌝⟩⦄) {s s' : σ} (hs : P s)
    {result : Except TransferIoError α} (hrun : work.run.run s = (result, s')) :
    ∃ a, result = .ok a ∧ Q a s' := by
  rcases cases_of_triple h hs with ⟨a, hok, hQ⟩ | ⟨_, -, hfalse⟩
  · rw [hrun] at hok hQ
    exact ⟨a, hok, hQ⟩
  · exact hfalse.elim

theorem seek_calm (point : SeekFrom) (f : ScriptedFile) :
    ⦃fun f' => ⌜f' = f ∧ f'.Calm⌝⦄ step localIo (AsyncSeek.seek point)
    ⦃post⟨fun n f' => ⌜n = f.target point ∧ f' = f.moveTo point ∧ f'.Calm⌝, fun _ _ => ⌜False⌝⟩⦄ := by
  mvcgen [step]
  case vc1 f' h n g hs =>
    obtain ⟨rfl, hcalm⟩ := h
    exact hcalm.of_seek hs
  case vc2 f' h _ g hs => exact h.2.seek_ne_error hs

theorem rewound_calm {content : Bytes} {f₁ f₂ f₃ : ScriptedFile} {n : ℕ}
    {result : Except TransferIoError blake3.State} (hle : offset ≤ content.length) (hcalm : f₁.Calm)
    (hcontent : f₁.content = content)
    (h₂ : (step localIo (AsyncSeek.seek .start)).run.run f₁ = (.ok n, f₂))
    (h₃ : (hashPrefix blake3 offset blake3.new).run.run f₂ = (result, f₃)) :
    ∃ hasher, result = .ok hasher ∧ f₃.Calm ∧ f₃.content = content ∧ f₃.pos = offset ∧
      blake3.Fed hasher (content.take offset) := by
  obtain ⟨_, -, -, rfl, hcalm₂⟩ := run_of_done (seek_calm .start f₁) ⟨rfl, hcalm⟩ h₂
  have hrest : (f₁.moveTo .start).rest = content := hcontent
  obtain ⟨hasher, heq, hcalm₃, hcontent₃, hpos, hf⟩ :=
    run_of_done (hashPrefix_done blake3 offset blake3.new _) ⟨rfl, hcalm₂, by rwa [hrest]⟩ h₃
  have hfed := hf [] Hasher.fed_new
  rw [hrest] at hfed
  exact ⟨hasher, heq, hcalm₃, hcontent₃.trans hcontent, hpos.trans (Nat.zero_add _), hfed⟩

theorem finalize_of_copied {content rest : Bytes} {missing : ℕ} {hasher : blake3.State}
    (hrest : rest = content.drop offset) (hmissing : (content.drop offset).length = missing)
    (hfed : blake3.Fed hasher (content.take offset ++ rest.take missing)) :
    blake3.finalize hasher = blake3.hash content := by
  rw [hrest, ← hmissing, List.take_length, List.take_append_drop] at hfed
  exact hfed.finalize

theorem source_calm {content : Bytes} (hlen : content.length = metadata.byteLen)
    (hle : offset ≤ metadata.byteLen) {r r₁ r₂ r₃ : ScriptedFile} {d : FixedBytes 32} {n : ℕ}
    {hasher : blake3.State} (hcalm : r.Calm) (hcontent : r.content = content)
    (h₁ : (hashSource blake3 metadata.byteLen).run.run r = (.ok d, r₁))
    (h₂ : (step localIo (AsyncSeek.seek .start)).run.run r₁ = (.ok n, r₂))
    (h₃ : (hashPrefix blake3 offset blake3.new).run.run r₂ = (.ok hasher, r₃)) :
    r₃.Calm ∧ r₃.rest = content.drop offset ∧ blake3.Fed hasher (content.take offset) := by
  rw [← hlen] at h₁
  obtain ⟨_, -, -, hcalm₁, hcontent₁⟩ := run_of_done
    (hashSource_calm blake3 content (hlen ▸ metadata.byteLen_le)) ⟨hcalm, hcontent⟩ h₁
  obtain ⟨_, heq, hcalm₃, hcontent₃, hpos, hfed⟩ :=
    rewound_calm blake3 offset (by omega) hcalm₁ hcontent₁ h₂ h₃
  cases heq
  exact ⟨hcalm₃, by rw [ScriptedFile.rest, hcontent₃, hpos], hfed⟩

theorem sendPayload_calm {content : Bytes} (hlen : content.length = metadata.byteLen)
    (hhash : blake3.hash content = metadata.blake3) (hle : offset ≤ metadata.byteLen) :
    ⦃fun e : Ends ScriptedFile ScriptedFile => ⌜e.reader.Calm ∧ e.reader.content = content ∧
      e.writer.Calm ∧ Sink.ready e.writer⌝⦄
    sendPayload blake3 metadata offset
    ⦃post⟨fun _ _ => ⌜True⌝, fun _ _ => ⌜False⌝⟩⦄ := by
  have hfirst := hashSource_calm blake3 content (hlen ▸ metadata.byteLen_le)
  rw [hlen] at hfirst
  have hdrop : (content.drop offset).length = metadata.byteLen - offset := by
    rw [List.length_drop, hlen]
  mvcgen [sendPayload, require, atReader, copySuffix_done]
  case vc1 e h _ _ _ _ _ _ _ _ _ _ _ _ _ _ _ => exact h.2.2.2
  case vc2 e h hle _ r₁ h₁ _ hdigest _ r₂ h₂ _ _ r₃ h₃ _ _ =>
    obtain ⟨hcalm, hrest, -⟩ := source_calm blake3 metadata offset hlen hle h.1 h.2.1 h₁ h₂ h₃
    exact ⟨trivial, hcalm, h.2.2.1, (hrest ▸ hdrop).ge⟩
  case vc3 e h hle _ r₁ h₁ _ hdigest _ r₂ h₂ _ _ r₃ h₃ _ _ _ e' hcopy _ _ _ _ hfinal =>
    obtain ⟨-, hrest, hfed⟩ := source_calm blake3 metadata offset hlen hle h.1 h.2.1 h₁ h₂ h₃
    exact hfinal ((finalize_of_copied blake3 offset hrest hdrop (hcopy.2.2.2 _ hfed)).trans hhash)
  case vc4 e h hle _ r₁ h₁ _ hdigest _ r₂ h₂ _ _ r₃ h₃ _ _ _ e' hcopy _ r₄ h₄ _ =>
    obtain ⟨-, hrest, -⟩ := source_calm blake3 metadata offset hlen hle h.1 h.2.1 h₁ h₂ h₃
    have hnil := eq_nil_of_copied (hrest ▸ hdrop) hcopy.2.2.1
    obtain ⟨_, heq, -⟩ := run_of_done (requireSourceEof_calm _) ⟨hcopy.1, hnil, rfl⟩ h₄
    cases heq
  case vc5 e h hle _ r₁ h₁ _ hdigest _ r₂ h₂ _ _ r₃ h₃ _ =>
    obtain ⟨_, -, -, hcalm, hcontent⟩ := run_of_done hfirst ⟨h.1, h.2.1⟩ h₁
    obtain ⟨_, heq, -⟩ := rewound_calm blake3 offset (by omega) hcalm hcontent h₂ h₃
    cases heq
  case vc6 e h hle _ r₁ h₁ _ hdigest _ r₂ h₂ _ =>
    obtain ⟨_, -, -, hcalm, -⟩ := run_of_done hfirst ⟨h.1, h.2.1⟩ h₁
    obtain ⟨_, heq, -⟩ := run_of_done (seek_calm .start r₁) ⟨rfl, hcalm⟩ h₂
    cases heq
  case vc7 e h hle _ r₁ h₁ _ hdigest =>
    obtain ⟨_, heq, hd, -⟩ := run_of_done hfirst ⟨h.1, h.2.1⟩ h₁
    cases heq
    exact hdigest (hd.trans hhash)
  case vc8 e h hle _ r₁ h₁ _ =>
    obtain ⟨_, heq, -⟩ := run_of_done hfirst ⟨h.1, h.2.1⟩ h₁
    cases heq

theorem staging_calm {content : Bytes} (hlen : content.length = offset) {f f₁ f₂ f₃ : ScriptedFile}
    {m n : ℕ} {hasher : blake3.State} (hcalm : f.Calm) (hcontent : f.content = content)
    (h₁ : (step localIo (AsyncSeek.seek .ending)).run.run f = (.ok m, f₁))
    (h₂ : (step localIo (AsyncSeek.seek .start)).run.run f₁ = (.ok n, f₂))
    (h₃ : (ExceptT.run ((hashPrefix blake3 offset blake3.new).adapt stagingFailure)).run f₂ =
      (.ok hasher, f₃)) :
    f₃.Calm ∧ Sink.ready f₃ ∧ blake3.Fed hasher content := by
  obtain ⟨_, -, -, rfl, hcalm₁⟩ := run_of_done (seek_calm .ending f) ⟨rfl, hcalm⟩ h₁
  obtain ⟨_, heq, hcalm₃, hcontent₃, hpos, hfed⟩ :=
    rewound_calm blake3 offset hlen.ge hcalm₁ hcontent h₂ (adapt_ok h₃)
  cases heq
  rw [← hlen, List.take_length] at hfed
  refine ⟨hcalm₃, ?_, hfed⟩
  change f₃.pos = f₃.content.length
  rw [hpos, hcontent₃, hlen]

theorem readEnd_calm : ⦃fun f : ScriptedFile => ⌜f.Calm ∧ f.rest = []⌝⦄
    step streamIo (AsyncRead.read 1)
    ⦃post⟨fun bytes _ => ⌜bytes = []⌝, fun _ _ => ⌜False⌝⟩⦄ := by
  mvcgen [step]
  case vc1 f h bytes f' hr =>
    obtain ⟨-, hlen, -⟩ := h.1.of_read Nat.one_pos hr
    rw [h.2, List.length_nil] at hlen
    exact List.eq_nil_of_length_eq_zero (by omega)
  case vc2 f h _ f' hr => exact h.1.read_ne_error Nat.one_pos hr

theorem flush_calm : ⦃fun f : ScriptedFile => ⌜f.Calm⌝⦄ step localIo AsyncWrite.flush
    ⦃post⟨fun _ _ => ⌜True⌝, fun _ _ => ⌜False⌝⟩⦄ := by
  mvcgen [step]
  case vc1 f h _ f' hf =>
    obtain ⟨g, hg, -⟩ := h.flush
    rw [hf] at hg
    cases hg

theorem receivePayload_calm {content : Bytes} (hlen : content.length = metadata.byteLen)
    (hhash : blake3.hash content = metadata.blake3) (hle : offset ≤ metadata.byteLen) :
    ⦃fun e : Ends ScriptedFile ScriptedFile => ⌜e.reader.Calm ∧ e.reader.rest = content.drop offset ∧
      e.writer.Calm ∧ e.writer.content = content.take offset⌝⦄
    receivePayload blake3 metadata offset
    ⦃post⟨fun _ _ => ⌜True⌝, fun _ _ => ⌜False⌝⟩⦄ := by
  have htake : (content.take offset).length = offset := by rw [List.length_take]; omega
  have hdrop : (content.drop offset).length = metadata.byteLen - offset := by
    rw [List.length_drop, hlen]
  mvcgen [receivePayload, require, atReader, atWriter, copySuffix_done]
  case vc1 e h hle _ f₁ h₁ _ hn _ f₂ h₂ _ hasher f₃ h₃ _ _ =>
    exact (staging_calm blake3 offset htake h.2.2.1 h.2.2.2 h₁ h₂ h₃).2.1
  case vc2 e h hle _ f₁ h₁ _ hn _ f₂ h₂ _ hasher f₃ h₃ _ _ =>
    obtain ⟨hcalm, -⟩ := staging_calm blake3 offset htake h.2.2.1 h.2.2.2 h₁ h₂ h₃
    exact ⟨trivial, h.1, hcalm, (h.2.1 ▸ hdrop).ge⟩
  case vc3 e h hle _ f₁ h₁ _ hn _ f₂ h₂ _ hasher f₃ h₃ _ _ _ e' hcopy _ r' h₄ _ _ _ _ f₄ h₅ _ =>
    obtain ⟨_, heq, -⟩ := run_of_done flush_calm hcopy.2.1 h₅
    cases heq
  case vc4 e h hle _ f₁ h₁ _ hn _ f₂ h₂ _ hasher f₃ h₃ _ _ _ e' hcopy _ r' h₄ _ _ hfinal =>
    obtain ⟨-, -, hfed⟩ := staging_calm blake3 offset htake h.2.2.1 h.2.2.2 h₁ h₂ h₃
    exact hfinal ((finalize_of_copied blake3 offset h.2.1 hdrop (hcopy.2.2.2 _ hfed)).trans hhash)
  case vc5 e h hle _ f₁ h₁ _ hn _ f₂ h₂ _ hasher f₃ h₃ _ _ _ e' hcopy _ r' h₄ _ hne =>
    have hnil := eq_nil_of_copied (h.2.1 ▸ hdrop) hcopy.2.2.1
    obtain ⟨_, heq, hb⟩ := run_of_done readEnd_calm ⟨hcopy.1, hnil⟩ h₄
    cases heq
    exact hne hb
  case vc6 e h hle _ f₁ h₁ _ hn _ f₂ h₂ _ hasher f₃ h₃ _ _ _ e' hcopy _ r' h₄ _ =>
    have hnil := eq_nil_of_copied (h.2.1 ▸ hdrop) hcopy.2.2.1
    obtain ⟨_, heq, -⟩ := run_of_done readEnd_calm ⟨hcopy.1, hnil⟩ h₄
    cases heq
  case vc7 e h hle _ f₁ h₁ _ hn _ f₂ h₂ _ _ f₃ h₃ _ =>
    obtain ⟨_, -, -, rfl, hcalm⟩ := run_of_done (seek_calm .ending e.writer) ⟨rfl, h.2.2.1⟩ h₁
    obtain ⟨_, herr⟩ := adapt_error h₃
    obtain ⟨_, heq, -⟩ := rewound_calm blake3 offset htake.ge hcalm h.2.2.2 h₂ herr
    cases heq
  case vc8 e h hle _ f₁ h₁ _ hn _ f₂ h₂ _ =>
    obtain ⟨_, -, -, -, hcalm⟩ := run_of_done (seek_calm .ending e.writer) ⟨rfl, h.2.2.1⟩ h₁
    obtain ⟨_, heq, -⟩ := run_of_done (seek_calm .start f₁) ⟨rfl, hcalm⟩ h₂
    cases heq
  case vc9 e h hle _ f₁ h₁ _ hn =>
    obtain ⟨_, heq, hm, -⟩ := run_of_done (seek_calm .ending e.writer) ⟨rfl, h.2.2.1⟩ h₁
    cases heq
    exact hn (hm.trans ((congrArg List.length h.2.2.2).trans htake))
  case vc10 e h hle _ f₁ h₁ _ =>
    obtain ⟨_, heq, -⟩ := run_of_done (seek_calm .ending e.writer) ⟨rfl, h.2.2.1⟩ h₁
    cases heq

end Calm

/-! ### The promised file -/

section Promised

variable {R W : Type} [AsyncRead R] [AsyncSeek R] [Sink W]

/-- **A sent payload is the promised file even if the source changes.** Whatever the source delivers
on each pass and whatever the stream takes at a time: if the sender succeeds, the stream has taken the
bytes behind the offset of the one byte string with the promised length and digest; if the first pass
does not match, it has taken nothing; and it never takes more than is missing. -/
theorem sent_payload_is_promised_file (e₀ : Ends R W) (hready : Sink.ready e₀.writer)
    (collisionFree : ∀ x y : Bytes, x.length = metadata.byteLen → y.length = metadata.byteLen →
      blake3.hash x = metadata.blake3 → blake3.hash y = metadata.blake3 → x = y)
    {result : Except TransferIoError Unit} {e : Ends R W}
    (hrun : (sendPayload blake3 metadata offset).run.run e₀ = (result, e)) :
    (result = .ok () → ∃ file : Bytes, file.length = metadata.byteLen ∧
      blake3.hash file = metadata.blake3 ∧
      (∀ other : Bytes, other.length = metadata.byteLen → blake3.hash other = metadata.blake3 →
        other = file) ∧
      Sink.taken e.writer = Sink.taken e₀.writer ++ file.drop offset) ∧
    (((hashSource blake3 metadata.byteLen).run.run e₀.reader).1 ≠ .ok metadata.blake3 →
      Sink.taken e.writer = Sink.taken e₀.writer) ∧
    ∃ y : Bytes, Sink.taken e.writer = Sink.taken e₀.writer ++ y ∧
      y.length ≤ metadata.byteLen - offset := by
  have hspec := sendPayload_spec blake3 metadata offset (P := fun _ : R => True)
    (fun _ _ _ => trivial) (fun _ _ => trivial) e₀ trivial hready
  rcases cases_of_triple hspec rfl with ⟨_, hok, hle, p, x, hpass, hx, hhash, ht, hfirst⟩ | ⟨_, herr, h⟩
  · rw [hrun] at hok ht
    obtain ⟨r, n, r', -, -, hp, -⟩ := hpass
    have hlen : (p ++ x).length = metadata.byteLen := by rw [List.length_append]; omega
    refine ⟨fun _ => ⟨p ++ x, hlen, hhash, fun other hl hh => ?_, ?_⟩, fun hno => absurd hfirst hno,
      x, ht, hx.le⟩
    · exact collisionFree _ _ hl hlen hh hhash
    · rw [← hp, List.drop_left]
      exact ht
  · rw [hrun] at herr h
    refine ⟨fun hok => ?_, fun hno => ?_, ?_⟩
    · rw [hok] at herr
      cases herr
    · rcases h with h | ⟨_, _, _, _, _, _, _, hfirst⟩
      · exact h
      · exact absurd hfirst hno
    · rcases h with h | ⟨p, x, y, -, hx, hy, ht, -⟩
      · exact ⟨[], by rw [h, List.append_nil], by simp⟩
      · exact ⟨y, ht, hy.length_le.trans hx⟩

/-- A digest that has no collisions among the files of one byte. -/
def firstByte : Hasher (FixedBytes 32) := .ofHash fun b => .replicate 32 (b.headD 0)

theorem firstByte_inj {x y : Bytes} (hx : x.length = 1) (hy : y.length = 1)
    (h : firstByte.hash x = firstByte.hash y) : x = y := by
  obtain ⟨a, rfl⟩ := List.length_eq_one_iff.mp hx
  obtain ⟨b, rfl⟩ := List.length_eq_one_iff.mp hy
  have hrep : List.replicate 32 a = List.replicate 32 b := FixedBytes.toList_inj.mpr h
  rw [(List.replicate_right_inj (by decide)).mp hrep]

theorem checkFileName_a : checkFileName "a".toList = .ok () := by decide

theorem one_le_maxTransferBytes : 1 ≤ maxTransferBytes := by decide

/-- The metadata of the file that is one byte 7. -/
def oneByte : TransferMetadata where
  fileName := ⟨"a", checkFileName_a⟩
  byteLen := 1
  blake3 := .replicate 32 7
  byteLen_le := one_le_maxTransferBytes

/-- That file is sent. -/
theorem sent_one_byte :
    ((sendPayload firstByte oneByte 0).run.run
      (⟨.ofContent [7] [], .ofContent [] [], .new 0 0⟩ : Ends ScriptedFile ScriptedFile)).1 = .ok () ∧
    ((sendPayload firstByte oneByte 0).run.run
      (⟨.ofContent [7] [], .ofContent [] [], .new 0 0⟩ : Ends ScriptedFile ScriptedFile)).2.writer.content =
        [7] := by
  have hcalm (content : Bytes) : (ScriptedFile.ofContent content []).Calm :=
    fun _ hs => absurd hs List.not_mem_nil
  obtain ⟨_, hok, -⟩ := run_of_done
    (sendPayload_calm firstByte oneByte 0 (rfl : ([7] : Bytes).length = 1) rfl (Nat.zero_le _))
    (s := ⟨.ofContent [7] [], .ofContent [] [], .new 0 0⟩) ⟨hcalm _, rfl, hcalm _, rfl⟩ rfl
  obtain ⟨hsent, -⟩ := sent_payload_is_promised_file firstByte oneByte 0
    (⟨.ofContent [7] [], .ofContent [] [], .new 0 0⟩ : Ends ScriptedFile ScriptedFile) rfl
    (fun x y hx hy hxh hyh => firstByte_inj hx hy (hxh.trans hyh.symm)) rfl
  obtain ⟨file, -, -, hunique, ht⟩ := hsent hok
  rw [← hunique [7] rfl rfl] at ht
  exact ⟨hok, ht⟩

end Promised

/-! ### Arbitrary senders -/

section Arbitrary

variable {R : Type} [Tape R]

theorem receivePayload_refuses (e₀ : Ends R ScriptedFile)
    (h : metadata.byteLen < offset ∨ e₀.writer.content.length ≠ offset) :
    ⦃fun e => ⌜e = e₀⌝⦄ receivePayload blake3 metadata offset
    ⦃post⟨fun _ _ => ⌜False⌝,
      fun _ e => ⌜e.reader = e₀.reader ∧ e.writer.content = e₀.writer.content⌝⟩⦄ := by
  have hno {e : Ends R ScriptedFile} {n : ℕ} {f₁ : ScriptedFile} (heq : e = e₀)
      (hle : offset ≤ metadata.byteLen)
      (h₁ : (step localIo (AsyncSeek.seek .ending)).run.run e.writer = (.ok n, f₁)) : n ≠ offset := by
    subst heq
    obtain ⟨hlen, -⟩ := ScriptedFile.eq_of_seek (step_ok h₁)
    rw [hlen]
    rcases h with h | h
    · omega
    · exact h
  mvcgen [receivePayload, require, atReader, atWriter, copySuffix_spec]
  case vc10 e heq hle _ f₁ h₁ _ _ | vc11 e heq hle _ f₁ h₁ _ =>
    subst heq
    exact ⟨rfl, content_of_seek h₁⟩
  case vc12 e heq _ =>
    subst heq
    exact ⟨rfl, rfl⟩
  -- Everywhere else the offset was the length of the staging file.
  all_goals
    exact (hno (by assumption) (by assumption) (by assumption) (by assumption)).elim

theorem Appended.prefix_of_ahead {missing : ℕ} {e₀ : Ends R ScriptedFile} {content : Bytes}
    (h : Appended missing e₀ content) :
    ∃ y, y <+: Tape.ahead e₀.reader ∧ y.length ≤ missing ∧ content = e₀.writer.content ++ y := by
  obtain ⟨x, y, r, hx, hd, hy, rfl⟩ := h
  refine ⟨y, hy.trans ⟨_, (Tape.ahead_delivers hd).symm⟩, hy.length_le.trans hx, rfl⟩

/-- **Receiving from an arbitrary sender.** Whatever the stream holds, in whatever pieces it arrives
and wherever either end fails: the receiver succeeds only if the staging file ended at the offset, the
stream held exactly what was missing and then ended, and the staging file is now the old one followed
by it, with the promised length and digest; otherwise it was extended by a beginning of the stream's
bytes, not beyond the promised length; and at a wrong offset nothing is read and nothing is written. -/
theorem received_payload_is_verified (e₀ : Ends R ScriptedFile) :
    let run := (receivePayload blake3 metadata offset).run.run e₀
    let staged := run.2.writer.content
    (run.1 = .ok () →
      offset ≤ metadata.byteLen ∧ e₀.writer.content.length = offset ∧
      (Tape.ahead e₀.reader).length = metadata.byteLen - offset ∧
      (∃ r, Delivers e₀.reader (Tape.ahead e₀.reader) r ∧ (AsyncRead.read 1 r).1 = .ok []) ∧
      staged = e₀.writer.content ++ Tape.ahead e₀.reader ∧
      staged.length = metadata.byteLen ∧ blake3.hash staged = metadata.blake3) ∧
    (run.1 ≠ .ok () →
      ∃ y, y <+: Tape.ahead e₀.reader ∧ staged = e₀.writer.content ++ y ∧
        staged.length ≤ max e₀.writer.content.length metadata.byteLen) ∧
    (metadata.byteLen < offset ∨ e₀.writer.content.length ≠ offset →
      run.1 ≠ .ok () ∧ run.2.reader = e₀.reader ∧ staged = e₀.writer.content) := by
  intro run staged
  have hrefuse (h : metadata.byteLen < offset ∨ e₀.writer.content.length ≠ offset) :
      run.1 ≠ .ok () ∧ run.2.reader = e₀.reader ∧ staged = e₀.writer.content := by
    rcases cases_of_triple (receivePayload_refuses blake3 metadata offset e₀ h) rfl with
      ⟨_, -, hfalse⟩ | ⟨err, herr, hkeep⟩
    · exact hfalse.elim
    · refine ⟨fun hok => ?_, hkeep⟩
      cases hok.symm.trans herr
  refine ⟨fun hok => ?_, fun hfail => ?_, hrefuse⟩
  · rcases cases_of_triple (receivePayload_spec blake3 metadata offset e₀) rfl with
      ⟨_, -, hle, hlen, x, r, hx, hd, hend, hcontent, hhash⟩ | ⟨err, herr, -⟩
    · have hahead : Tape.ahead e₀.reader = x := by
        rw [Tape.ahead_delivers hd, Tape.ahead_end Nat.one_pos hend, List.append_nil]
      have hstaged : staged = e₀.writer.content ++ x := hcontent
      rw [hahead, hstaged]
      refine ⟨hle, hlen, hx, ⟨r, hd, hend⟩, rfl, ?_, hhash⟩
      rw [List.length_append]
      omega
    · cases hok.symm.trans herr
  · by_cases hgood : metadata.byteLen < offset ∨ e₀.writer.content.length ≠ offset
    · obtain ⟨-, -, hkeep⟩ := hrefuse hgood
      exact ⟨[], List.nil_prefix, by rw [hkeep, List.append_nil], by rw [hkeep]; exact le_max_left _ _⟩
    · rcases cases_of_triple (receivePayload_spec blake3 metadata offset e₀) rfl with
        ⟨_, hok, -⟩ | ⟨err, -, happended⟩
      · exact absurd hok hfail
      · obtain ⟨y, hy, hlen, hcontent⟩ := happended.prefix_of_ahead
        have hstaged : staged = e₀.writer.content ++ y := hcontent
        refine ⟨y, hy, hstaged, ?_⟩
        rw [hstaged, List.length_append]
        omega

end Arbitrary

end Rift.Transfer
