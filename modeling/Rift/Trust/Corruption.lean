import Rift.Trust.Recovery

/-! # One changed byte of a journal

A byte of a complete journal is changed. In a payload or a checksum the checksum tells, if BLAKE3
does not collide there; a shorter or longer declared length cuts the payload where the mutation does
not end. But a length prefix changed so that the record reaches behind the end of the file is taken
for an interrupted append: replay stops there and opening cuts the record and everything behind it
off (`ReadsAsTorn`).

The main results are `replayRecord_changed`, `replay_changed` and `open_changed_byte_iff`. -/

namespace Rift.Trust

open Rift.Lib Rift.Lib.Postcard Rift.Core Std

/-- Changing one byte of the payload changes its digest. -/
def NoCollision (blake3 : Blake3) (payload : Bytes) : Prop :=
  ∀ k w, payload.set k w ≠ payload → blake3 (payload.set k w) ≠ blake3 payload

/-- Byte `i` of `b` lies in the length prefix at `start`, and the length there passes its bound but
reaches behind the end of `b`. -/
def ReadsAsTorn (b : Bytes) (start i : ℕ) : Prop :=
  start ≤ i ∧ i < start + lengthPrefixLen ∧
    ofBE ((b.drop start).take lengthPrefixLen) ≤ maxRecordLen ∧
    b.length < start + (lengthPrefixLen + ofBE ((b.drop start).take lengthPrefixLen) + checksumLen)

section

variable (blake3 : Blake3)

/-! ### One turn of the loop -/

theorem readRecord_of_length_ne (st : ReplayResult) (e : Entry) (more : Bytes) {n : ℕ}
    (hn : n ≤ (e.payload ++ more).length) (hne : n ≠ e.payload.length) (sum : Bytes)
    (m : TrustMutation) : readRecord blake3 st ((e.payload ++ more).take n) sum ≠ .ok m := by
  intro h
  obtain ⟨-, hd, -, -⟩ := (readRecord_ok_iff blake3).mp h
  rcases Nat.lt_or_gt_of_ne hne with hlt | hgt
  · rw [List.take_append_of_le_length hlt.le] at hd
    have hx := takeMutation_extends hd (e.payload.drop n)
    rw [List.take_append_drop, e.decodes] at hx
    simp only [Option.some.injEq, Prod.mk.injEq, List.nil_append] at hx
    have := congrArg List.length hx.2
    rw [List.length_drop, List.length_nil] at this
    omega
  · have hx := takeMutation_extends e.decodes (more.take (n - e.payload.length))
    rw [List.take_append, List.take_of_length_le hgt.le] at hd
    rw [hx] at hd
    simp only [Option.some.injEq, Prod.mk.injEq, List.nil_append] at hd
    have := congrArg List.length hd.2
    rw [List.length_take, List.length_nil] at this
    rw [List.length_append] at hn
    omega

theorem replayRecord_changed_prefix (st : ReplayResult) (hc : st.recordCount < maxRecords)
    (e : Entry) {q : Bytes} (hq : q.length = lengthPrefixLen)
    (hne : q ≠ toBE lengthPrefixLen e.payload.length) (more : Bytes) :
    let b := q ++ (e.payload ++ more)
    let torn := ofBE q ≤ maxRecordLen ∧ b.length < lengthPrefixLen + ofBE q + checksumLen
    (torn ∧ replayRecord blake3 st b = .ok none) ∨
      (¬ torn ∧ ∃ err, replayRecord blake3 st b = .error err) := by
  intro b torn
  have hdecl : ofBE q ≠ e.payload.length := by
    intro h
    refine hne (ofBE_injective (by rw [hq, length_toBE]) ?_)
    rw [h, ofBE_lengthPrefix e.fits]
  have hlen : b.length = lengthPrefixLen + (e.payload ++ more).length := by
    rw [List.length_append, hq]
  have htake : b.take lengthPrefixLen = q := List.take_left' hq
  have hdrop : b.drop lengthPrefixLen = e.payload ++ more := List.drop_left' hq
  by_cases hmax : maxRecordLen < ofBE q
  · refine Or.inr ⟨fun h => Nat.not_lt.mpr h.1 hmax, ?_⟩
    unfold replayRecord
    simp only [htake]
    rw [if_neg (by omega), if_pos hmax]
    exact ⟨_, rfl⟩
  by_cases hfit : b.length < lengthPrefixLen + ofBE q + checksumLen
  · refine Or.inl ⟨⟨Nat.not_lt.mp hmax, hfit⟩, ?_⟩
    unfold replayRecord
    simp only [htake]
    rw [if_neg (by omega), if_neg hmax, if_pos hfit]
  · refine Or.inr ⟨fun h => hfit h.2, ?_⟩
    unfold replayRecord
    simp only [htake, hdrop]
    rw [if_neg (by omega), if_neg hmax, if_neg hfit, if_neg (by omega)]
    have hle : ofBE q ≤ (e.payload ++ more).length := by omega
    cases hr : readRecord blake3 st ((e.payload ++ more).take (ofBE q))
        ((b.drop (lengthPrefixLen + ofBE q)).take checksumLen) with
    | error err => exact ⟨err, rfl⟩
    | ok m => exact absurd hr (readRecord_of_length_ne blake3 st e more hle hdecl _ m)

/-- **A changed record**: replay reports an error, unless the length prefix was changed so that the
record seems to be unfinished. -/
theorem replayRecord_changed (st : ReplayResult) (hc : st.recordCount < maxRecords) (e : Entry)
    (hcol : NoCollision blake3 e.payload) {j : ℕ} {v : UInt8}
    (hv : (recordBytes blake3 e.payload).set j v ≠ recordBytes blake3 e.payload) (rest : Bytes) :
    let b := (recordBytes blake3 e.payload).set j v ++ rest
    (ReadsAsTorn b 0 j ∧ replayRecord blake3 st b = .ok none) ∨
      (¬ ReadsAsTorn b 0 j ∧ ∃ err, replayRecord blake3 st b = .error err) := by
  intro b
  have hbad : ∀ {p sum : Bytes}, p.length = e.payload.length → sum.length = checksumLen →
      sum ≠ (blake3 p).toList → ∃ err, replayRecord blake3 st
        (toBE lengthPrefixLen e.payload.length ++ (p ++ (sum ++ rest))) = .error err := by
    intro p sum hp hs hne
    have hfits : p.length ≤ maxRecordLen := hp ▸ e.fits
    rw [replayRecord_complete blake3 st (length_toBE _ _)
      (by rw [← hp]; exact ofBE_lengthPrefix hfits) hfits hs hc]
    cases hr : readRecord blake3 st p sum with
    | error err => exact ⟨err, rfl⟩
    | ok m => exact absurd ((readRecord_ok_iff blake3).mp hr).1 hne
  rcases set_append_cases (toBE lengthPrefixLen e.payload.length)
    (e.payload ++ (blake3 e.payload).toList) j v with ⟨hj, hset⟩ | ⟨hj, hset⟩
  · -- in the length prefix
    rw [length_toBE] at hj
    have hb : b = (toBE lengthPrefixLen e.payload.length).set j v ++
        (e.payload ++ ((blake3 e.payload).toList ++ rest)) := by
      change (recordBytes blake3 e.payload).set j v ++ rest = _
      rw [recordBytes, hset, List.append_assoc, List.append_assoc]
    have hq : ((toBE lengthPrefixLen e.payload.length).set j v).length = lengthPrefixLen := by simp
    have hne : (toBE lengthPrefixLen e.payload.length).set j v ≠
        toBE lengthPrefixLen e.payload.length := by
      intro h
      apply hv
      rw [recordBytes, hset, h]
    have htorn : ReadsAsTorn b 0 j ↔
        ofBE ((toBE lengthPrefixLen e.payload.length).set j v) ≤ maxRecordLen ∧
          b.length < lengthPrefixLen + ofBE ((toBE lengthPrefixLen e.payload.length).set j v) +
            checksumLen := by
      unfold ReadsAsTorn
      rw [List.drop_zero, hb, List.take_left' hq, Nat.zero_add, Nat.zero_add]
      exact ⟨fun h => h.2.2, fun h => ⟨Nat.zero_le _, hj, h⟩⟩
    have h := replayRecord_changed_prefix blake3 st hc e hq hne ((blake3 e.payload).toList ++ rest)
    rw [← hb] at h
    rw [htorn]
    exact h
  · -- behind it, where a checksum does not match
    rw [length_toBE] at hj
    refine Or.inr ⟨fun h => ?_, ?_⟩
    · have := h.2.1
      omega
    have hb : b = toBE lengthPrefixLen e.payload.length ++
        ((e.payload ++ (blake3 e.payload).toList).set (j - lengthPrefixLen) v ++ rest) := by
      change (recordBytes blake3 e.payload).set j v ++ rest = _
      rw [recordBytes, hset, length_toBE, List.append_assoc]
    rcases set_append_cases e.payload (blake3 e.payload).toList (j - lengthPrefixLen) v with
      ⟨-, hset'⟩ | ⟨-, hset'⟩
    · rw [hb, hset', List.append_assoc]
      refine hbad (by simp) (FixedBytes.length_toList _) fun h => ?_
      refine hcol (j - lengthPrefixLen) v ?_ (FixedBytes.toList_inj.mp h.symm)
      intro hsame
      apply hv
      rw [recordBytes, hset, length_toBE, hset', hsame]
    · rw [hb, hset', List.append_assoc]
      refine hbad rfl (by simp) fun h => hv ?_
      rw [recordBytes, hset, length_toBE, hset', h]

/-! ### Whole journals -/

theorem readsAsTorn_append (a b : Bytes) (j : ℕ) :
    ReadsAsTorn (a ++ b) a.length (a.length + j) ↔ ReadsAsTorn b 0 j := by
  unfold ReadsAsTorn
  rw [List.drop_left' rfl, List.drop_zero, List.length_append]
  constructor
  · rintro ⟨-, h₁, h₂, h₃⟩
    exact ⟨Nat.zero_le _, by omega, h₂, by omega⟩
  · rintro ⟨-, h₁, h₂, h₃⟩
    exact ⟨by omega, by omega, h₂, by omega⟩

theorem length_journal_take_le (es : List Entry) {j k : ℕ} (h : j ≤ k) :
    (journal blake3 (es.take j)).length ≤ (journal blake3 (es.take k)).length := by
  have hsplit : es.take k = es.take j ++ (es.take k).drop j := by
    have := List.take_append_drop j (es.take k)
    rw [List.take_take, Nat.min_eq_left h] at this
    exact this.symm
  rw [hsplit, journal_append, List.length_append]
  exact Nat.le_add_right _ _

theorem eq_of_mem_lengthPrefix {pre post : List Entry} {e : Entry} {i j k : ℕ}
    (hk : k < (pre ++ e :: post).length)
    (hj : j < (recordBytes blake3 e.payload).length) (hi : i = (journal blake3 pre).length + j)
    (h₁ : (journal blake3 ((pre ++ e :: post).take k)).length ≤ i)
    (h₂ : i < (journal blake3 ((pre ++ e :: post).take k)).length + lengthPrefixLen) :
    k = pre.length := by
  have hpre : (pre ++ e :: post).take pre.length = pre := List.take_left' rfl
  rcases Nat.lt_trichotomy k pre.length with hlt | heq | hgt
  · obtain ⟨e', he'⟩ : ∃ e', (pre ++ e :: post).take (k + 1) = (pre ++ e :: post).take k ++ [e'] :=
      ⟨(pre ++ e :: post)[k], List.take_succ_eq_append_getElem hk⟩
    have hmono := length_journal_take_le blake3 (pre ++ e :: post) (Nat.succ_le_of_lt hlt)
    rw [Nat.succ_eq_add_one, he', hpre, journal_concat, List.length_append,
      length_recordBytes] at hmono
    unfold checksumLen at hmono
    omega
  · exact heq
  · have hmono := length_journal_take_le blake3 (pre ++ e :: post) (Nat.succ_le_of_lt hgt)
    have hsucc : (pre ++ e :: post).take (pre.length + 1) = pre ++ [e] := by
      rw [List.take_append]
      simp
    rw [Nat.succ_eq_add_one, hsucc, journal_concat, List.length_append] at hmono
    omega

/-- **A journal with one changed byte** fails to replay, unless the byte is in a length prefix that
now makes its record seem unfinished; then replay gives the state before that record. -/
theorem replay_changed {es : List Entry} (h : LegalJournal blake3 es)
    (hcol : ∀ e ∈ es, NoCollision blake3 e.payload) {i : ℕ} {v : UInt8} (hi : headerLen ≤ i)
    (hi' : i < (journal blake3 es).length) (hv : (journal blake3 es).set i v ≠ journal blake3 es) :
    let changed := (journal blake3 es).set i v
    ∃ j < es.length, (∀ k < es.length,
        ReadsAsTorn changed (journal blake3 (es.take k)).length i → k = j) ∧
      ((ReadsAsTorn changed (journal blake3 (es.take j)).length i ∧
          replay blake3 changed = .ok (replayed blake3 (es.take j))) ∨
        (¬ ReadsAsTorn changed (journal blake3 (es.take j)).length i ∧
          ∃ err, replay blake3 changed = .error err)) := by
  intro changed
  have hhead : header.length ≤ i := length_header ▸ hi
  have hlt : i - header.length < ((journalLog blake3).bytes es).length := by
    rw [journal, List.length_append] at hi'
    omega
  obtain ⟨pre, e, post, j, rfl, hj, hij, hset⟩ := (journalLog blake3).set_bytes v es hlt
  have hsplit : changed = journal blake3 pre ++
      ((recordBytes blake3 e.payload).set j v ++ (journalLog blake3).bytes post) := by
    change (header ++ _).set i v = _
    rw [List.set_append_right _ _ hhead, hset, journal, List.append_assoc]
    rfl
  have hpos : i = (journal blake3 pre).length + j := by
    rw [journal, List.length_append]
    omega
  have hrec : (recordBytes blake3 e.payload).set j v ≠ recordBytes blake3 e.payload := by
    intro hsame
    apply hv
    change changed = _
    rw [hsplit, hsame, journal_append]
    rfl
  have hlegal := (RecordLog.Log.legal_append _).mp h
  have hcount : (replayed blake3 pre).recordCount < maxRecords := hlegal.2.1.1
  have htake : (pre ++ e :: post).take pre.length = pre := List.take_left' rfl
  have hone := replayRecord_changed blake3 (replayed blake3 pre) hcount e
    (hcol e (by simp)) hrec ((journalLog blake3).bytes post)
  have htorn := readsAsTorn_append (journal blake3 pre)
    ((recordBytes blake3 e.payload).set j v ++ (journalLog blake3).bytes post) j
  rw [← hsplit, ← hpos] at htorn
  refine ⟨pre.length, by simp, ?_, ?_⟩
  · intro k hk ht
    exact eq_of_mem_lengthPrefix blake3 hk hj hpos ht.1 ht.2.1
  · rw [htake, htorn, hsplit, replay_journal_append blake3 hlegal.1]
    rcases hone with ⟨h₁, h₂⟩ | ⟨h₁, err, h₂⟩
    · refine Or.inl ⟨h₁, ?_⟩
      rw [RecordLog.scanAll_stop _ h₂]
      rfl
    · refine Or.inr ⟨h₁, err, ?_⟩
      have hne : (recordBytes blake3 e.payload).set j v ++ (journalLog blake3).bytes post ≠ [] := by
        intro hnil
        have := congrArg List.length hnil
        rw [List.length_append, List.length_set, length_recordBytes] at this
        unfold lengthPrefixLen at this
        simp at this
      rw [RecordLog.scanAll_error _ hne h₂]
      rfl

end

/-- **When one changed byte cannot go unnoticed.** Let any commits succeed on a new store, and change
one byte of its file behind the header, where BLAKE3 does not collide. Opening the changed file fails
or gives the decisions of the store, if and only if no length prefix was changed so that its record
seems to be unfinished, or the commits from that record on made no difference. -/
theorem open_changed_byte_iff (blake3 : Blake3)
    (calls : List (Call × IoOutcome)) (hok : AllOk blake3 createdStore calls)
    (hcol : ∀ c ∈ calls, NoCollision blake3 (encodeMutation c.1.mutation))
    (s : StoreInner) (hs : s = runCalls blake3 createdStore calls) (i : ℕ) (v : UInt8)
    (hi : headerLen ≤ i) (hi' : i < s.file.bytes.length) (hv : s.file.bytes[i]? ≠ some v) :
    (∀ (fails : OpenStep → Bool) (s' : StoreInner),
        openStore blake3 fails (some (s.file.bytes.set i v)) = .ok s' →
          s'.decisions = s.decisions) ↔
      ∀ j < calls.length,
        ReadsAsTorn (s.file.bytes.set i v)
          (runCalls blake3 createdStore (calls.take j)).fileLen i →
        (runCalls blake3 createdStore (calls.take j)).decisions = s.decisions := by
  obtain ⟨es, hlen, hpay, hall, htake⟩ := hok.journal
  have href : ∀ k, Refines blake3 (runCalls blake3 createdStore (calls.take k)) (es.take k) :=
    fun k => (htake k).2
  rw [← hs] at hall
  have hcol' : ∀ e ∈ es, NoCollision blake3 e.payload := by
    intro e he
    have hmem : e.payload ∈ calls.map (fun c => encodeMutation c.1.mutation) := by
      rw [← hpay]; exact List.mem_map_of_mem he
    obtain ⟨c, hc, hce⟩ := List.mem_map.mp hmem
    exact hce ▸ hcol c hc
  have hv' : (journal blake3 es).set i v ≠ journal blake3 es := by
    rw [← hall.bytes]
    intro hsame
    apply hv
    rw [← hsame, List.getElem?_set_self hi']
  rw [hall.bytes] at hi' ⊢
  obtain ⟨j, hj, huniq, hcases⟩ := replay_changed blake3 hall.legal hcol' hi hi' hv'
  have hsmall : ((journal blake3 es).set i v).length ≤ maxStoreSize := by
    rw [List.length_set]; exact hall.small
  rcases hcases with ⟨htorn, hreplay⟩ | ⟨hno, err, herr⟩
  · -- the record seems to be unfinished, and opening gives the store before it
    rw [← hlen]
    constructor
    · intro hsame k hk hkt
      obtain rfl := huniq k hk ((href k).fileLen ▸ hkt)
      rw [← hsame _ _ (openStore_of_replay hsmall hreplay), (href k).decisions]
      rfl
    · intro hsame fails s' hs'
      obtain ⟨-, r, hr, rfl⟩ := openStore_some_ok hs'
      rw [hreplay] at hr
      cases hr
      rw [← hsame j hj ((href j).fileLen.symm ▸ htorn), (href j).decisions]
      rfl
  · rw [← hlen]
    constructor
    · intro _ k hk hkt
      obtain rfl := huniq k hk ((href k).fileLen ▸ hkt)
      exact absurd ((href k).fileLen ▸ hkt) hno
    · intro _ fails s' hs'
      obtain ⟨-, r, hr, -⟩ := openStore_some_ok hs'
      rw [herr] at hr
      cases hr

/-- **A dropped revocation.** A peer was trusted and then revoked. The last byte of the revocation's
length prefix is changed from 33 to 34: the file opens, and the peer is trusted again. -/
theorem changed_length_prefix_drops_revocation :
    let s := runCalls sampleBlake3 createdStore
      [(.trust samplePeer, .ok), (.revoke samplePeer.deviceId, .ok)]
    s.state samplePeer.deviceId = some .revoked ∧ s.file.bytes[91]? = some 33 ∧
      (openStore sampleBlake3 (fun _ => false) (some (s.file.bytes.set 91 34))).map
        (fun s' => s'.state samplePeer.deviceId) = .ok (some .trusted) := by
  decide +kernel

theorem sampleBlake3_noCollision {m : TrustMutation}
    (hm : m = .trust samplePeer ∨ m = .revoke samplePeer.deviceId) :
    NoCollision sampleBlake3 (encodeMutation m) := by
  intro k w hp h
  generalize (encodeMutation m).set k w = p at h hp
  rcases hm with rfl | rfl
  · rw [sampleBlake3, if_neg hp] at h
    split_ifs at h <;> exact absurd h (by decide)
  · rw [sampleBlake3, if_neg hp] at h
    split_ifs at h <;> exact absurd h (by decide)

/-- A changed byte of the revoked identity does not go unnoticed. -/
theorem open_changed_identity_byte :
    let calls : List (Call × IoOutcome) :=
      [(.trust samplePeer, .ok), (.revoke samplePeer.deviceId, .ok)]
    let s := runCalls sampleBlake3 createdStore calls
    s.file.bytes[100]? = some 2 ∧ ∀ (fails : OpenStep → Bool) (s' : StoreInner),
      openStore sampleBlake3 fails (some (s.file.bytes.set 100 3)) = .ok s' →
        s'.decisions = s.decisions := by
  intro calls s
  have hok : AllOk sampleBlake3 createdStore calls := ⟨by decide, by decide, trivial⟩
  have hcol : ∀ c ∈ calls, NoCollision sampleBlake3 (encodeMutation c.1.mutation) := by
    intro c hc
    refine sampleBlake3_noCollision ?_
    simp only [calls, List.mem_cons, List.not_mem_nil, or_false] at hc
    rcases hc with rfl | rfl
    · exact Or.inl rfl
    · exact Or.inr rfl
  have h₁ : headerLen ≤ 100 := by decide
  have h₂ : 100 < s.file.bytes.length := by decide +kernel
  have h₃ : s.file.bytes[100]? = some 2 := by decide +kernel
  refine ⟨h₃, (open_changed_byte_iff sampleBlake3 calls hok hcol s rfl 100 3 h₁ h₂
    (by rw [h₃]; decide)).mpr ?_⟩
  have hstart : ∀ j < calls.length,
      ¬ ((runCalls sampleBlake3 createdStore (calls.take j)).fileLen ≤ 100 ∧
        100 < (runCalls sampleBlake3 createdStore (calls.take j)).fileLen + lengthPrefixLen) := by
    decide +kernel
  exact fun j hj ht => absurd ⟨ht.1, ht.2.1⟩ (hstart j hj)

end Rift.Trust
