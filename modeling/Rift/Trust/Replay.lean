import Rift.Trust.Journal

/-! # What replay reads

An `Entry` is a payload that replay accepts as a mutation: the fields of the structure say so. The
journal of a list of entries is the header and their records; `journalLog` is the kind of log they
make. Replay reads exactly such journals, and takes a part of a record behind them for an
interrupted append:

* `replay_journal`: the result of replaying a journal;
* `replay_ok`: whatever replays successfully is a journal and an unfinished record;
* `replay_torn`: an unfinished record behind a journal changes nothing. -/

namespace Rift.Trust

open Rift.Lib Rift.Lib.Postcard Rift.Core

/-! ### The encoding of a mutation -/

theorem takeDeviceId_extends : Extends takeDeviceId :=
  (takeFixed_extends _).bind fun _ => Extends.pure _

theorem takeDeviceId_toList (d : DeviceId) : RoundTrip takeDeviceId d.bytes.toList d :=
  (takeFixed_append d.bytes).map DeviceId.mk

theorem takePeer_extends : Extends takePeer :=
  takeDeviceId_extends.bind fun _ => takeStr_extends.bind fun _ => takeStr_extends.bind fun _ =>
    Extends.pure _

theorem takeMutation_extends : Extends takeMutation := by
  refine takeU32_extends.bind fun variant => ?_
  split
  · exact takePeer_extends.bind fun _ => Extends.pure _
  · exact takeDeviceId_extends.bind fun _ => Extends.pure _
  · exact takeDeviceId_extends.bind fun _ => Extends.pure _
  · exact Extends.failure

theorem validatePeer_ok_iff {peer : TrustedPeer} : validatePeer peer = .ok () ↔
    peer.deviceName.utf8ByteSize ≤ maxDeviceNameLen ∧
      peer.platform.utf8ByteSize ≤ maxPlatformLen := by
  unfold validatePeer
  split_ifs <;> simp <;> omega

theorem takePeer_encode {peer : TrustedPeer} (h : validatePeer peer = .ok ()) :
    RoundTrip takePeer (encodePeer peer) peer := by
  obtain ⟨hn, hp⟩ := validatePeer_ok_iff.mp h
  unfold maxDeviceNameLen at hn
  unfold maxPlatformLen at hp
  exact (takeDeviceId_toList peer.deviceId).bind
    ((takeStr_str (by omega)).bind ((takeStr_str (by omega)).map _))

theorem takeMutation_encode {m : TrustMutation} (h : validateMutation m = .ok ()) :
    RoundTrip takeMutation (encodeMutation m) m := by
  cases m with
  | trust peer => exact (takeU32_u32 (by norm_num)).bind ((takePeer_encode h).map _)
  | revoke d => exact (takeU32_u32 (by norm_num)).bind ((takeDeviceId_toList d).map _)
  | forget d => exact (takeU32_u32 (by norm_num)).bind ((takeDeviceId_toList d).map _)

theorem length_encodeMutation_le {m : TrustMutation} (h : validateMutation m = .ok ()) :
    (encodeMutation m).length ≤ maxRecordLen := by
  have hv : ∀ n, (u32 n).length ≤ 5 := length_varint_le 5
  unfold maxRecordLen
  cases m with
  | trust peer =>
    obtain ⟨hn, hp⟩ := validatePeer_ok_iff.mp h
    have := hv 0
    have := length_str_le peer.deviceName
    have := length_str_le peer.platform
    unfold maxDeviceNameLen at hn
    unfold maxPlatformLen at hp
    simp only [encodeMutation, encodePeer, List.length_append, FixedBytes.length_toList,
      deviceIdLen]
    omega
  | revoke d =>
    have := hv 1
    simp only [encodeMutation, List.length_append, FixedBytes.length_toList, deviceIdLen]
    omega
  | forget d =>
    have := hv 2
    simp only [encodeMutation, List.length_append, FixedBytes.length_toList, deviceIdLen]
    omega

/-! ### Entries and their records -/

/-- A payload that replay accepts, with the mutation it spells. -/
structure Entry where
  payload : Bytes
  mutation : TrustMutation
  decodes : takeMutation payload = some (mutation, [])
  fits : payload.length ≤ maxRecordLen
  valid : validateMutation mutation = .ok ()

/-- The entry that a commit of a valid mutation writes. -/
def Entry.ofMutation (m : TrustMutation) (h : validateMutation m = .ok ()) : Entry where
  payload := encodeMutation m
  mutation := m
  decodes := by simpa using takeMutation_encode h []
  fits := length_encodeMutation_le h
  valid := h

section

variable (blake3 : Blake3)

@[simp] theorem length_recordBytes (payload : Bytes) :
    (recordBytes blake3 payload).length = lengthPrefixLen + payload.length + checksumLen := by
  simp [recordBytes, Nat.add_assoc]

/-- Trust journals as a kind of log. -/
def journalLog : RecordLog.Log ReplayResult Entry where
  enc e := recordBytes blake3 e.payload
  legal st e := st.recordCount < maxRecords ∧ validateTransition st.decisions e.mutation = .ok ()
  next st e := ⟨applyMutation st.decisions e.mutation,
    st.validLen + (recordBytes blake3 e.payload).length, st.recordCount + 1⟩

/-- The journal of a list of entries. -/
def journal (es : List Entry) : Bytes := header ++ (journalLog blake3).bytes es

/-- The list of entries is one a journal may hold. -/
def LegalJournal (es : List Entry) : Prop := (journalLog blake3).Legal replayStart es

/-- What replaying the journal of a list of entries gives. -/
def replayed (es : List Entry) : ReplayResult := (journalLog blake3).run replayStart es

/-! ### One turn of the loop -/

theorem readRecord_ok_iff {st : ReplayResult} {payload checksum : Bytes} {m : TrustMutation} :
    readRecord blake3 st payload checksum = .ok m ↔
      checksum = (blake3 payload).toList ∧ takeMutation payload = some (m, []) ∧
        validateMutation m = .ok () ∧ validateTransition st.decisions m = .ok () := by
  unfold readRecord
  constructor
  · intro h
    split_ifs at h with hc
    split at h
    · cases h
    · next m' r hd =>
      split_ifs at h with hr
      split at h
      · cases h
      · next hv =>
        split at h
        · cases h
        · next ht =>
          cases h
          rw [ne_eq, not_not] at hc hr
          subst hr
          exact ⟨hc, hd, hv, ht⟩
  · rintro ⟨hc, hd, hv, ht⟩
    simp [hc, hd, hv, ht]

/-- A complete record, whatever its checksum: what the loop takes for length, payload and checksum. -/
theorem replayRecord_complete (st : ReplayResult) {q p sum : Bytes} (hq : q.length = lengthPrefixLen)
    (hd : ofBE q = p.length) (hp : p.length ≤ maxRecordLen) (hs : sum.length = checksumLen)
    (hc : st.recordCount < maxRecords) (rest : Bytes) :
    replayRecord blake3 st (q ++ (p ++ (sum ++ rest))) =
      match readRecord blake3 st p sum with
      | .error e => .error e
      | .ok m => .ok (some (⟨applyMutation st.decisions m,
          st.validLen + (lengthPrefixLen + p.length + checksumLen), st.recordCount + 1⟩, rest)) := by
  have hlen : (q ++ (p ++ (sum ++ rest))).length =
      lengthPrefixLen + p.length + checksumLen + rest.length := by
    simp only [List.length_append, hq, hs]; omega
  have hdecl : ofBE ((q ++ (p ++ (sum ++ rest))).take lengthPrefixLen) = p.length := by
    rw [List.take_left' hq, hd]
  have hpay : ((q ++ (p ++ (sum ++ rest))).drop lengthPrefixLen).take p.length = p := by
    rw [List.drop_left' hq, List.take_left' rfl]
  have hsum : ((q ++ (p ++ (sum ++ rest))).drop (lengthPrefixLen + p.length)).take checksumLen =
      sum := by
    rw [← List.drop_drop, List.drop_left' hq, List.drop_left' rfl, List.take_left' hs]
  have hrest : (q ++ (p ++ (sum ++ rest))).drop (lengthPrefixLen + p.length + checksumLen) =
      rest := by
    rw [← List.drop_drop, ← List.drop_drop, List.drop_left' hq, List.drop_left' rfl,
      List.drop_left' hs]
  unfold replayRecord
  simp only [hdecl]
  rw [if_neg (by omega), if_neg (by omega), if_neg (by omega), if_neg (by omega)]
  cases hr : readRecord blake3 st p sum <;> simp only [hpay, hsum, hrest, hr]

theorem ofBE_lengthPrefix {p : Bytes} (hp : p.length ≤ maxRecordLen) :
    ofBE (toBE lengthPrefixLen p.length) = p.length := by
  refine ofBE_toBE (lt_of_le_of_lt hp ?_)
  norm_num [maxRecordLen, lengthPrefixLen]

theorem exists_recordBytes {st st' : ReplayResult} {b b' : Bytes}
    (h : replayRecord blake3 st b = .ok (some (st', b'))) :
    ∃ (p : Bytes) (m : TrustMutation), p.length ≤ maxRecordLen ∧ st.recordCount < maxRecords ∧
      readRecord blake3 st p (blake3 p).toList = .ok m ∧ b = recordBytes blake3 p ++ b' ∧
      st' = ⟨applyMutation st.decisions m, st.validLen + (recordBytes blake3 p).length,
        st.recordCount + 1⟩ := by
  unfold replayRecord at h
  simp only at h
  split_ifs at h with h4 hmax hfit hcount
  · cases h
  · cases h
  split at h
  · cases h
  next m hm =>
  simp only [Except.ok.injEq, Option.some.injEq, Prod.mk.injEq] at h
  obtain ⟨hst, hb'⟩ := h
  set declared := ofBE (b.take lengthPrefixLen) with hdecl
  set p := (b.drop lengthPrefixLen).take declared with hp
  have hplen : p.length = declared := by
    rw [hp, List.length_take, List.length_drop]; omega
  have hsum := ((readRecord_ok_iff blake3).mp hm).1
  have hpre : toBE lengthPrefixLen p.length = b.take lengthPrefixLen := by
    have hl : (b.take lengthPrefixLen).length = lengthPrefixLen := by
      rw [List.length_take]; omega
    rw [hplen, hdecl]
    nth_rewrite 1 [← hl]
    exact toBE_ofBE _
  refine ⟨p, m, by omega, by omega, by rw [← hsum]; exact hm, ?_, ?_⟩
  · rw [recordBytes, hpre, ← hsum, ← hb', hp, List.append_assoc, List.append_assoc]
    simp only [← List.drop_drop, List.take_append_drop]
  · rw [← hst, length_recordBytes, hplen]

/-- **Replay reads the entries of a journal and nothing else.** -/
theorem replayRecord_reads : RecordLog.Reads (replayRecord blake3) (journalLog blake3) where
  enc_ne_nil e := by
    have := length_recordBytes blake3 e.payload
    unfold lengthPrefixLen at this
    exact List.length_pos_iff.mp (by change 0 < (recordBytes blake3 e.payload).length; omega)
  head_iff st b st' b' := by
    constructor
    · intro h
      obtain ⟨p, m, hp, hc, hm, rfl, rfl⟩ := exists_recordBytes blake3 h
      obtain ⟨-, hd, hv, ht⟩ := (readRecord_ok_iff blake3).mp hm
      exact ⟨⟨p, m, hd, hp, hv⟩, ⟨hc, ht⟩, rfl, rfl⟩
    · rintro ⟨e, ⟨hc, ht⟩, rfl, rfl⟩
      have hm : readRecord blake3 st e.payload (blake3 e.payload).toList = .ok e.mutation :=
        (readRecord_ok_iff blake3).mpr ⟨rfl, e.decodes, e.valid, ht⟩
      have hlen := length_recordBytes blake3 e.payload
      change replayRecord blake3 st (recordBytes blake3 e.payload ++ b') = _
      rw [recordBytes, List.append_assoc, List.append_assoc,
        replayRecord_complete blake3 st (length_toBE _ _) (ofBE_lengthPrefix e.fits) e.fits
          (FixedBytes.length_toList _) hc, hm]
      simp only [journalLog, hlen]

theorem replayRecord_torn (st : ReplayResult) {e : Entry} {t q : Bytes} (hq : q ≠ [])
    (h : t ++ q = recordBytes blake3 e.payload) : replayRecord blake3 st t = .ok none := by
  have hlen := congrArg List.length h
  rw [List.length_append, length_recordBytes] at hlen
  have hq' := List.length_pos_iff.mpr hq
  unfold replayRecord
  by_cases h4 : t.length < lengthPrefixLen
  · rw [if_pos h4]
  · have hpre : t.take lengthPrefixLen = toBE lengthPrefixLen e.payload.length := by
      have := congrArg (List.take lengthPrefixLen) h
      rwa [List.take_append_of_le_length (by omega), recordBytes,
        List.take_left' (length_toBE _ _)] at this
    have hdecl : ofBE (t.take lengthPrefixLen) = e.payload.length := by
      rw [hpre, ofBE_lengthPrefix e.fits]
    have := e.fits
    simp only [hdecl]
    rw [if_neg h4, if_neg (by omega), if_pos (by omega)]

end

/-! ### Whole journals -/

theorem length_header : header.length = headerLen := by decide

theorem validateHeader_ok_iff {b : Bytes} :
    validateHeader b = .ok () ↔ ∃ rest, b = header ++ rest := by
  unfold validateHeader
  constructor
  · intro h
    simp only at h
    split_ifs at h with hlen hmagic hversion
    rw [ne_eq, not_not] at hmagic hversion
    have hv : (b.drop journalMagic.length).take 2 = toBE 2 journalVersion := by
      have hl : ((b.drop journalMagic.length).take 2).length = 2 := by
        rw [List.length_take, List.length_drop]
        simp only [headerLen, journalMagic, List.length_cons, List.length_nil] at hlen ⊢
        omega
      rw [← hversion]
      nth_rewrite 2 [← hl]
      exact (toBE_ofBE _).symm
    refine ⟨(b.drop journalMagic.length).drop 2, ?_⟩
    rw [header, ← hv, List.append_assoc, List.take_append_drop]
    calc b = b.take journalMagic.length ++ b.drop journalMagic.length :=
          (List.take_append_drop _ _).symm
      _ = journalMagic ++ b.drop journalMagic.length := by rw [hmagic]
  · rintro ⟨rest, rfl⟩
    have h8 : (header ++ rest).take journalMagic.length = journalMagic := by
      rw [header, List.append_assoc, List.take_left' rfl]
    have h2 : ((header ++ rest).drop journalMagic.length).take 2 = toBE 2 journalVersion := by
      rw [header, List.append_assoc, List.drop_left' rfl, List.take_left' (length_toBE _ _)]
    have hv : ofBE (toBE 2 journalVersion) = journalVersion := by decide
    have hl : ¬ (header ++ rest).length < headerLen := by
      rw [List.length_append, length_header]; omega
    simp only [h8, h2, hv]
    rw [if_neg hl, if_neg (not_not.mpr rfl), if_neg (not_not.mpr rfl)]

section

variable (blake3 : Blake3)

@[simp] theorem length_journal_nil : (journal blake3 []).length = headerLen := by
  simp [journal, length_header]

theorem journal_append (es es' : List Entry) :
    journal blake3 (es ++ es') = journal blake3 es ++ (journalLog blake3).bytes es' := by
  simp [journal, List.append_assoc]

theorem journal_concat (es : List Entry) (e : Entry) :
    journal blake3 (es ++ [e]) = journal blake3 es ++ recordBytes blake3 e.payload := by
  rw [journal_append, RecordLog.Log.bytes_cons, RecordLog.Log.bytes_nil, List.append_nil]
  rfl

theorem run_validLen : ∀ (st : ReplayResult) (es : List Entry),
    ((journalLog blake3).run st es).validLen = st.validLen + ((journalLog blake3).bytes es).length
  | st, [] => by simp
  | st, e :: es => by
    rw [RecordLog.Log.run_cons, run_validLen _ es, RecordLog.Log.bytes_cons, List.length_append,
      ← Nat.add_assoc]
    rfl

theorem run_recordCount : ∀ (st : ReplayResult) (es : List Entry),
    ((journalLog blake3).run st es).recordCount = st.recordCount + es.length
  | st, [] => by simp
  | st, e :: es => by
    rw [RecordLog.Log.run_cons, run_recordCount _ es, List.length_cons]
    change st.recordCount + 1 + _ = _
    omega

@[simp] theorem replayed_validLen (es : List Entry) :
    (replayed blake3 es).validLen = (journal blake3 es).length := by
  rw [replayed, run_validLen, journal, List.length_append, length_header]
  rfl

@[simp] theorem replayed_recordCount (es : List Entry) :
    (replayed blake3 es).recordCount = es.length := by
  rw [replayed, run_recordCount]
  exact Nat.zero_add _

theorem replayed_concat (es : List Entry) (e : Entry) :
    (replayed blake3 (es ++ [e])).decisions =
      applyMutation (replayed blake3 es).decisions e.mutation := by
  rw [replayed, RecordLog.Log.run_append]
  rfl

theorem legalJournal_concat {es : List Entry} {e : Entry} :
    LegalJournal blake3 (es ++ [e]) ↔ LegalJournal blake3 es ∧ es.length < maxRecords ∧
      validateTransition (replayed blake3 es).decisions e.mutation = .ok () := by
  rw [LegalJournal, RecordLog.Log.legal_append, RecordLog.Log.legal_cons]
  have hc := replayed_recordCount blake3 es
  simp only [RecordLog.Log.legal_nil, and_true]
  change _ ∧ ((replayed blake3 es).recordCount < maxRecords ∧ _) ↔ _
  rw [hc]
  rfl

theorem replay_journal_append {es : List Entry} (h : LegalJournal blake3 es) (t : Bytes) :
    replay blake3 (journal blake3 es ++ t) =
      (RecordLog.scanAll (replayRecord blake3) (replayed blake3 es) t).map Prod.fst := by
  have hh : validateHeader (journal blake3 es ++ t) = .ok () :=
    validateHeader_ok_iff.mpr ⟨_, by rw [journal, List.append_assoc]⟩
  have hd : (journal blake3 es ++ t).drop headerLen = (journalLog blake3).bytes es ++ t := by
    rw [journal, List.append_assoc, List.drop_left' length_header]
  unfold replay
  rw [hh, hd, (replayRecord_reads blake3).scanAll_bytes h]
  rfl

/-- **Replaying a journal** gives the state after its entries. -/
theorem replay_journal {es : List Entry} (h : LegalJournal blake3 es) :
    replay blake3 (journal blake3 es) = .ok (replayed blake3 es) := by
  have := replay_journal_append blake3 h []
  rwa [List.append_nil] at this

/-- **An unfinished record** behind a journal changes nothing. -/
theorem replay_torn {es : List Entry} (h : LegalJournal blake3 es) {t : Bytes}
    (ht : replayRecord blake3 (replayed blake3 es) t = .ok none) :
    replay blake3 (journal blake3 es ++ t) = .ok (replayed blake3 es) := by
  rw [replay_journal_append blake3 h, RecordLog.scanAll_stop _ ht]
  rfl

/-- **Whatever replays** is a journal and an unfinished record. -/
theorem replay_ok {b : Bytes} {r : ReplayResult} (h : replay blake3 b = .ok r) :
    ∃ es t, LegalJournal blake3 es ∧ b = journal blake3 es ++ t ∧ r = replayed blake3 es := by
  unfold replay at h
  split at h
  · cases h
  · next hh =>
    obtain ⟨rest, rfl⟩ := validateHeader_ok_iff.mp hh
    rw [List.drop_left' length_header] at h
    cases hs : RecordLog.scanAll (replayRecord blake3) replayStart rest with
    | error e => rw [hs] at h; cases h
    | ok st =>
      rw [hs] at h
      obtain ⟨es, hes, rfl, hrun, -⟩ := (replayRecord_reads blake3).scanAll_ok hs
      refine ⟨es, st.2, hes, by rw [journal, List.append_assoc], ?_⟩
      cases h
      exact hrun

end

end Rift.Trust
