import Rift.Lib.Hex
import Rift.Lib.Map
import Rift.Transfer.Decoding
import Rift.Transfer.Scan

/-! # Scanning all transfers

The scan of the state directory: one directory for every transfer, named by its identifier, within the
limits on all transfers and on those of one peer. The platform lists directories in any order, and the
limits are checked while the listing goes on; neither has an influence on what is accepted.

The main results are `transfer_id_text_is_canonical`, `scanRecord_of_sameContent`,
`scanTransferState_ok_iff` and `transfer_scan_is_exact`. -/

namespace Rift.Transfer

open Rift.Lib Rift.Lib.Postcard Rift.Core Rift.Protocol Std

/-! ### Names of transfers -/

/-- Invalid texts of a transfer identifier. -/
inductive TransferIdError
  | textLength
  | nonCanonicalHex
  deriving DecidableEq

/-- Reads an identifier: 32 digits, with small letters. -/
def parseTransferId (value : String) : Except TransferIdError TransferId :=
  if value.utf8ByteSize ≠ 32 then .error .textLength
  else if ¬ (utf8 value).all lowerHex then .error .nonCanonicalHex
  else
    match hexDecode (utf8 value) with
    | none => .error .nonCanonicalHex
    | some bytes => if h : bytes.length = 16 then .ok ⟨bytes, h⟩ else .error .nonCanonicalHex

/-- One byte as two digits. -/
def byteText (byte : UInt8) : String :=
  String.ofList [Char.ofNat (hexDigit (byte.toNat / 16)).toNat,
    Char.ofNat (hexDigit (byte.toNat % 16)).toNat]

/-- Writes an identifier, byte by byte. -/
def displayTransferId (id : TransferId) : String :=
  id.toList.foldl (fun text byte => text ++ byteText byte) ""

theorem utf8_append (a b : String) : utf8 (a ++ b) = utf8 a ++ utf8 b := by
  unfold utf8
  rw [String.toByteArray_append, ByteArray.data_append, Array.toList_append]

theorem utf8_byteText (byte : UInt8) :
    utf8 (byteText byte) = [hexDigit (byte.toNat / 16), hexDigit (byte.toNat % 16)] := by
  have hdigits : ∀ h < 16, ∀ l < 16, utf8 (String.ofList [Char.ofNat (hexDigit h).toNat,
      Char.ofNat (hexDigit l).toNat]) = [hexDigit h, hexDigit l] := by decide +kernel
  have hbyte := byte.toNat_lt
  exact hdigits _ (by omega) _ (by omega)

theorem utf8_displayTransferId (id : TransferId) :
    utf8 (displayTransferId id) = hexEncode id.toList := by
  have hloop (bytes : Bytes) (text : String) :
      utf8 (bytes.foldl (fun text byte => text ++ byteText byte) text) =
        utf8 text ++ hexEncode bytes := by
    induction bytes generalizing text with
    | nil => simp
    | cons byte bytes ih =>
      rw [List.foldl_cons, ih, utf8_append, utf8_byteText, List.append_assoc]
      rfl
  exact (hloop id.toList "").trans (List.nil_append _)

theorem parse_displayTransferId (id : TransferId) :
    parseTransferId (displayTransferId id) = .ok id := by
  have hbytes := utf8_displayTransferId id
  have hsize : (displayTransferId id).utf8ByteSize = 32 := by
    rw [← length_utf8, hbytes, length_hexEncode, id.length_toList]
  have hlower : (utf8 (displayTransferId id)).all lowerHex = true := by
    rw [hbytes]
    exact List.all_eq_true.mpr fun c hc => lowerHex_of_mem_hexEncode hc
  unfold parseTransferId
  rw [if_neg (not_not.mpr hsize), if_neg (not_not.mpr hlower), hbytes, hexDecode_hexEncode]
  exact dif_pos id.length_eq

theorem utf8_of_parseTransferId {value : String} {id : TransferId}
    (h : parseTransferId value = .ok id) : utf8 value = hexEncode id.toList := by
  unfold parseTransferId at h
  split_ifs at h with hlen hlower
  rcases hd : hexDecode (utf8 value) with _ | bytes
  · rw [hd] at h
    cases h
  · rw [hd] at h
    simp only at h
    split_ifs at h with hb
    obtain rfl := Except.ok.inj h
    exact (hexEncode_of_hexDecode (List.all_eq_true.mp hlower) hd).symm

theorem display_of_parseTransferId {value : String} {id : TransferId}
    (h : parseTransferId value = .ok id) : displayTransferId id = value := by
  have hbytes := (utf8_displayTransferId id).trans (utf8_of_parseTransferId h).symm
  refine Option.some.inj ?_
  rw [← utf8?_utf8 value, ← hbytes, utf8?_utf8]

theorem parseTransferId_injective {a b : String} {id : TransferId} (ha : parseTransferId a = .ok id)
    (hb : parseTransferId b = .ok id) : a = b :=
  (display_of_parseTransferId ha).symm.trans (display_of_parseTransferId hb)

/-! ### One transfer, in any order -/

theorem lists_of_scanEntries {found' : Found} :
    ∀ {entries : List (Except TransferIoError RecordFile)} {count : ℕ} {found : Found},
      count ≤ 3 → scanEntries count found entries = .ok found' →
      ∃ files, Lists entries files ∧ count + files.length ≤ 3 ∧
        ∀ filed ∈ files, filed.1 ∈ ["manifest", "accepted", "terminal"]
  | [], count, found, hc, _ => ⟨[], .nil, hc, nofun⟩
  | entry :: entries, count, found, hc, h => by
    obtain ⟨file, hfile, h⟩ := bind_eq_ok h
    obtain ⟨found₁, hentry, h⟩ := bind_eq_ok h
    unfold scanEntry at hentry
    split_ifs at hentry with hcount
    rcases hname : file.name with _ | name
    · rw [hname] at hentry
      cases hentry
    · rw [hname] at hentry
      simp only at hentry
      split_ifs at hentry with hmem
      obtain ⟨record, hread, -⟩ := bind_eq_ok hentry
      obtain ⟨files, hlists, hlen, hnames⟩ := lists_of_scanEntries (by omega) h
      refine ⟨(name, record) :: files, .cons ⟨file, mapError_eq_ok hfile, hname, hread⟩ hlists, ?_, ?_⟩
      · rw [List.length_cons]
        omega
      · intro filed hf
        rcases List.mem_cons.mp hf with rfl | hf
        · exact hmem
        · exact hnames filed hf

/-- The directories hold the same, listed in any order. -/
structure RecordDirectory.SameContent (directory directory' : RecordDirectory) : Prop where
  metadata : directory.metadata = directory'.metadata
  opened : directory.opened = directory'.opened
  entries : directory.entries.Perm directory'.entries

section Digest

variable (blake3 : Bytes → FixedBytes 32)

/-- **One transfer is accepted in any order of its files.** -/
theorem scanRecord_of_sameContent {directory directory' : RecordDirectory}
    (h : directory.SameContent directory') {id : TransferId} {stored : StoredTransfer}
    (hscan : scanRecord blake3 directory id = .ok stored) :
    scanRecord blake3 directory' id = .ok stored := by
  obtain ⟨metadata, hm, hscan⟩ := bind_eq_ok hscan
  obtain ⟨_, hv, hscan⟩ := bind_eq_ok hscan
  obtain ⟨_, ho, hscan⟩ := bind_eq_ok hscan
  obtain ⟨found, he, hcheck⟩ := bind_eq_ok hscan
  obtain ⟨files, hlists, hlen, hnames⟩ := lists_of_scanEntries (by omega) he
  obtain ⟨order, horder, hperm⟩ := List.perm_comp_forall₂ h.entries.symm hlists
  have hfound : scanEntries 0 {} directory'.entries = .ok found := by
    rw [scanEntries_eq_foldl horder (fun f hf => hnames f (hperm.subset hf))
      (by rw [hperm.length_eq]; exact hlen), hperm.foldl_eq, ← scanEntries_eq_foldl hlists hnames hlen]
    exact he
  unfold scanRecord
  rw [← h.metadata, ← h.opened, hm, ho, hfound]
  simp only [bind, Except.bind, hv, hcheck]

/-! ### The state directory -/

/-- The hard bound on durable transfers. -/
def maxDurableTransfers : ℕ := 4096

/-- The hard bound on those of one peer. -/
def maxDurableTransfersPerPeer : ℕ := 64

/-- An entry of the state directory: its name, if it is a text, and the directory behind it. -/
structure StateEntry where
  name : Option String
  directory : RecordDirectory

/-- The state directory: its metadata, whether it could be opened, and its entries. -/
structure StateDirectory where
  metadata : Except TransferIoError FileMetadata
  opened : Except TransferIoError Unit
  entries : List (Except TransferIoError StateEntry)

/-- The transfer that an entry is named for. -/
def StateEntry.id (entry : StateEntry) : Except TransferStoreError TransferId :=
  match entry.name with
  | none => .error .invalidEntry
  | some name => (parseTransferId name).mapError fun _ => .invalidEntry

/-- **The text of a transfer identifier is a bijection with its canonical spellings.** What is written
is read back, and what is read is what is written; so two texts, or the names of two entries of the
state directory, that are read as one identifier are the same. -/
theorem transfer_id_text_is_canonical :
    (∀ id, parseTransferId (displayTransferId id) = .ok id) ∧
    (∀ value id, parseTransferId value = .ok id → displayTransferId id = value) ∧
    (∀ a b id, parseTransferId a = .ok id → parseTransferId b = .ok id → a = b) ∧
    ∀ (x y : StateEntry) (id : TransferId), x.id = .ok id → y.id = .ok id → x.name = y.name := by
  have hnamed (entry : StateEntry) (id : TransferId) (h : entry.id = .ok id) :
      entry.name = some (displayTransferId id) := by
    unfold StateEntry.id at h
    split at h
    · cases h
    · next name hname =>
      cases hparse : parseTransferId name with
      | error e =>
        rw [hparse] at h
        cases h
      | ok id' =>
        rw [hparse] at h
        cases h
        rw [hname, display_of_parseTransferId hparse]
  refine ⟨parse_displayTransferId, fun value id => display_of_parseTransferId,
    fun a b id => parseTransferId_injective, fun x y id hx hy => ?_⟩
  rw [hnamed x id hx, hnamed y id hy]

/-- The transfers that have been found. -/
abbrev Records := ExtTreeMap TransferId StoredTransfer

/-- One entry, with what was found before and how many transfers each peer has. -/
def scanStateEntry (records : Records) (peerCounts : ExtTreeMap DeviceId ℕ) (entry : StateEntry) :
    Except TransferStoreError (Records × ExtTreeMap DeviceId ℕ) :=
  if records.size = maxDurableTransfers then .error .recordLimit
  else do
    let id ← entry.id
    let record ← scanRecord blake3 entry.directory id
    let count := peerCounts.getD record.manifest.peer 0
    if count = maxDurableTransfersPerPeer then .error .peerRecordLimit
    else if records.contains id then .error .invalidEntry
    else .ok (records.insert id record, peerCounts.insert record.manifest.peer (count + 1))

/-- The scan of the remaining entries. -/
def scanStateEntries (records : Records) (peerCounts : ExtTreeMap DeviceId ℕ) :
    List (Except TransferIoError StateEntry) → Except TransferStoreError Records
  | [] => .ok records
  | entry :: entries => do
    let entry ← entry.mapError .io
    let (records, peerCounts) ← scanStateEntry blake3 records peerCounts entry
    scanStateEntries records peerCounts entries

/-- All transfers of a state directory. -/
def scanTransferState (state : StateDirectory) : Except TransferStoreError Records := do
  let metadata ← state.metadata.mapError .io
  validateDirectory metadata
  state.opened.mapError .io
  scanStateEntries blake3 ∅ ∅ state.entries

/-! ### What is accepted -/

/-- What an entry gives on its own, if it passes. -/
def scanOwn (entry : Except TransferIoError StateEntry) : Option (TransferId × StoredTransfer) :=
  match entry with
  | .error _ => none
  | .ok entry =>
    match entry.id with
    | .error _ => none
    | .ok id => (scanRecord blake3 entry.directory id).toOption.map fun stored => (id, stored)

/-- Transfers within the limits, each under its own identifier. -/
structure Fits (transfers : List (TransferId × StoredTransfer)) : Prop where
  nodup : (transfers.map Prod.fst).Nodup
  length : transfers.length ≤ maxDurableTransfers
  peer : ∀ peer, transfers.countP (fun transfer => transfer.2.manifest.peer = peer) ≤
    maxDurableTransfersPerPeer

/-- The map has these entries. -/
def MapOf (transfers : List (TransferId × StoredTransfer)) (records : Records) : Prop :=
  ∀ id stored, records[id]? = some stored ↔ (id, stored) ∈ transfers

/-- What the scan holds after these transfers. -/
structure Scanned (transfers : List (TransferId × StoredTransfer)) (records : Records)
    (peerCounts : ExtTreeMap DeviceId ℕ) : Prop where
  fits : Fits transfers
  records : MapOf transfers records
  counts : ∀ peer, peerCounts.getD peer 0 =
    transfers.countP fun transfer => transfer.2.manifest.peer = peer

theorem scanOwn_eq_some {entry : Except TransferIoError StateEntry}
    {own : TransferId × StoredTransfer} :
    scanOwn blake3 entry = some own ↔ ∃ e, entry = .ok e ∧ e.id = .ok own.1 ∧
      scanRecord blake3 e.directory own.1 = .ok own.2 := by
  rcases entry with _ | e
  · simp [scanOwn]
  · rcases hid : e.id with _ | id
    · simp [scanOwn, hid]
    · rcases hs : scanRecord blake3 e.directory id with _ | stored
      · simp only [scanOwn, hid, hs]
        refine iff_of_false nofun ?_
        rintro ⟨_, he, hi, hr⟩
        obtain rfl := Except.ok.inj he
        obtain rfl := Except.ok.inj (hid.symm.trans hi)
        cases hs.symm.trans hr
      · simp only [scanOwn, hid, hs]
        constructor
        · intro h
          obtain rfl := Option.some.inj h
          exact ⟨e, rfl, hid, hs⟩
        · rintro ⟨_, he, hi, hr⟩
          obtain rfl := Except.ok.inj he
          obtain rfl := Except.ok.inj (hid.symm.trans hi)
          obtain rfl := Except.ok.inj (hs.symm.trans hr)
          rfl

theorem MapOf.size_eq {transfers : List (TransferId × StoredTransfer)} {records : Records}
    (h : MapOf transfers records) (hn : (transfers.map Prod.fst).Nodup) :
    records.size = transfers.length := by
  have hkeys : Map.keySet records = (transfers.map Prod.fst).toFinset := by
    ext id
    rw [Map.mem_keySet, List.mem_toFinset, List.mem_map]
    constructor
    · rintro ⟨stored, hs⟩
      exact ⟨(id, stored), (h id stored).mp hs, rfl⟩
    · rintro ⟨⟨_, stored⟩, hmem, rfl⟩
      exact ⟨stored, (h _ stored).mpr hmem⟩
  rw [← Map.card_keySet, hkeys, List.toFinset_card_of_nodup hn, List.length_map]

theorem MapOf.unique {transfers : List (TransferId × StoredTransfer)} {records records' : Records}
    (h : MapOf transfers records) (h' : MapOf transfers records') : records = records' := by
  refine ExtTreeMap.ext_getElem? fun {id} => Option.ext fun stored => ?_
  rw [h id stored, h' id stored]

theorem exists_mapOf : ∀ {transfers : List (TransferId × StoredTransfer)},
    (transfers.map Prod.fst).Nodup → ∃ records, MapOf transfers records
  | [], _ => ⟨∅, fun id stored => by simp⟩
  | own :: transfers, hn => by
    obtain ⟨hnew, hn⟩ := List.nodup_cons.mp hn
    obtain ⟨records, hmap⟩ := exists_mapOf hn
    refine ⟨records.insert own.1 own.2, fun id stored => ?_⟩
    rw [Map.insert_eq_some, hmap id stored, List.mem_cons]
    constructor
    · rintro (⟨rfl, rfl⟩ | ⟨-, hmem⟩)
      · exact .inl rfl
      · exact .inr hmem
    · rintro (hown | hmem)
      · exact .inl ⟨congrArg Prod.fst hown.symm, congrArg Prod.snd hown.symm⟩
      · exact .inr ⟨fun heq => hnew (heq ▸ List.mem_map_of_mem hmem), hmem⟩

theorem scanned_nil : Scanned [] ∅ ∅ where
  fits := ⟨List.nodup_nil, Nat.zero_le _, fun _ => Nat.zero_le _⟩
  records id stored := by simp
  counts peer := by simp

section Step

variable {transfers : List (TransferId × StoredTransfer)} {records : Records}
  {peerCounts : ExtTreeMap DeviceId ℕ}

theorem Scanned.contains_iff (h : Scanned transfers records peerCounts) (id : TransferId) :
    records.contains id = true ↔ id ∈ transfers.map Prod.fst := by
  rw [ExtTreeMap.contains_iff_mem, Map.mem_iff_exists, List.mem_map]
  constructor
  · rintro ⟨stored, hs⟩
    exact ⟨(id, stored), (h.records id stored).mp hs, rfl⟩
  · rintro ⟨⟨_, stored⟩, hmem, rfl⟩
    exact ⟨stored, (h.records _ stored).mpr hmem⟩

theorem Fits.concat_iff (h : Fits transfers) {own : TransferId × StoredTransfer} :
    Fits (transfers ++ [own]) ↔ own.1 ∉ transfers.map Prod.fst ∧
      transfers.length < maxDurableTransfers ∧
      transfers.countP (fun transfer => transfer.2.manifest.peer = own.2.manifest.peer) <
        maxDurableTransfersPerPeer := by
  constructor
  · intro h'
    have hn := h'.nodup
    have hl := h'.length
    have hp := h'.peer own.2.manifest.peer
    rw [List.map_append, List.map_singleton, List.nodup_append] at hn
    rw [List.length_append, List.length_singleton] at hl
    rw [List.countP_append, List.countP_singleton, if_pos (by simp)] at hp
    exact ⟨fun hm => hn.2.2 _ hm _ (List.mem_singleton.mpr rfl) rfl, by omega, by omega⟩
  · rintro ⟨hn, hl, hp⟩
    refine ⟨?_, by rw [List.length_append, List.length_singleton]; omega, fun peer => ?_⟩
    · rw [List.map_append, List.map_singleton, List.nodup_append]
      refine ⟨h.nodup, List.nodup_singleton _, fun a ha b hb hab => hn ?_⟩
      rw [← List.mem_singleton.mp hb, ← hab]
      exact ha
    · rw [List.countP_append, List.countP_singleton]
      have := h.peer peer
      split_ifs with hpeer
      · obtain rfl : own.2.manifest.peer = peer := by simpa using hpeer
        omega
      · omega

theorem Scanned.concat (h : Scanned transfers records peerCounts)
    {own : TransferId × StoredTransfer} (hf : Fits (transfers ++ [own])) :
    Scanned (transfers ++ [own]) (records.insert own.1 own.2)
      (peerCounts.insert own.2.manifest.peer (peerCounts.getD own.2.manifest.peer 0 + 1)) where
  fits := hf
  records id stored := by
    have hnew := (h.fits.concat_iff.mp hf).1
    rw [Map.insert_eq_some, List.mem_append, List.mem_singleton, h.records id stored]
    constructor
    · rintro (⟨rfl, rfl⟩ | ⟨-, hmem⟩)
      · exact .inr rfl
      · exact .inl hmem
    · rintro (hmem | hown)
      · exact .inr ⟨fun heq => hnew (heq ▸ List.mem_map_of_mem hmem), hmem⟩
      · exact .inl ⟨congrArg Prod.fst hown.symm, congrArg Prod.snd hown.symm⟩
  counts peer := by
    rw [ExtTreeMap.getD_insert, List.countP_append, List.countP_singleton, ← h.counts peer]
    by_cases hpeer : own.2.manifest.peer = peer
    · subst hpeer
      simp
    · simp [hpeer]

/-- **One entry passes exactly if it passes on its own and still fits.** -/
theorem Scanned.entry_iff (h : Scanned transfers records peerCounts) {entry : StateEntry}
    {next : Records × ExtTreeMap DeviceId ℕ} :
    scanStateEntry blake3 records peerCounts entry = .ok next ↔
      ∃ own, scanOwn blake3 (.ok entry) = some own ∧ Fits (transfers ++ [own]) ∧
        next = (records.insert own.1 own.2, peerCounts.insert own.2.manifest.peer
          (peerCounts.getD own.2.manifest.peer 0 + 1)) := by
  have hsize := h.records.size_eq h.fits.nodup
  have hlen := h.fits.length
  unfold scanStateEntry
  constructor
  · intro hscan
    split_ifs at hscan with hfull
    obtain ⟨id, hid, hscan⟩ := bind_eq_ok hscan
    obtain ⟨record, hrecord, hscan⟩ := bind_eq_ok hscan
    simp only at hscan
    split_ifs at hscan with hpeer hdup
    refine ⟨(id, record), (scanOwn_eq_some blake3).mpr ⟨entry, rfl, hid, hrecord⟩,
      h.fits.concat_iff.mpr ⟨?_, by omega, ?_⟩, (Except.ok.inj hscan).symm⟩
    · rw [← h.contains_iff]
      exact hdup
    · have hle := h.fits.peer record.manifest.peer
      rw [h.counts] at hpeer
      exact Nat.lt_of_le_of_ne hle hpeer
  · rintro ⟨own, hown, hfits, rfl⟩
    obtain ⟨e, he, hid, hrecord⟩ := (scanOwn_eq_some blake3).mp hown
    obtain rfl := Except.ok.inj he
    obtain ⟨hnew, hroom, hpeer⟩ := h.fits.concat_iff.mp hfits
    rw [← h.contains_iff] at hnew
    rw [← h.counts] at hpeer
    rw [if_neg (by omega), hid]
    simp only [bind, Except.bind, hrecord, if_neg hpeer.ne, if_neg hnew]

theorem Fits.of_append {more : List (TransferId × StoredTransfer)} (h : Fits (transfers ++ more)) :
    Fits transfers where
  nodup := by
    have hn := h.nodup
    rw [List.map_append, List.nodup_append] at hn
    exact hn.1
  length := by
    have hl := h.length
    rw [List.length_append] at hl
    omega
  peer peer := by
    have hp := h.peer peer
    rw [List.countP_append] at hp
    omega

/-- **A listing is accepted exactly if every entry passes on its own and all of them fit.** -/
theorem Scanned.entries_iff : ∀ {entries : List (Except TransferIoError StateEntry)}
    {transfers : List (TransferId × StoredTransfer)} {records : Records}
    {peerCounts : ExtTreeMap DeviceId ℕ} {result : Records}, Scanned transfers records peerCounts →
    (scanStateEntries blake3 records peerCounts entries = .ok result ↔
      (∀ entry ∈ entries, (scanOwn blake3 entry).isSome) ∧
        Fits (transfers ++ entries.filterMap (scanOwn blake3)) ∧
        MapOf (transfers ++ entries.filterMap (scanOwn blake3)) result)
  | [], transfers, records, peerCounts, result, h => by
    rw [List.filterMap_nil, List.append_nil]
    constructor
    · intro hscan
      obtain rfl := Except.ok.inj hscan
      exact ⟨nofun, h.fits, h.records⟩
    · rintro ⟨-, -, hmap⟩
      rw [hmap.unique h.records]
      rfl
  | entry :: entries, transfers, records, peerCounts, result, h => by
    constructor
    · intro hscan
      obtain ⟨e, he, hstep⟩ := bind_eq_ok hscan
      obtain rfl := mapError_eq_ok he
      obtain ⟨⟨records', peerCounts'⟩, hentry, hrest⟩ := bind_eq_ok hstep
      obtain ⟨own, hown, hfits, hnext⟩ := (h.entry_iff blake3).mp hentry
      obtain ⟨rfl, rfl⟩ := Prod.mk.inj hnext
      obtain ⟨hall, hfits', hmap⟩ := (entries_iff (h.concat hfits)).mp hrest
      rw [List.append_assoc] at hfits' hmap
      rw [List.filterMap_cons_some hown]
      refine ⟨?_, hfits', hmap⟩
      intro entry hmem
      rcases List.mem_cons.mp hmem with rfl | hmem
      · rw [hown]
        rfl
      · exact hall entry hmem
    · rintro ⟨hall, hfits, hmap⟩
      obtain ⟨own, hown⟩ := Option.isSome_iff_exists.mp (hall entry List.mem_cons_self)
      obtain ⟨e, rfl, -, -⟩ := (scanOwn_eq_some blake3).mp hown
      rw [List.filterMap_cons_some hown, List.append_cons] at hfits hmap
      have hentry := (h.entry_iff blake3).mpr ⟨own, hown, hfits.of_append, rfl⟩
      have hrest := (entries_iff (h.concat hfits.of_append)).mpr
        ⟨fun entry hmem => hall entry (List.mem_cons_of_mem _ hmem), hfits, hmap⟩
      unfold scanStateEntries
      simp only [Except.mapError, bind, Except.bind, hentry]
      exact hrest

end Step

/-- The state directory is private and can be read. -/
def StateDirectory.Guarded (state : StateDirectory) : Prop :=
  (∃ metadata, state.metadata = .ok metadata ∧ validateDirectory metadata = .ok ()) ∧
    state.opened = .ok ()

/-- **What the scan accepts**, and as which map. -/
theorem scanTransferState_ok_iff {state : StateDirectory} {result : Records} :
    scanTransferState blake3 state = .ok result ↔
      state.Guarded ∧ (∀ entry ∈ state.entries, (scanOwn blake3 entry).isSome) ∧
        Fits (state.entries.filterMap (scanOwn blake3)) ∧
        MapOf (state.entries.filterMap (scanOwn blake3)) result := by
  have hentries : scanStateEntries blake3 ∅ ∅ state.entries = .ok result ↔ _ :=
    scanned_nil.entries_iff blake3
  rw [List.nil_append] at hentries
  rw [← hentries]
  constructor
  · intro h
    obtain ⟨metadata, hm, h⟩ := bind_eq_ok h
    obtain ⟨_, hv, h⟩ := bind_eq_ok h
    obtain ⟨_, ho, h⟩ := bind_eq_ok h
    exact ⟨⟨⟨metadata, mapError_eq_ok hm, hv⟩, mapError_eq_ok ho⟩, h⟩
  · rintro ⟨⟨⟨metadata, hm, hv⟩, ho⟩, h⟩
    unfold scanTransferState
    simp only [hm, ho, Except.mapError, bind, Except.bind, hv]
    exact h

/-! ### Any order -/

/-- The entries are the same, but for the order in which the directory behind them lists its files. -/
inductive SameEntry : Except TransferIoError StateEntry → Except TransferIoError StateEntry → Prop
  | error (e : TransferIoError) : SameEntry (.error e) (.error e)
  | ok {entry entry' : StateEntry} (hname : entry.name = entry'.name)
      (hcontent : entry.directory.SameContent entry'.directory) : SameEntry (.ok entry) (.ok entry')

/-- The state directories hold the same, with everything listed in any order. -/
structure StateDirectory.SameContent (state state' : StateDirectory) : Prop where
  metadata : state.metadata = state'.metadata
  opened : state.opened = state'.opened
  entries : ∃ order, state.entries.Perm order ∧ List.Forall₂ SameEntry order state'.entries

theorem RecordDirectory.SameContent.symm {directory directory' : RecordDirectory}
    (h : directory.SameContent directory') : directory'.SameContent directory :=
  ⟨h.metadata.symm, h.opened.symm, h.entries.symm⟩

theorem SameEntry.scanOwn_eq {entry entry' : Except TransferIoError StateEntry}
    (h : SameEntry entry entry') : scanOwn blake3 entry = scanOwn blake3 entry' := by
  cases h with
  | error e => rfl
  | @ok entry entry' hname hcontent =>
    have hid : entry.id = entry'.id := by
      unfold StateEntry.id
      rw [hname]
    refine Option.ext fun own => ?_
    rw [scanOwn_eq_some, scanOwn_eq_some]
    constructor
    · rintro ⟨_, he, hi, hr⟩
      obtain rfl := Except.ok.inj he
      exact ⟨entry', rfl, hid ▸ hi, scanRecord_of_sameContent blake3 hcontent hr⟩
    · rintro ⟨_, he, hi, hr⟩
      obtain rfl := Except.ok.inj he
      exact ⟨entry, rfl, hid ▸ hi, scanRecord_of_sameContent blake3 hcontent.symm hr⟩

theorem Fits.perm {transfers transfers' : List (TransferId × StoredTransfer)}
    (hp : transfers.Perm transfers') (h : Fits transfers) : Fits transfers' where
  nodup := (hp.map Prod.fst).nodup_iff.mp h.nodup
  length := hp.length_eq ▸ h.length
  peer peer := hp.countP_eq _ ▸ h.peer peer

theorem StateDirectory.SameContent.symm {state state' : StateDirectory}
    (h : state.SameContent state') : state'.SameContent state := by
  obtain ⟨order, hperm, hsame⟩ := h.entries
  have hsame' : List.Forall₂ SameEntry state'.entries order := by
    refine List.Forall₂.flip (hsame.imp fun a b hab => ?_)
    cases hab with
    | error e => exact .error e
    | ok hname hcontent => exact .ok hname.symm hcontent.symm
  obtain ⟨order', horder, hperm'⟩ :=
    (List.forall₂_comp_perm_eq_perm_comp_forall₂ ▸ ⟨order, hsame', hperm.symm⟩ :
      Relation.Comp List.Perm (List.Forall₂ SameEntry) state'.entries state.entries)
  exact ⟨h.metadata.symm, h.opened.symm, order', horder, hperm'⟩

theorem scanTransferState_of_sameContent {state state' : StateDirectory}
    (h : state.SameContent state') {result : Records}
    (hscan : scanTransferState blake3 state = .ok result) :
    scanTransferState blake3 state' = .ok result := by
  obtain ⟨⟨hm, ho⟩, hall, hfits, hmap⟩ := (scanTransferState_ok_iff blake3).mp hscan
  obtain ⟨order, hperm, hsame⟩ := h.entries
  have hown : order.map (scanOwn blake3) = state'.entries.map (scanOwn blake3) := by
    rw [← List.forall₂_eq_eq_eq, List.forall₂_map_left_iff, List.forall₂_map_right_iff]
    exact hsame.imp fun _ _ hab => hab.scanOwn_eq blake3
  have hfound : (state.entries.filterMap (scanOwn blake3)).Perm
      (state'.entries.filterMap (scanOwn blake3)) := by
    have hids := congrArg (List.filterMap id) hown
    rw [List.filterMap_map, List.filterMap_map, Function.id_comp] at hids
    exact (hperm.filterMap (scanOwn blake3)).trans (.of_eq hids)
  refine (scanTransferState_ok_iff blake3).mpr ⟨⟨h.metadata ▸ hm, h.opened ▸ ho⟩, ?_,
    hfits.perm hfound, fun id stored => (hmap id stored).trans hfound.mem_iff⟩
  intro entry hentry
  have hmem : scanOwn blake3 entry ∈ order.map (scanOwn blake3) :=
    hown ▸ List.mem_map_of_mem hentry
  obtain ⟨e, he, heq⟩ := List.mem_map.mp hmem
  rw [← heq]
  exact hall e (hperm.mem_iff.mpr he)

/-- The name of an entry, if it is a text. -/
def entryName (entry : Except TransferIoError StateEntry) : Option String :=
  entry.toOption.bind StateEntry.name

/-- The names of the entries. -/
def StateDirectory.names (state : StateDirectory) : List String := state.entries.filterMap entryName

theorem map_fst_scanOwn : ∀ {entries : List (Except TransferIoError StateEntry)},
    (∀ entry ∈ entries, (scanOwn blake3 entry).isSome) →
    (entries.filterMap (scanOwn blake3)).map Prod.fst =
      (entries.filterMap entryName).filterMap fun name => (parseTransferId name).toOption
  | [], _ => rfl
  | entry :: entries, h => by
    obtain ⟨own, hown⟩ := Option.isSome_iff_exists.mp (h entry List.mem_cons_self)
    obtain ⟨e, rfl, hid, -⟩ := (scanOwn_eq_some blake3).mp hown
    unfold StateEntry.id at hid
    rcases hname : e.name with _ | name
    · rw [hname] at hid
      cases hid
    · rw [hname] at hid
      have hparse : (parseTransferId name).toOption = some own.1 := by
        rw [mapError_eq_ok hid]
        rfl
      have hname' : entryName (.ok e) = some name := hname
      rw [List.filterMap_cons_some hown, List.map_cons, List.filterMap_cons_some hname',
        List.filterMap_cons_some (f := fun name => (parseTransferId name).toOption) hparse,
        map_fst_scanOwn fun entry hentry => h entry (List.mem_cons_of_mem _ hentry)]

theorem nodup_of_names {state : StateDirectory} (hn : state.names.Nodup)
    (h : ∀ entry ∈ state.entries, (scanOwn blake3 entry).isSome) :
    ((state.entries.filterMap (scanOwn blake3)).map Prod.fst).Nodup := by
  have hok : ∀ {name : String} {id : TransferId},
      id ∈ (parseTransferId name).toOption → parseTransferId name = .ok id := by
    intro name id hid
    rcases hp : parseTransferId name with e | id'
    · rw [hp] at hid
      cases hid
    · rw [hp] at hid
      exact congrArg Except.ok (Option.some.inj hid)
  rw [map_fst_scanOwn blake3 h]
  exact hn.filterMap fun a b id ha hb => parseTransferId_injective (hok ha) (hok hb)

theorem countP_scanOwn (entries : List (Except TransferIoError StateEntry)) (peer : DeviceId) :
    (entries.filterMap (scanOwn blake3)).countP (fun own => own.2.manifest.peer = peer) =
      entries.countP fun entry =>
        (scanOwn blake3 entry).map (fun own => own.2.manifest.peer) = some peer := by
  rw [List.countP_filterMap]
  refine List.countP_congr fun entry _ => ?_
  rcases scanOwn blake3 entry with _ | own <;> simp

/-- **The scan of the state directory is exact, and does not depend on the order of listings.** It
gives the same map for the same content, listed in any order, or none in all of them. It succeeds
exactly if the directory is private and can be read, every entry is a canonically named private
directory that passes on its own, and they are within the limits; and then the map has one entry for
each directory, with what that gives on its own. -/
theorem transfer_scan_is_exact :
    (∀ state state' : StateDirectory, state.SameContent state' → ∀ result,
      scanTransferState blake3 state = .ok result ↔ scanTransferState blake3 state' = .ok result) ∧
    ∀ state : StateDirectory, state.names.Nodup →
      ((∃ result, scanTransferState blake3 state = .ok result) ↔
        state.Guarded ∧
        (∀ entry ∈ state.entries, ∃ e id stored, entry = .ok e ∧ e.id = .ok id ∧
          scanRecord blake3 e.directory id = .ok stored) ∧
        state.entries.length ≤ 4096 ∧
        ∀ peer, state.entries.countP (fun entry =>
          (scanOwn blake3 entry).map (fun own => own.2.manifest.peer) = some peer) ≤ 64) ∧
      ∀ result, scanTransferState blake3 state = .ok result →
        result.size = state.entries.length ∧
        ∀ id stored, result[id]? = some stored ↔ ∃ e, .ok e ∈ state.entries ∧ e.id = .ok id ∧
          scanRecord blake3 e.directory id = .ok stored := by
  have hpass : ∀ entry, (scanOwn blake3 entry).isSome = true ↔ ∃ e id stored, entry = .ok e ∧
      e.id = .ok id ∧ scanRecord blake3 e.directory id = .ok stored := by
    intro entry
    rw [Option.isSome_iff_exists]
    constructor
    · rintro ⟨own, hown⟩
      obtain ⟨e, he, hid, hrecord⟩ := (scanOwn_eq_some blake3).mp hown
      exact ⟨e, own.1, own.2, he, hid, hrecord⟩
    · rintro ⟨e, id, stored, he, hid, hrecord⟩
      exact ⟨(id, stored), (scanOwn_eq_some blake3).mpr ⟨e, he, hid, hrecord⟩⟩
  have hlength : ∀ entries : List (Except TransferIoError StateEntry),
      (∀ entry ∈ entries, (scanOwn blake3 entry).isSome = true) →
      (entries.filterMap (scanOwn blake3)).length = entries.length := by
    intro entries hall
    exact List.filterMap_length_eq_length.mpr hall
  refine ⟨fun state state' h result => ⟨scanTransferState_of_sameContent blake3 h,
    scanTransferState_of_sameContent blake3 h.symm⟩, fun state hn => ⟨⟨?_, ?_⟩, ?_⟩⟩
  · rintro ⟨result, hscan⟩
    obtain ⟨hguarded, hall, hfits, -⟩ := (scanTransferState_ok_iff blake3).mp hscan
    refine ⟨hguarded, fun entry hentry => (hpass entry).mp (hall entry hentry), ?_, fun peer => ?_⟩
    · rw [← hlength _ hall]
      exact hfits.length
    · rw [← countP_scanOwn]
      exact hfits.peer peer
  · rintro ⟨hguarded, hall, hcount, hpeers⟩
    have hall' : ∀ entry ∈ state.entries, (scanOwn blake3 entry).isSome = true :=
      fun entry hentry => (hpass entry).mpr (hall entry hentry)
    have hfits : Fits (state.entries.filterMap (scanOwn blake3)) := by
      refine ⟨nodup_of_names blake3 hn hall', ?_, fun peer => ?_⟩
      · rw [hlength _ hall']
        exact hcount
      · rw [countP_scanOwn]
        exact hpeers peer
    obtain ⟨result, hmap⟩ := exists_mapOf hfits.nodup
    exact ⟨result, (scanTransferState_ok_iff blake3).mpr ⟨hguarded, hall', hfits, hmap⟩⟩
  · intro result hscan
    obtain ⟨-, hall, hfits, hmap⟩ := (scanTransferState_ok_iff blake3).mp hscan
    refine ⟨(hmap.size_eq hfits.nodup).trans (hlength _ hall), fun id stored => ?_⟩
    rw [hmap id stored, List.mem_filterMap]
    constructor
    · rintro ⟨entry, hentry, hown⟩
      obtain ⟨e, rfl, hid, hrecord⟩ := (scanOwn_eq_some blake3).mp hown
      exact ⟨e, hentry, hid, hrecord⟩
    · rintro ⟨e, hentry, hid, hrecord⟩
      exact ⟨.ok e, hentry, (scanOwn_eq_some blake3).mpr ⟨e, rfl, hid, hrecord⟩⟩

end Digest

/-! ### Two directories, in both orders -/

/-- The metadata of an entry that is private to its owner. -/
def sampleStat (kind : FileKind) (mode : ℕ) : FileMetadata := ⟨kind, mode, 1, 0, 0, 0⟩

/-- The two files of an incoming transfer that was accepted. -/
def sampleFiles (b : UInt8) : List (Except TransferIoError RecordFile) :=
  let stat := sampleStat .regular 384
  let manifest := sampleManifest b
  [.ok ⟨some "manifest", .ok stat, .ok stat, .ok (.manifest manifest)⟩,
    .ok ⟨some "accepted", .ok stat, .ok stat, .ok (.accepted (manifest.digest sumDigest))⟩]

/-- The directory of that transfer; `order` is that of the listings. -/
def sampleEntry (order : ∀ {α : Type}, List α → List α) (b : UInt8) : StateEntry :=
  ⟨some (displayTransferId (.replicate 16 b)),
    ⟨.ok (sampleStat .directory 448), .ok (), order (sampleFiles b)⟩⟩

def sampleState (order : ∀ {α : Type}, List α → List α) : StateDirectory :=
  ⟨.ok (sampleStat .directory 448), .ok (),
    order ([1, 2].map fun b => .ok (sampleEntry order b))⟩

theorem sampleState_sameContent : (sampleState id).SameContent (sampleState List.reverse) := by
  have hentry (b : UInt8) :
      SameEntry (.ok (sampleEntry id b)) (.ok (sampleEntry List.reverse b)) :=
    .ok rfl ⟨rfl, rfl, (List.reverse_perm _).symm⟩
  exact ⟨rfl, rfl, _, List.Perm.swap _ _ _, .cons (hentry 2) (.cons (hentry 1) .nil)⟩

theorem sampleEntry_id (order : ∀ {α : Type}, List α → List α) (b : UInt8) :
    (sampleEntry order b).id = .ok (.replicate 16 b) := by
  simp only [sampleEntry, StateEntry.id, parse_displayTransferId, Except.mapError]

theorem scanRecord_sampleEntry : ∀ b ∈ [1, 2],
    scanRecord sumDigest (sampleEntry id b).directory (.replicate 16 b) =
      .ok ⟨sampleManifest b, true, none⟩ := by
  decide +kernel

/-- Two directories give one map, in whatever order they and their files are listed. -/
theorem two_transfers_are_scanned : ∃ result,
    scanTransferState sumDigest (sampleState id) = .ok result ∧
    scanTransferState sumDigest (sampleState List.reverse) = .ok result ∧ result.size = 2 ∧
    ∀ b ∈ [1, 2], result[FixedBytes.replicate 16 b]? = some ⟨sampleManifest b, true, none⟩ := by
  obtain ⟨hany, hexact⟩ := transfer_scan_is_exact sumDigest
  obtain ⟨haccepted, hmap⟩ := hexact (sampleState id) (by decide +kernel)
  have hpass : ∀ entry ∈ (sampleState id).entries, ∃ e id stored, entry = .ok e ∧ e.id = .ok id ∧
      scanRecord sumDigest e.directory id = .ok stored := by
    intro entry hentry
    obtain ⟨b, hb, rfl⟩ := List.mem_map.mp hentry
    exact ⟨_, _, _, rfl, sampleEntry_id id b, scanRecord_sampleEntry b hb⟩
  obtain ⟨result, hscan⟩ := haccepted.mpr ⟨⟨⟨_, rfl, rfl⟩, rfl⟩, hpass, (by decide : 2 ≤ 4096),
    fun peer => List.countP_le_length.trans (by decide : 2 ≤ 64)⟩
  obtain ⟨hsize, hentries⟩ := hmap result hscan
  refine ⟨result, hscan, (hany _ _ sampleState_sameContent result).mp hscan, hsize, fun b hb => ?_⟩
  exact (hentries _ _).mpr ⟨sampleEntry id b, List.mem_map_of_mem hb, sampleEntry_id id b,
    scanRecord_sampleEntry b hb⟩

end Rift.Transfer
