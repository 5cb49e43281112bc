import Rift.Transfer.Record

/-! # Scanning the directory of a transfer

What the scanner accepts after a restart. A directory is what reading it and its files gives: the
metadata, the entries in the order of the platform, and what each file decodes to; any of these can
be an error. The checks are those of a Unix platform.

The main definition is `StoredTransfer.Consistent`, the main results `consistent_of_scanRecord`
and `scanRecord_of_holds`. -/

namespace Rift.Transfer

open Rift.Lib Rift.Core Rift.Protocol

/-! ### Files and directories -/

/-- Startup validation errors. -/
inductive TransferStoreError
  | io (error : TransferIoError)
  | record (error : TransferRecordError)
  | recordLimit
  | peerRecordLimit
  | invalidEntry
  | unsafeEntry
  | insecurePermissions
  | recordTooLarge
  | wrongRecordKind
  | missingManifest
  | manifestIdMismatch
  | inconsistentMarkers
  deriving DecidableEq

/-- What a directory entry is. -/
inductive FileKind
  | directory
  | regular
  | link
  | other
  deriving DecidableEq

/-- The metadata of an entry, that of a link and not of its target. -/
structure FileMetadata where
  kind : FileKind
  mode : ℕ
  links : ℕ
  len : ℕ
  device : ℕ
  inode : ℕ
  deriving DecidableEq

/-- The longest complete record: header, payload and checksum. -/
def maxTransferRecordLen : ℕ := 14 + maxTransferRecordPayloadLen + 32

/-- The permissions are the expected ones. -/
def validatePermissions (metadata : FileMetadata) (expected : ℕ) : Except TransferStoreError Unit :=
  if metadata.mode % 4096 ≠ expected then .error .insecurePermissions else .ok ()

/-- A directory has to be private to its owner (mode 0700). -/
def validateDirectory (metadata : FileMetadata) : Except TransferStoreError Unit :=
  if metadata.kind ≠ .directory then .error .unsafeEntry else validatePermissions metadata 448

/-- A file has to be regular, linked once, private to its owner (mode 0600) and short enough. -/
def validateFile (metadata : FileMetadata) : Except TransferStoreError Unit := do
  if metadata.kind ≠ .regular ∨ metadata.links ≠ 1 then .error .unsafeEntry
  else
    validatePermissions metadata 384
    if maxTransferRecordLen < metadata.len then .error .recordTooLarge else .ok ()

/-- An entry of the directory of a transfer: its name, if it is a text; the metadata before and after
it was opened; and what it was read as. -/
structure RecordFile where
  name : Option String
  before : Except TransferIoError FileMetadata
  opened : Except TransferIoError FileMetadata
  record : Except TransferRecordError TransferRecord

/-- The directory of a transfer: its metadata, whether it could be opened, and its entries. -/
structure RecordDirectory where
  metadata : Except TransferIoError FileMetadata
  opened : Except TransferIoError Unit
  entries : List (Except TransferIoError RecordFile)

/-- Reads a record and checks that nobody exchanged the file meanwhile. -/
def readRecord (file : RecordFile) : Except TransferStoreError TransferRecord := do
  let before ← file.before.mapError .io
  validateFile before
  let opened ← file.opened.mapError .io
  validateFile opened
  if before.device ≠ opened.device ∨ before.inode ≠ opened.inode then .error .unsafeEntry
  else file.record.mapError .record

/-! ### The scan -/

/-- Structurally validated disk state. -/
structure StoredTransfer where
  manifest : TransferManifest
  accepted : Bool
  terminal : Option (TransferTerminalStatus × TerminalOrigin)
  deriving DecidableEq

/-- What was found so far. -/
structure Found where
  manifest : Option TransferManifest := none
  accepted : Option TransferRecord := none
  terminal : Option TransferRecord := none
  deriving DecidableEq

/-- Files a record under the name of its file; the kind has to match, and none may come twice. -/
def Found.insert (found : Found) (name : String) (record : TransferRecord) :
    Except TransferStoreError Found :=
  match record with
  | .manifest value =>
    if name = "manifest" ∧ found.manifest = none then .ok { found with manifest := some value }
    else .error .wrongRecordKind
  | .accepted _ =>
    if name = "accepted" ∧ found.accepted = none then .ok { found with accepted := some record }
    else .error .wrongRecordKind
  | .terminal _ _ _ =>
    if name = "terminal" ∧ found.terminal = none then .ok { found with terminal := some record }
    else .error .wrongRecordKind

/-- One entry, of which there have been `count` before. -/
def scanEntry (count : ℕ) (found : Found) (file : RecordFile) : Except TransferStoreError Found :=
  if 3 < count + 1 then .error .invalidEntry
  else
    match file.name with
    | none => .error .invalidEntry
    | some name =>
      if name ∈ ["manifest", "accepted", "terminal"] then do
        let record ← readRecord file
        found.insert name record
      else .error .invalidEntry

/-- The files of one transfer, none of them twice. -/
def scanEntries (count : ℕ) (found : Found) :
    List (Except TransferIoError RecordFile) → Except TransferStoreError Found
  | [] => .ok found
  | entry :: entries => do
    let file ← entry.mapError .io
    let found ← scanEntry count found file
    scanEntries (count + 1) found entries

section Digest

variable (blake3 : Bytes → FixedBytes 32)

/-- A marker belongs to the manifest. -/
def checkMarker (manifest : TransferManifest) (marker : TransferRecord) :
    Except TransferStoreError Unit :=
  (marker.validateMarker blake3 manifest).mapError .record

/-- The terminal marker, checked against the manifest and the acceptance. -/
def checkTerminal (manifest : TransferManifest) (accepted : Bool) (marker : TransferRecord) :
    Except TransferStoreError (TransferTerminalStatus × TerminalOrigin) := do
  checkMarker blake3 manifest marker
  match marker with
  | .terminal _ status origin =>
    if manifest.source = .incoming ∧
        (status = .completed ∧ accepted = false ∨ status = .rejected ∧ accepted = true) then
      .error .inconsistentMarkers
    else .ok (status, origin)
  | _ => .error .wrongRecordKind

/-- What was found, checked as a whole. -/
def checkFound (id : TransferId) (found : Found) : Except TransferStoreError StoredTransfer := do
  match found.manifest with
  | none => .error .missingManifest
  | some manifest =>
    if manifest.transferId ≠ id then .error .manifestIdMismatch
    else
      found.accepted.forM (checkMarker blake3 manifest)
      let terminal ← found.terminal.mapM (checkTerminal blake3 manifest found.accepted.isSome)
      return ⟨manifest, found.accepted.isSome, terminal⟩

/-- The transfer in a directory. -/
def scanRecord (directory : RecordDirectory) (id : TransferId) :
    Except TransferStoreError StoredTransfer := do
  let metadata ← directory.metadata.mapError .io
  validateDirectory metadata
  directory.opened.mapError .io
  let found ← scanEntries 0 {} directory.entries
  checkFound blake3 id found

/-! ### What belongs together -/

/-- The manifests with markers that make sense together: only the receiver accepts, completes and
rejects; it completes what it accepted, and rejects what it did not accept. -/
structure StoredTransfer.Consistent (stored : StoredTransfer) : Prop where
  accepted : stored.accepted = true → stored.manifest.source = .incoming
  decided : ∀ status origin, stored.terminal = some (status, origin) → status.receiverOnly = true →
    (stored.manifest.source = .incoming ↔ origin = .localSide)
  completed : ∀ origin, stored.terminal = some (.completed, origin) →
    stored.manifest.source = .incoming → stored.accepted = true
  rejected : ∀ origin, stored.terminal = some (.rejected, origin) →
    stored.manifest.source = .incoming → stored.accepted = false

/-- The marker of an outcome. -/
def TransferManifest.terminalMarker (manifest : TransferManifest)
    (outcome : TransferTerminalStatus × TerminalOrigin) : TransferRecord :=
  .terminal (manifest.digest blake3) outcome.1 outcome.2

/-- The marker of an acceptance, if there was one. -/
def TransferManifest.acceptedMarker (manifest : TransferManifest) : Bool → Option TransferRecord
  | true => some (.accepted (manifest.digest blake3))
  | false => none

/-- The records of a stored transfer. -/
def StoredTransfer.found (stored : StoredTransfer) : Found where
  manifest := some stored.manifest
  accepted := stored.manifest.acceptedMarker blake3 stored.accepted
  terminal := stored.terminal.map (stored.manifest.terminalMarker blake3)

/-- Each marker is of its kind. -/
structure Found.Sorted (found : Found) : Prop where
  accepted : ∀ marker, found.accepted = some marker → ∃ digest, marker = .accepted digest
  terminal : ∀ marker, found.terminal = some marker →
    ∃ digest status origin, marker = .terminal digest status origin

theorem Found.sorted_empty : ({} : Found).Sorted :=
  ⟨fun _ h => (by cases h), fun _ h => (by cases h)⟩

theorem Found.Sorted.insert {found found' : Found} {name : String} {record : TransferRecord}
    (hs : found.Sorted) (h : found.insert name record = .ok found') : found'.Sorted := by
  unfold Found.insert at h
  split at h <;> split_ifs at h <;> cases h
  · exact ⟨hs.accepted, hs.terminal⟩
  · exact ⟨fun _ h => ⟨_, (Option.some.inj h).symm⟩, hs.terminal⟩
  · exact ⟨hs.accepted, fun _ h => ⟨_, _, _, (Option.some.inj h).symm⟩⟩

theorem Found.Sorted.scanEntry {count : ℕ} {found found' : Found} {file : RecordFile}
    (hs : found.Sorted) (h : scanEntry count found file = .ok found') : found'.Sorted := by
  unfold Transfer.scanEntry at h
  split_ifs at h
  split at h
  · cases h
  · split_ifs at h
    obtain ⟨record, -, h⟩ := bind_eq_ok h
    exact hs.insert h

theorem Found.Sorted.scanEntries {found' : Found} :
    ∀ {entries : List (Except TransferIoError RecordFile)} {count : ℕ} {found : Found},
      found.Sorted → scanEntries count found entries = .ok found' → found'.Sorted
  | [], _, _, hs, h => by cases h; exact hs
  | _ :: _, _, _, hs, h => by
    obtain ⟨_, -, h⟩ := bind_eq_ok h
    obtain ⟨_, he, h⟩ := bind_eq_ok h
    exact (hs.scanEntry he).scanEntries h

theorem checkMarker_ok_iff {manifest : TransferManifest} {marker : TransferRecord} :
    checkMarker blake3 manifest marker = .ok () ↔
      marker.binding = some (manifest.digest blake3) ∧ marker.checkRole manifest.source = .ok () := by
  rw [← validateMarker_ok_iff]
  unfold checkMarker
  refine ⟨mapError_eq_ok, fun h => ?_⟩
  rw [h]
  rfl

theorem checkTerminal_ok_iff {manifest : TransferManifest} {accepted : Bool}
    {digest : FixedBytes 32} {status : TransferTerminalStatus} {origin : TerminalOrigin}
    {outcome : TransferTerminalStatus × TerminalOrigin} :
    checkTerminal blake3 manifest accepted (.terminal digest status origin) = .ok outcome ↔
      outcome = (status, origin) ∧ digest = manifest.digest blake3 ∧
      (status.receiverOnly = true → (manifest.source = .incoming ↔ origin = .localSide)) ∧
      (manifest.source = .incoming →
        (status = .completed → accepted = true) ∧ (status = .rejected → accepted = false)) := by
  have hrole : (TransferRecord.terminal digest status origin).checkRole manifest.source = .ok () ↔
      (status.receiverOnly = true → (manifest.source = .incoming ↔ origin = .localSide)) := by
    simp only [TransferRecord.checkRole]
    split_ifs with h
    · exact ⟨fun h => (by cases h), fun h' => absurd (h' h.1) h.2⟩
    · exact ⟨fun _ hs => by_contra fun hn => h ⟨hs, hn⟩, fun _ => rfl⟩
  constructor
  · intro h
    obtain ⟨_, hm, h⟩ := bind_eq_ok h
    obtain ⟨hb, hr⟩ := (checkMarker_ok_iff blake3).mp hm
    simp only at h
    split_ifs at h with hc
    cases h
    refine ⟨rfl, Option.some.inj hb, hrole.mp hr, fun hi => ⟨fun hs => ?_, fun hs => ?_⟩⟩
    · by_contra hn
      exact hc ⟨hi, Or.inl ⟨hs, by simpa using hn⟩⟩
    · by_contra hn
      exact hc ⟨hi, Or.inr ⟨hs, by simpa using hn⟩⟩
  · rintro ⟨rfl, rfl, hr, hc⟩
    have hm : checkMarker blake3 manifest (.terminal (manifest.digest blake3) status origin) = .ok () :=
      (checkMarker_ok_iff blake3).mpr ⟨rfl, hrole.mpr hr⟩
    unfold checkTerminal
    rw [hm]
    refine if_neg ?_
    rintro ⟨hi, ⟨hs, ha⟩ | ⟨hs, ha⟩⟩
    · exact Bool.false_ne_true (ha.symm.trans ((hc hi).1 hs))
    · exact Bool.false_ne_true (((hc hi).2 hs).symm.trans ha)

theorem forM_checkMarker_ok_iff {manifest : TransferManifest} {accepted : Option TransferRecord}
    (hs : ∀ marker, accepted = some marker → ∃ digest, marker = .accepted digest) :
    accepted.forM (checkMarker blake3 manifest) = .ok () ↔
      accepted = manifest.acceptedMarker blake3 accepted.isSome ∧
        (accepted.isSome = true → manifest.source = .incoming) := by
  rcases accepted with _ | marker
  · exact ⟨fun _ => ⟨rfl, nofun⟩, fun _ => rfl⟩
  · obtain ⟨digest, rfl⟩ := hs _ rfl
    refine (checkMarker_ok_iff blake3).trans ?_
    by_cases hi : manifest.source = .incoming <;>
      simp [TransferRecord.binding, TransferRecord.checkRole, TransferManifest.acceptedMarker, hi]

theorem mapM_checkTerminal_ok_iff {manifest : TransferManifest} {accepted : Bool}
    {terminal : Option TransferRecord}
    (hs : ∀ marker, terminal = some marker →
      ∃ digest status origin, marker = .terminal digest status origin)
    {outcome : Option (TransferTerminalStatus × TerminalOrigin)} :
    terminal.mapM (checkTerminal blake3 manifest accepted) = .ok outcome ↔
      terminal = outcome.map (manifest.terminalMarker blake3) ∧
        ∀ status origin, outcome = some (status, origin) →
          (status.receiverOnly = true → (manifest.source = .incoming ↔ origin = .localSide)) ∧
          (manifest.source = .incoming →
            (status = .completed → accepted = true) ∧ (status = .rejected → accepted = false)) := by
  rcases terminal with _ | marker
  · constructor
    · intro h
      cases h
      exact ⟨rfl, nofun⟩
    · rintro ⟨h, -⟩
      rw [Option.map_eq_none_iff.mp h.symm]
      rfl
  · obtain ⟨digest, status, origin, rfl⟩ := hs _ rfl
    constructor
    · intro h
      obtain ⟨outcome', ht, h⟩ := bind_eq_ok h
      cases h
      obtain ⟨rfl, rfl, hc⟩ := (checkTerminal_ok_iff blake3).mp ht
      refine ⟨rfl, fun s o heq => ?_⟩
      cases heq
      exact hc
    · rintro ⟨heq, hc⟩
      obtain ⟨⟨s, o⟩, rfl, hm⟩ := Option.map_eq_some_iff.mp heq.symm
      cases hm
      have ht := (checkTerminal_ok_iff blake3).mpr ⟨rfl, rfl, hc s o rfl⟩
      change (do let x ← checkTerminal blake3 manifest accepted _; pure (some x)) = _
      rw [ht]
      rfl

/-- **What passes as a whole.** The records of a consistent transfer under its own identifier. -/
theorem checkFound_ok_iff {id : TransferId} {found : Found} (hs : found.Sorted)
    {stored : StoredTransfer} : checkFound blake3 id found = .ok stored ↔
      found = stored.found blake3 ∧ stored.manifest.transferId = id ∧ stored.Consistent := by
  obtain ⟨_ | manifest, accepted, terminal⟩ := found
  · exact ⟨fun h => (by cases h), fun h => (by cases h.1)⟩
  constructor
  · intro h
    simp only [checkFound] at h
    split_ifs at h with hid
    obtain ⟨_, ha, h⟩ := bind_eq_ok h
    obtain ⟨outcome, ht, h⟩ := bind_eq_ok h
    cases h
    obtain ⟨ha, hi⟩ := (forM_checkMarker_ok_iff blake3 hs.accepted).mp ha
    obtain ⟨rfl, hc⟩ := (mapM_checkTerminal_ok_iff blake3 hs.terminal).mp ht
    exact ⟨congrArg (Found.mk (some manifest) · _) ha, not_not.mp hid, hi, fun s o h => (hc s o h).1,
      fun o h hi => ((hc _ o h).2 hi).1 rfl, fun o h hi => ((hc _ o h).2 hi).2 rfl⟩
  · rintro ⟨heq, rfl, hc⟩
    obtain ⟨manifest, accept, outcome⟩ := stored
    cases heq
    have hsome : (manifest.acceptedMarker blake3 accept).isSome = accept := by cases accept <;> rfl
    have ha : (manifest.acceptedMarker blake3 accept).forM (checkMarker blake3 manifest) = .ok () :=
      (forM_checkMarker_ok_iff blake3 hs.accepted).mpr
        ⟨by rw [hsome], by rw [hsome]; exact hc.accepted⟩
    have ht : (outcome.map (manifest.terminalMarker blake3)).mapM
        (checkTerminal blake3 manifest accept) = .ok outcome :=
      (mapM_checkTerminal_ok_iff blake3 hs.terminal).mpr ⟨rfl, fun s o h => ⟨hc.decided s o h, fun hi =>
        ⟨fun hs => hc.completed o (hs ▸ h) hi, fun hs => hc.rejected o (hs ▸ h) hi⟩⟩⟩
    simp only [checkFound, hsome, ha, ht, ne_eq, not_true_eq_false, if_false]
    rfl

theorem validateMarker_of_mem_found {stored : StoredTransfer} (hc : stored.Consistent)
    {marker : TransferRecord}
    (h : marker ∈ (stored.found blake3).accepted ∨ marker ∈ (stored.found blake3).terminal) :
    marker.validateMarker blake3 stored.manifest = .ok () := by
  rw [validateMarker_ok_iff]
  obtain ⟨manifest, accepted, terminal⟩ := stored
  rcases h with h | h
  · rcases accepted with _ | _
    · cases h
    · cases h
      exact ⟨rfl, if_pos (hc.accepted rfl)⟩
  · obtain ⟨⟨status, origin⟩, rfl, rfl⟩ := Option.map_eq_some_iff.mp h
    exact ⟨rfl, if_neg fun hn => hn.2 (hc.decided status origin rfl hn.1)⟩

theorem consistent_of_scanRecord {directory : RecordDirectory} {id : TransferId}
    {stored : StoredTransfer} (h : scanRecord blake3 directory id = .ok stored) :
    stored.manifest.transferId = id ∧ stored.Consistent := by
  obtain ⟨_, -, h⟩ := bind_eq_ok h
  obtain ⟨_, -, h⟩ := bind_eq_ok h
  obtain ⟨_, -, h⟩ := bind_eq_ok h
  obtain ⟨found, he, h⟩ := bind_eq_ok h
  have hs : found.Sorted := Found.sorted_empty.scanEntries he
  exact ((checkFound_ok_iff blake3 hs).mp h).2

/-! ### What is accepted, in any order -/

/-- A file name and the record behind it. -/
abbrev Filed := String × TransferRecord

/-- One more record, unless the scan has failed. -/
def place (found : Except TransferStoreError Found) (filed : Filed) :
    Except TransferStoreError Found :=
  found >>= (·.insert filed.1 filed.2)

/-- Records can be filed in any order: a name and a kind that do not match fail at any time, and of
two records of one kind the later fails. -/
instance : RightCommutative place where
  right_comm found a b := by
    rcases found with e | found
    · rfl
    obtain ⟨n, r⟩ := a
    obtain ⟨m, q⟩ := b
    obtain ⟨manifest, accepted, terminal⟩ := found
    cases r <;> cases q <;> simp only [place, bind, Except.bind, Found.insert] <;> split_ifs <;>
      simp_all

/-- The entries are files with these names and records, which can be read. -/
def Lists (entries : List (Except TransferIoError RecordFile)) (files : List Filed) : Prop :=
  List.Forall₂ (fun entry filed => ∃ file, entry = .ok file ∧ file.name = some filed.1 ∧
    readRecord file = .ok filed.2) entries files

theorem foldl_place_error (e : TransferStoreError) :
    ∀ files : List Filed, files.foldl place (.error e) = .error e
  | [] => rfl
  | _ :: files => foldl_place_error e files

theorem scanEntries_eq_foldl {entries : List (Except TransferIoError RecordFile)}
    {files : List Filed} (hl : Lists entries files)
    (hn : ∀ filed ∈ files, filed.1 ∈ ["manifest", "accepted", "terminal"]) :
    ∀ {count : ℕ} {found : Found}, count + files.length ≤ 3 →
      scanEntries count found entries = files.foldl place (.ok found) := by
  induction hl with
  | nil => intros; rfl
  | @cons entry filed entries files hfile hl ih =>
    intro count found hc
    obtain ⟨file, rfl, hname, hread⟩ := hfile
    rw [List.length_cons] at hc
    have he : scanEntry count found file = place (.ok found) filed := by
      unfold scanEntry
      rw [if_neg (by omega), hname]
      simp only [hn filed List.mem_cons_self, if_true, hread]
      rfl
    change (scanEntry count found file >>= fun found => scanEntries (count + 1) found entries) =
      files.foldl place (place (.ok found) filed)
    rw [he]
    rcases place (.ok found) filed with e | found'
    · exact (foldl_place_error e files).symm
    · exact ih (fun f hf => hn f (List.mem_cons_of_mem _ hf)) (by omega)

/-- The files of a stored transfer. -/
def StoredTransfer.files (stored : StoredTransfer) : List Filed :=
  ("manifest", .manifest stored.manifest) ::
    ((stored.manifest.acceptedMarker blake3 stored.accepted).toList.map ("accepted", ·) ++
      (stored.terminal.map (stored.manifest.terminalMarker blake3)).toList.map ("terminal", ·))

theorem foldl_place_files (stored : StoredTransfer) :
    (stored.files blake3).foldl place (.ok {}) = .ok (stored.found blake3) := by
  obtain ⟨manifest, _ | _, _ | ⟨status, origin⟩⟩ := stored <;> rfl

theorem name_of_mem_files {stored : StoredTransfer} {filed : Filed}
    (h : filed ∈ stored.files blake3) : filed.1 ∈ ["manifest", "accepted", "terminal"] := by
  rcases List.mem_cons.mp h with rfl | h
  · simp
  · rcases List.mem_append.mp h with h | h <;> obtain ⟨_, -, rfl⟩ := List.mem_map.mp h <;> simp

/-- The directory is private, can be read, and lists these files in some order. -/
structure RecordDirectory.Holds (directory : RecordDirectory) (files : List Filed) : Prop where
  guarded : ∃ metadata, directory.metadata = .ok metadata ∧ validateDirectory metadata = .ok ()
  opened : directory.opened = .ok ()
  lists : ∃ order, order.Perm files ∧ Lists directory.entries order

/-- **Every consistent transfer is accepted**, in whatever order its files are listed. -/
theorem scanRecord_of_holds {directory : RecordDirectory} {stored : StoredTransfer}
    (hc : stored.Consistent) (hd : directory.Holds (stored.files blake3)) :
    scanRecord blake3 directory stored.manifest.transferId = .ok stored := by
  obtain ⟨⟨metadata, hm, hv⟩, ho, order, hperm, hl⟩ := hd
  have hshort : order.length ≤ 3 := by
    rw [hperm.length_eq]
    obtain ⟨manifest, _ | _, _ | _⟩ := stored <;> simp [StoredTransfer.files,
      TransferManifest.acceptedMarker]
  have hnames : ∀ filed ∈ order, filed.1 ∈ ["manifest", "accepted", "terminal"] :=
    fun filed hf => name_of_mem_files blake3 (hperm.subset hf)
  have hfound : scanEntries 0 {} directory.entries = .ok (stored.found blake3) := by
    rw [scanEntries_eq_foldl hl hnames (by omega), hperm.foldl_eq, foldl_place_files]
  have hs : (stored.found blake3).Sorted := Found.sorted_empty.scanEntries hfound
  have hok := (checkFound_ok_iff blake3 hs).mpr ⟨rfl, rfl, hc⟩
  simp only [scanRecord, hm, ho, Except.mapError, hv, hfound, hok, bind, Except.bind]

/-- A directory with these files. -/
def RecordDirectory.ofFiles (files : List Filed) : RecordDirectory where
  metadata := .ok ⟨.directory, 448, 2, 0, 0, 0⟩
  opened := .ok ()
  entries := files.map fun filed =>
    let metadata : FileMetadata := ⟨.regular, 384, 1, 0, 0, 0⟩
    .ok ⟨some filed.1, .ok metadata, .ok metadata, .ok filed.2⟩

theorem RecordDirectory.holds_ofFiles (files : List Filed) : (ofFiles files).Holds files := by
  refine ⟨⟨_, rfl, rfl⟩, rfl, files, .refl _, List.forall₂_map_left_iff.mpr ?_⟩
  exact List.forall₂_same.mpr fun filed _ => ⟨_, rfl, rfl, rfl⟩

end Digest

end Rift.Transfer
