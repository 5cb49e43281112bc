import Rift.Daemon.FavouredSteps
import Rift.Lib.Duo

/-! # Two daemons that dial each other

Two daemons trust each other, and each dials the other one. Of the connections between them, one was
dialled by the device with the smaller identity. Each supervisor decides with what it sees at its own end,
and what one closes the other sees at any later time; still both keep that connection.

Main result: `cross_dials_converge`. -/

namespace Rift.Daemon

open Rift.Lib Rift.Lib.Dialogue Rift.Core Rift.Ipc Rift.Session Std
open Rift.Trust hiding Event

variable {blake3 : Blake3} {c : Authorized} {σ : Daemon} {s : Step}

/-- Of the two ends, the first has dialled the connection and the second has accepted it. -/
def side : Party → SessionOrigin
  | .first => .outbound
  | .second => .inbound

/-- **The connection is established at this end**, which has dialled or accepted it: the task `id` has it
as a candidate, or it is a session. It is open, and the peer is trusted at the generation it was admitted
with. Every other connection is another one, and none of them was made from the same side. -/
structure EstablishedAs (c : Authorized) (side : SessionOrigin) (id : ℕ) (session : Option SessionId)
    (σ : Daemon) : Prop where
  located : Located c side σ.tasks σ.sessions σ.outbound (some id) session
  isOpen : c.connection ∉ σ.shared.closed
  allocated : c.connection < σ.shared.nextConnection
  trusted : σ.shared.store.state c.remoteDeviceId = some .trusted
  generation : σ.shared.store.currentGeneration c.remoteDeviceId = c.trustGeneration
  tasks : ∀ (id' : ℕ) (t : Task), σ.tasks[id']? = some t → id ≠ id' → Bystander side c session t
  sessions : ∀ (s : SessionId) (record : SessionRecord), σ.sessions[s]? = some record →
    record.closer = c.connection ∨ record.info.deviceId = c.remoteDeviceId ∧ record.origin = side →
    session = some s
  pairings : ∀ (a : PairingAttemptId) (record : PendingRecord), σ.pendingPairings[a]? = some record →
    record.info.deviceId = c.remoteDeviceId → record.origin ≠ side

/-- In whichever task the connection is, and whether or not it is a session yet. -/
def Established (c : Authorized) (side : SessionOrigin) (σ : Daemon) : Prop :=
  ∃ (id : ℕ) (session : Option SessionId), EstablishedAs c side id session σ

theorem EstablishedAs.favours {id : ℕ} {session : Option SessionId} (hs : Sound σ)
    (h : EstablishedAs c (preferred σ.deviceId c.remoteDeviceId) id session σ) :
    Favours c (some id) session σ where
  located := h.located
  bystanders id' t ht hid := h.tasks id' t ht fun heq => hid (congrArg some heq)
  fresh id' t ht := ⟨hs.tasked.fresh id' t ht, fun s c' hk => (hs.tasked.session id' t s c' ht hk).1⟩
  unpaired := h.pairings
  unrivalled := h.sessions
  isOpen := h.isOpen
  allocated := h.allocated
  trusted := h.trusted
  generation := h.generation
  keyed := hs.keyed

/-- The end has handled the connection. -/
def HandedOver (c : Authorized) (σ : Daemon) : Prop :=
  ∀ (id : ℕ) (t : Task), σ.tasks[id]? = some t → t.candidate ≠ some c

/-- **The connection is the session of its peer**, the only one, and the peer needs no retry. -/
structure Canonical (c : Authorized) (σ : Daemon) : Prop where
  session : ∃ (s : SessionId) (record : SessionRecord), σ.sessions[s]? = some record ∧
    record.info.deviceId = c.remoteDeviceId ∧ record.closer = c.connection ∧
    ∀ (s' : SessionId) (record' : SessionRecord), σ.sessions[s']? = some record' →
      record'.info.deviceId = c.remoteDeviceId → s' = s
  peer : ∃ p : Peer, σ.connectivity.peers[c.remoteDeviceId]? = some p ∧ p.state = .connected ∧
    p.due = none

theorem Favoured.canonical {id : ℕ} {session : Option SessionId} (h : Favours c (some id) session σ)
    (hs : Sound σ) (hd : HandedOver c σ) : Canonical c σ := by
  cases h.located with
  | accepted _ ht => exact absurd rfl (hd id _ ht)
  | dialled _ ht => exact absurd rfl (hd id _ ht)
  | @registered _ s record _ hr hdevice hk =>
    obtain ⟨p, hp, hps⟩ := hs.registered.linked s record hr
    have hconnected := hs.registered.connected s record p hr (hk ▸ h.isOpen) hp
    refine ⟨⟨s, record, hr, hdevice, hk, fun s' record' hr' hd' => ?_⟩, p, hdevice ▸ hp, hconnected, ?_⟩
    · exact hs.registered.unique hr' hr (hd'.trans hdevice.symm)
    · refine Option.not_isSome_iff_eq_none.mp fun hdue => ?_
      rcases (hs.registered.wellFormed _ p hp).due_iff.mp hdue with hstate | hstate
      · cases hconnected.symm.trans hstate
      · cases hconnected.symm.trans hstate

theorem preferred_of_lt {a b : DeviceId} (h : compare a b = .lt) :
    preferred a b = .outbound ∧ preferred b a = .inbound := by
  have hgt : compare b a = .gt := OrientedCmp.gt_of_lt h
  simp [preferred, h, hgt]

/-! ### Runs -/

/-- **Cross-dial convergence.** Two daemons trust each other and share a connection that the smaller of
them has dialled, next to any others. Whatever they do, as long as neither is disturbed and a close
of the connection comes from one of them: neither closes it, and each end that has handled it has it as
the only session with the other device, which is connected and needs no retry. -/
theorem cross_dials_converge {w : Party → Daemon} {c : Party → Authorized}
    {events : List (Party × Step)} (hreach : ∀ p, Reachable blake3 (w p))
    (hlt : compare (w .first).deviceId (w .second).deviceId = .lt)
    (hremote : ∀ p, (c p).remoteDeviceId = (w p.other).deviceId)
    (hestablished : ∀ p, Established (c p) (side p) (w p))
    (hmeets : Duo.Meets (step blake3)
      (fun p σ τ s => Undisturbed ((c p.other).connection ∈ τ.shared.closed) (c p) σ s) w events)
    (p : Party) :
    (c p).connection ∉ (Duo.run (step blake3) w events p).shared.closed ∧
      (HandedOver (c p) (Duo.run (step blake3) w events p) →
        Canonical (c p) (Duo.run (step blake3) w events p)) := by
  have hside (p : Party) : preferred (w p).deviceId (c p).remoteDeviceId = side p := by
    rw [hremote p]
    cases p with
    | first => exact (preferred_of_lt hlt).1
    | second => exact (preferred_of_lt hlt).2
  -- Each end keeps the connection while the other end has not closed it.
  have hkept := hmeets.keep (I := fun p σ => Reachable blake3 σ ∧
      ∃ id session, Favours (c p) (some id) session σ) (fun p σ τ s hσ hτ hu => ?_)
    (fun p => ⟨hreach p, ?_⟩) p
  · obtain ⟨hr, id, session, hfavours⟩ := hkept
    exact ⟨hfavours.isOpen, hfavours.canonical hr.sound⟩
  · obtain ⟨hr, id, session, hfavours⟩ := hσ
    obtain ⟨-, _, _, hother⟩ := hτ
    exact ⟨hr.after [s], hfavours.step hr.sound hr.fitting hu hother.isOpen⟩
  · obtain ⟨id, session, hestablished⟩ := hestablished p
    rw [← hside p] at hestablished
    exact ⟨id, session, hestablished.favours (hreach p).sound⟩

/-! ### Two small daemons -/

/-- A task brings the connection, and if it was dialled, the dial is on record. -/
def brings (c : Authorized) (side : SessionOrigin) (id : ℕ) (σ : Daemon) : Bool :=
  match side, σ.tasks[id]? with
  | .inbound, some (.incoming (.done (.ok (.authorized c')))) => c' = c
  | .outbound, some (.outbound d token false (.done (.ok (.authorized c')))) =>
    c' = c ∧ d = c.remoteDeviceId ∧ σ.outbound[d]?.any fun record =>
      record.token = token ∧ record.pairing = false ∧ record.cancelled = false
  | _, _ => false

theorem located_of_brings {side : SessionOrigin} {id : ℕ} (h : brings c side id σ = true) :
    Located c side σ.tasks σ.sessions σ.outbound (some id) none := by
  unfold brings at h
  split at h
  case h_1 c' ht =>
    obtain rfl := of_decide_eq_true h
    exact .accepted rfl ht
  case h_2 d token c' ht =>
    obtain ⟨rfl, rfl, hrecord⟩ := of_decide_eq_true h
    obtain ⟨record, hr, hrecord⟩ := (Option.any_eq_true ..).mp hrecord
    obtain ⟨rfl, hp, hc⟩ := of_decide_eq_true hrecord
    exact .dialled rfl ht hr hp hc
  case h_3 => cases h

/-- The task brings a connection with the device from that side. -/
def Task.rivals (side : SessionOrigin) (d : DeviceId) : Task → Bool
  | .incoming phase => side = .inbound ∧ phase.identity = some d
  | .outbound d' _ _ _ => side = .outbound ∧ d' = d
  | _ => false

theorem bystander_of_not_rivals {side : SessionOrigin} {t : Task}
    (hk : t.connection ≠ some c.connection) (hr : t.rivals side c.remoteDeviceId = false) :
    Bystander side c none t := by
  refine ⟨hk, fun hin hside hself => ?_, fun token pairs hout hside => ?_, fun _ _ _ => nofun⟩
  · cases t with
    | incoming phase => exact of_decide_eq_false hr ⟨hside, hself⟩
    | _ => cases hin
  · cases t with
    | outbound d _ _ phase =>
      cases hout
      exact of_decide_eq_false hr ⟨hside, rfl⟩
    | _ => cases hout

/-- The connection is established as a candidate, and there is neither a session nor a pairing yet. -/
def establishes (c : Authorized) (side : SessionOrigin) (id : ℕ) (σ : Daemon) : Bool :=
  brings c side id σ ∧ c.connection ∉ σ.shared.closed ∧ c.connection < σ.shared.nextConnection ∧
    σ.shared.store.state c.remoteDeviceId = some .trusted ∧
    σ.shared.store.currentGeneration c.remoteDeviceId = c.trustGeneration ∧
    (∀ entry ∈ σ.tasks.toList, id = entry.1 ∨ entry.2.connection ≠ some c.connection ∧
      entry.2.rivals side c.remoteDeviceId = false) ∧
    σ.sessions = ∅ ∧ σ.pendingPairings = ∅

theorem established_of_establishes {side : SessionOrigin} {id : ℕ}
    (h : establishes c side id σ = true) : Established c side σ := by
  obtain ⟨hbrings, hopen, hnext, htrusted, hgeneration, htasks, hsessions, hpairings⟩ :=
    of_decide_eq_true h
  refine ⟨id, none, located_of_brings hbrings, hopen, hnext, htrusted, hgeneration,
    fun id' t ht hne => ?_, fun s record hr => ?_, fun a record hr => ?_⟩
  · obtain ⟨hk, hrivals⟩ := (htasks (id', t)
      (ExtTreeMap.mem_toList_iff_getElem?_eq_some.mpr ht)).resolve_left hne
    exact bystander_of_not_rivals hk hrivals
  · rw [hsessions] at hr
    simp at hr
  · rw [hpairings] at hr
    simp at hr

/-- There is room for the only session there may be. -/
def hasRoom (d : DeviceId) (σ : Daemon) : Bool :=
  d ∈ σ.connectivity.peers ∧ ((∃ entry ∈ σ.sessions.toList, entry.2.info.deviceId = d) ∨
    σ.sessions.size < σ.config.maxActiveSessions) ∧ σ.tasks.size < hardMaxOwnedTasks - 1 ∧
    σ.nextSessionId ≠ u64Max

theorem undisturbed_join {closed : Prop} {id : ℕ} (h : hasRoom c.remoteDeviceId σ = true) :
    Undisturbed closed c σ (.join id []) where
  closes := nofun
  ended _ _ hact := nomatch hact
  accepts _ _ hact := nomatch hact
  timer := nofun
  command := nofun
  room _ _ _ _ _ _ := by
    obtain ⟨hpeer, hsession, htasks, hids⟩ := of_decide_eq_true h
    refine ⟨Or.inl hpeer, hsession.imp_left ?_, htasks, hids⟩
    rintro ⟨⟨s, record⟩, hmem, hd⟩
    exact ⟨s, record, ExtTreeMap.mem_toList_iff_getElem?_eq_some.mp hmem, hd⟩

def sampleId : Party → DeviceId
  | .first => .repeated 1
  | .second => .repeated 2

/-- The peer that a daemon trusts: the other one. -/
def sampleRemote (p : Party) : TrustedPeer := { samplePeer with deviceId := sampleId p.other }

/-- Each daemon dials the other, and accepts what the other has dialled. -/
def sampleCrossing (p : Party) : List Step :=
  let hello := { sampleHello with deviceId := sampleId p.other }
  .command (.request (.connectPeer hello.deviceId) 0 .ok) [] ::
    taskDoes 2 [.bootstrap (.ok hello), .proceed, .proceed, .exchange (.ok ()), .proceed, .proceed] ++
    taskDoes 0 [.bootstrap (.ok hello), .proceed, .intent (.ok .authorizedSession), .proceed,
      .exchange (.ok ()), .proceed, .proceed]

/-- The tasks that have the connection that is preferred, and the other one. -/
def sampleHolder : Party → ℕ × ℕ
  | .first => (2, 0)
  | .second => (0, 2)

/-- The first daemon has dialled the connection before it has accepted another one, and the second has
accepted it after it has dialled the other one. -/
def sampleEnd (p : Party) : Authorized :=
  ⟨match p with | .first => 0 | .second => 1, ⟨0, sampleRemote p⟩⟩

/-- Both daemons register the other connection first. -/
def sampleJoins : List (Party × Step) :=
  [(.second, .join 2 []), (.first, .join 0 []), (.first, .join 2 []), (.second, .join 0 [])]

/-- Two daemons with two connections between them keep the one that the first has dialled. -/
theorem sample_daemons_converge : ∃ w : Party → Daemon,
    (∀ p, Reachable sampleBlake3 (w p) ∧ Established (sampleEnd p) (side p) (w p)) ∧
    ∀ p, Canonical (sampleEnd p) (Duo.run (step sampleBlake3) w sampleJoins p) := by
  let joined (p : Party) (σ : Daemon) : Daemon := step sampleBlake3 σ (.join (sampleHolder p).2 [])
  have hready (p : Party) : ∃ σ, Reachable sampleBlake3 σ ∧ decide (σ.deviceId = sampleId p ∧
      establishes (sampleEnd p) (side p) (sampleHolder p).1 σ ∧ hasRoom (sampleId p.other) σ ∧
      hasRoom (sampleId p.other) (joined p σ) ∧
      ∀ entry ∈ (step sampleBlake3 (joined p σ) (.join (sampleHolder p).1 [])).tasks.toList,
        entry.2.candidate ≠ some (sampleEnd p)) = true := by
    refine exists_sampleRun (sampleId p)
      (some ((Call.trust (sampleRemote p)).run sampleBlake3 createdStore .ok).2.file.bytes)
      (sampleCrossing p) _ ?_
    cases p <;> decide +kernel
  choose w hreach hready using hready
  have hready (p : Party) := of_decide_eq_true (hready p)
  have hestablished (p : Party) := established_of_establishes (hready p).2.1
  have hroom (p : Party) := (hready p).2.2.1
  have hroom' (p : Party) := (hready p).2.2.2.1
  have hmeets : Duo.Meets (step sampleBlake3) (fun p σ τ s =>
      Undisturbed ((sampleEnd p.other).connection ∈ τ.shared.closed) (sampleEnd p) σ s) w
      sampleJoins :=
    ⟨undisturbed_join (hroom .second), undisturbed_join (hroom .first),
      undisturbed_join (hroom' .first), undisturbed_join (hroom' .second), trivial⟩
  have hlt : compare (w .first).deviceId (w .second).deviceId = .lt := by
    rw [(hready .first).1, (hready .second).1]
    decide
  refine ⟨w, fun p => ⟨hreach p, hestablished p⟩, fun p => ?_⟩
  refine (cross_dials_converge (c := sampleEnd) hreach hlt (fun p => (hready p.other).1.symm)
    hestablished hmeets p).2 fun id t ht => ?_
  have hhanded := (hready p).2.2.2.2 (id, t)
  rw [ExtTreeMap.mem_toList_iff_getElem?_eq_some] at hhanded
  cases p with
  | first => exact hhanded ht
  | second => exact hhanded ht

end Rift.Daemon
