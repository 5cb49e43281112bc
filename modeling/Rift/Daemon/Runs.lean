import Rift.Daemon.Handled

/-! # Runs of a daemon

A daemon starts over a journal, begins to serve, and handles events from then on.

The main results are `start_ok`, `loadEntries_spec`, `Reachable.keep` and `Reachable.sound`. -/

namespace Rift.Daemon

open Rift.Lib Rift.Lib.Interference Rift.Core Rift.Ipc Rift.Protocol Rift.Session Std
open Rift.Trust hiding Event

variable {blake3 : Blake3} {σ σ' : Daemon}

/-! ### Starting -/

section Start

variable {now : ℕ} {localId d : DeviceId} {entry : TrustEntry} {entries : List TrustEntry}
  {scheduler scheduler' : Scheduler}

/-- The entry makes the device a managed peer. -/
def Manages (localId d : DeviceId) : TrustEntry → Prop
  | .trusted peer => peer.deviceId = d ∧ d ≠ localId
  | .revoked _ => False

instance : Decidable (Manages localId d entry) :=
  match entry with
  | .trusted _ => inferInstanceAs (Decidable (_ ∧ _))
  | .revoked _ => inferInstanceAs (Decidable False)

theorem loadEntry_spec (h : loadEntry localId now scheduler entry = .ok scheduler') :
    scheduler'.peers[d]? = scheduler.peers[d]?.or
      (if Manages localId d entry then some (Peer.new now) else none) := by
  cases entry with
  | revoked d' =>
    cases h
    simp [Manages]
  | trusted peer =>
    unfold loadEntry Scheduler.insert at h
    simp only at h
    by_cases hl : peer.deviceId = localId
    · rw [if_pos hl] at h
      cases h
      have hno : ¬ Manages localId d (.trusted peer) := fun hm => hm.2 (hm.1.symm.trans hl)
      simp [hno]
    rw [if_neg hl] at h
    by_cases hd : peer.deviceId = d
    · subst hd
      have hyes : Manages localId peer.deviceId (.trusted peer) := ⟨rfl, hl⟩
      rw [if_pos hyes]
      split_ifs at h with hc
      · cases h
        obtain ⟨p, hp⟩ := Map.mem_iff_exists.mp (ExtTreeMap.contains_iff_mem.mp hc)
        simp [hp]
      · cases h
        have hnone : scheduler.peers[peer.deviceId]? = none := by simpa using hc
        simp [hnone]
    · have hno : ¬ Manages localId d (.trusted peer) := fun hm => hd hm.1
      rw [if_neg hno, Option.or_none]
      split_ifs at h
      · cases h
        rfl
      · cases h
        exact Map.insert_ne hd

theorem loadEntries_spec (h : entries.foldlM (loadEntry localId now) scheduler = .ok scheduler') :
    scheduler'.peers[d]? = scheduler.peers[d]?.or
      (if ∃ entry ∈ entries, Manages localId d entry then some (Peer.new now) else none) := by
  induction entries generalizing scheduler with
  | nil =>
    cases h
    simp
  | cons entry entries ih =>
    rw [List.foldlM_cons] at h
    cases hload : loadEntry localId now scheduler entry with
    | error e => rw [hload] at h; cases h
    | ok next =>
      rw [hload] at h
      rw [ih h, loadEntry_spec hload, Option.or_assoc]
      congr 1
      by_cases hm : Manages localId d entry <;> simp [hm]

theorem mem_listPages {store : StoreInner} (hk : Keyed store.decisions) :
    (∃ entry ∈ store.listPages maxPeerPageSize, Manages localId d entry) ↔
      store.state d = some .trusted ∧ d ≠ localId := by
  rw [listPages_eq store (by decide), state_eq_trusted_iff]
  constructor
  · rintro ⟨entry, hmem, hm⟩
    obtain ⟨⟨d', decision⟩, hd, rfl⟩ := List.mem_map.mp hmem
    rw [ExtTreeMap.mem_toList_iff_getElem?_eq_some] at hd
    cases decision with
    | revoked => exact absurd hm id
    | trusted peer =>
      obtain ⟨rfl, hl⟩ := hm
      obtain rfl := hk d' peer hd
      exact ⟨⟨peer, hd⟩, hl⟩
  · rintro ⟨⟨peer, hd⟩, hl⟩
    refine ⟨.trusted peer, List.mem_map.mpr ⟨(d, .trusted peer), ?_, rfl⟩, hk d peer hd, hl⟩
    rw [ExtTreeMap.mem_toList_iff_getElem?_eq_some]
    exact hd

variable {fails : OpenStep → Bool} {config : DaemonConfig} {existing : Option Bytes}
  {entropy : Option UInt32} {lookup : DeviceId → Except TransportFailure Bool}

/-- What a daemon starts with: the decisions of its journal, and its trusted peers. -/
structure Fresh (localId : DeviceId) (now : ℕ) (σ : Daemon) : Prop where
  deviceId : σ.deviceId = localId
  valid : σ.config.validate = .ok ()
  keyed : Keyed σ.shared.store.decisions
  bounded : GenerationsBounded σ.shared.store
  peers : ∀ d, σ.connectivity.peers[d]? =
    if σ.shared.store.state d = some .trusted ∧ d ≠ localId then some (Peer.new now) else none
  pairings : σ.pendingPairings = ∅
  sessions : σ.sessions = ∅
  outbound : σ.outbound = ∅
  events : σ.events = []
  replies : σ.replies = []
  sent : σ.sent = []

/-- **Starting.** -/
theorem start_ok (h : start blake3 fails config localId existing now entropy lookup = .ok σ) :
    Fresh localId now σ ∧ σ.tasks = ∅ ∧ openStore blake3 fails existing = .ok σ.shared.store := by
  unfold start at h
  cases hv : config.validate with
  | error e => rw [hv] at h; cases h
  | ok _ =>
    simp only [hv, bind, Except.bind] at h
    split_ifs at h
    cases ho : openStore blake3 fails existing with
    | error e => rw [ho] at h; cases h
    | ok store =>
      simp only [ho, Except.mapError] at h
      cases hload : (store.listPages maxPeerPageSize).foldlM (loadEntry localId now)
          (Scheduler.new now) with
      | error e => rw [hload] at h; cases h
      | ok connectivity =>
        rw [hload] at h
        cases h
        have hk := openStore_keyed ho
        refine ⟨⟨rfl, hv, hk, openStore_generationsBounded ho, fun d => ?_, rfl, rfl, rfl, rfl, rfl,
          rfl⟩, rfl, rfl⟩
        rw [loadEntries_spec hload]
        simp [Scheduler.new, mem_listPages hk]

theorem Fresh.sound (h : Fresh localId now σ) (ht : σ.tasks = ∅) : Sound σ := by
  have hsessions (s : SessionId) (r : SessionRecord) : σ.sessions[s]? ≠ some r := by
    rw [h.sessions]
    simp
  have hpeers (d : DeviceId) (p : Peer) (hp : σ.connectivity.peers[d]? = some p) :
      σ.shared.store.state d = some .trusted ∧ p = Peer.new now := by
    rw [h.peers d] at hp
    split_ifs at hp with hd
    exact ⟨hd.1, (Option.some.inj hp).symm⟩
  refine ⟨h.keyed, h.bounded, ?_, ?_⟩
  · refine ⟨fun s r hs => absurd hs (hsessions s r), fun d p hp => (hpeers d p hp).1,
      fun s r hs => absurd hs (hsessions s r), fun d p s hp hps => ?_, fun d p hp => ?_,
      fun s r _ hs => absurd hs (hsessions s r), fun s r hs => absurd hs (hsessions s r)⟩
    · rw [(hpeers d p hp).2] at hps
      cases hps
    · rw [(hpeers d p hp).2]
      exact Peer.wellFormed_new now
  · rw [ht, h.outbound]
    constructor <;> simp

end Start

/-- The first state in which a daemon serves. -/
def Begins (blake3 : Blake3) (σ : Daemon) : Prop :=
  ∃ fails config deviceId existing now entropy lookup σ₀,
    start blake3 fails config deviceId existing now entropy lookup = .ok σ₀ ∧ σ = serve σ₀

theorem serve_keep {P : Daemon → Prop} (h : ∀ σ, P σ → P (σ.spawn (.incoming .connecting)))
    (hσ : P σ) : P (serve σ) := by
  unfold serve
  generalize σ.config.maxInflightConnections = n
  induction n generalizing σ with
  | zero => exact hσ
  | succ n ih => exact ih (h σ hσ)

theorem Sound.nextTask_not_mem (h : Sound σ) : σ.nextTask ∉ σ.tasks := by
  rw [Map.mem_iff_exists]
  rintro ⟨t, ht⟩
  exact Nat.lt_irrefl _ (h.tasked.fresh _ t ht)

theorem Sound.size_spawn (h : Sound σ) (task : Task) :
    (σ.spawn task).tasks.size = σ.tasks.size + 1 :=
  Map.size_insert_of_not_mem h.nextTask_not_mem

theorem serve_size (h : Sound σ) :
    (serve σ).tasks.size = σ.tasks.size + σ.config.maxInflightConnections := by
  unfold serve
  generalize σ.config.maxInflightConnections = n
  induction n generalizing σ with
  | zero => rfl
  | succ n ih =>
    rw [List.replicate_succ, List.foldl_cons, ih (h.spawn rfl (Or.inl rfl)), h.size_spawn]
    omega

/-- What a daemon begins with. -/
structure Beginning (localId : DeviceId) (now : ℕ) (σ : Daemon) : Prop extends
    Fresh localId now σ where
  sound : Sound σ
  workers : ∀ (id : ℕ) (t : Task), σ.tasks[id]? = some t → t = .incoming .connecting
  size : σ.tasks.size = σ.config.maxInflightConnections

theorem Begins.beginning (h : Begins blake3 σ) : ∃ localId now, Beginning localId now σ := by
  obtain ⟨fails, config, localId, existing, now, entropy, lookup, σ₀, hstart, rfl⟩ := h
  obtain ⟨hfresh, htasks, -⟩ := start_ok hstart
  have hsound := hfresh.sound htasks
  have hserve : (serve σ₀).config = σ₀.config ∧ Fresh localId now (serve σ₀) ∧ Sound (serve σ₀) ∧
      ∀ (id : ℕ) (t : Task), (serve σ₀).tasks[id]? = some t → t = .incoming .connecting := by
    refine serve_keep (P := fun σ => σ.config = σ₀.config ∧ Fresh localId now σ ∧ Sound σ ∧
      ∀ (id : ℕ) (t : Task), σ.tasks[id]? = some t → t = .incoming .connecting) (fun σ h => ?_)
      ⟨rfl, hfresh, hsound, fun id t ht => ?_⟩
    · obtain ⟨hc, hf, hs, hw⟩ := h
      refine ⟨hc, ⟨hf.deviceId, hf.valid, hf.keyed, hf.bounded, hf.peers, hf.pairings, hf.sessions,
        hf.outbound, hf.events, hf.replies, hf.sent⟩, hs.spawn rfl (Or.inl rfl), fun id t ht => ?_⟩
      rcases Map.insert_eq_some.mp ht with ⟨-, rfl⟩ | ⟨-, ht⟩
      · rfl
      · exact hw id t ht
    · rw [htasks] at ht
      simp at ht
  obtain ⟨hconfig, hfirst, hserving, hworkers⟩ := hserve
  refine ⟨localId, now, hfirst, hserving, hworkers, ?_⟩
  rw [serve_size hsound, htasks, hconfig]
  exact Nat.zero_add _

/-! ### Runs -/

/-- A state of the running daemon between two handled events. -/
def Reachable (blake3 : Blake3) (σ : Daemon) : Prop :=
  ∃ σ₀ steps, Begins blake3 σ₀ ∧ σ = run blake3 σ₀ steps

/-- Nothing is excluded. -/
def unbounded : Bounds where
  acts _ := True
  yields _ := True
  blocked _ := True
  unreported _ := True
  abandons _ := True
  lapses _ := True
  itself := True
  drops _ := True

theorem within_unbounded (σ : Daemon) (s : Step) : Within blake3 unbounded σ s where
  acts _ _ := trivial
  timer _ _ := ⟨fun _ _ _ _ => trivial, fun _ _ _ hu => absurd trivial hu⟩
  command _ _ _ := ⟨fun _ _ _ => Or.inr trivial, fun _ _ _ hu => absurd trivial hu,
    fun _ _ _ _ _ => trivial, fun _ _ => trivial⟩
  join _ _ _ := ⟨fun _ _ _ _ => trivial, fun _ _ _ _ _ => trivial,
    fun _ _ _ _ _ _ _ _ => trivial, fun _ _ _ _ => trivial, fun _ _ _ _ => Or.inr trivial⟩

theorem Sound.handled (h : Sound σ) (s : Step) : Handled blake3 unbounded σ s (step blake3 σ s) :=
  step_handled h (within_unbounded σ s)

theorem Sound.step (h : Sound σ) (s : Step) : Sound (step blake3 σ s) := (h.handled s).sound h

theorem run_keep {P : Daemon → Prop} (hstep : ∀ σ s, Sound σ → P σ → P (step blake3 σ s)) :
    ∀ (steps : List Step) {σ : Daemon}, Sound σ → P σ →
      Sound (run blake3 σ steps) ∧ P (run blake3 σ steps)
  | [], _, h, hP => ⟨h, hP⟩
  | s :: steps, σ, h, hP => run_keep hstep steps (h.step s) (hstep σ s h hP)

/-- Every step of the run meets a condition on the state before it. -/
def Meets (blake3 : Blake3) (cond : Daemon → Step → Prop) :
    Daemon → List Step → Prop
  | _, [] => True
  | σ, s :: steps => cond σ s ∧ Meets blake3 cond (step blake3 σ s) steps

theorem Meets.keep {cond : Daemon → Step → Prop} {P : Daemon → Prop}
    (hstep : ∀ σ s, Sound σ → cond σ s → P σ → P (step blake3 σ s)) :
    ∀ {steps : List Step} {σ : Daemon}, Meets blake3 cond σ steps → Sound σ → P σ →
      Sound (run blake3 σ steps) ∧ P (run blake3 σ steps)
  | [], _, _, h, hP => ⟨h, hP⟩
  | s :: _, σ, hm, h, hP => hm.2.keep hstep (h.step s) (hstep σ s h hm.1 hP)

theorem Meets.append {cond : Daemon → Step → Prop} {later : List Step} :
    ∀ {steps : List Step} {σ : Daemon}, Meets blake3 cond σ steps →
      Meets blake3 cond (run blake3 σ steps) later → Meets blake3 cond σ (steps ++ later)
  | [], _, _, h => h
  | _ :: _, _, hm, h => ⟨hm.1, hm.2.append h⟩

theorem meets_of_forall {cond : Daemon → Step → Prop} :
    ∀ {steps : List Step} {σ : Daemon}, (∀ s ∈ steps, ∀ σ, cond σ s) → Meets blake3 cond σ steps
  | [], _, _ => trivial
  | s :: _, σ, h =>
    ⟨h s List.mem_cons_self σ, meets_of_forall fun s hs => h s (List.mem_cons_of_mem _ hs)⟩

/-- **The rule of reachable states.** -/
theorem Reachable.keep {P : Daemon → Prop} (h : Reachable blake3 σ)
    (hbegin : ∀ localId now σ, Beginning localId now σ → P σ)
    (hstep : ∀ σ s, Sound σ → P σ → P (step blake3 σ s)) : P σ := by
  obtain ⟨σ₀, steps, hbegins, rfl⟩ := h
  obtain ⟨localId, now, hfirst⟩ := hbegins.beginning
  exact (run_keep hstep steps hfirst.sound (hbegin localId now σ₀ hfirst)).2

/-- **Every reachable state is sound.** -/
theorem Reachable.sound (h : Reachable blake3 σ) : Sound σ :=
  h.keep (fun _ _ _ hb => hb.sound) fun _ s hs _ => hs.step s

theorem Reachable.after (h : Reachable blake3 σ) (steps : List Step) :
    Reachable blake3 (run blake3 σ steps) := by
  obtain ⟨σ₀, before, hbegins, rfl⟩ := h
  exact ⟨σ₀, before ++ steps, hbegins, List.foldl_append.symm⟩

/-! ### A small daemon -/

def sampleConfig : DaemonConfig where
  deviceName := "desk"
  platform := "linux"
  connectionTimeout := 1
  handshakeTimeout := 1
  pairingTimeout := 1
  maxInflightConnections := 2
  maxActiveSessions := 1
  maxOutboundConnects := 2
  maxPendingPairings := 1
  maxIpcClients := 1
  shutdownTimeout := 1

/-- A journal in which one peer is trusted. -/
def sampleJournal : Bytes :=
  ((Call.trust samplePeer).run sampleBlake3 createdStore .ok).2.file.bytes

/-- A daemon with this identity that begins over the journal. -/
def sampleBegin (localId : DeviceId) (existing : Option Bytes) : Option Daemon :=
  (start sampleBlake3 (fun _ => false) sampleConfig localId existing 0 none
    fun _ => .ok true).toOption.map serve

theorem exists_sampleBegin (localId : DeviceId) (existing : Option Bytes) (p : Daemon → Bool)
    (h : (sampleBegin localId existing).any p = true) :
    ∃ σ, Begins sampleBlake3 σ ∧ p σ = true := by
  unfold sampleBegin at h
  cases hs : start sampleBlake3 (fun _ => false) sampleConfig localId existing 0 none
      fun _ => .ok true with
  | error e =>
    rw [hs] at h
    cases h
  | ok σ₀ =>
    rw [hs] at h
    exact ⟨_, ⟨_, _, _, _, _, _, _, σ₀, hs, rfl⟩, h⟩

theorem exists_sampleRun (localId : DeviceId) (existing : Option Bytes) (steps : List Step)
    (p : Daemon → Bool)
    (h : ((sampleBegin localId existing).any fun σ => p (run sampleBlake3 σ steps)) = true) :
    ∃ σ, Reachable sampleBlake3 σ ∧ p σ = true := by
  obtain ⟨σ₀, hbegin, hp⟩ := exists_sampleBegin localId existing _ h
  exact ⟨_, ⟨σ₀, steps, hbegin, rfl⟩, hp⟩

/-- What the sample peer introduces itself with. -/
def sampleHello : Hello := ⟨1, samplePeer.deviceId, "pc", "linux", [.pairingV1]⟩

def samplePairing : PendingPairing :=
  { peer := samplePeer, pairingId := .replicate pairingIdLen 7, code := 0, machine := .responder
    localConfirmationDeadline := 60000 * nanosPerMilli, trustGeneration := 0 }

/-- A task takes some steps. -/
def taskDoes (id : ℕ) (events : List TaskEvent) : List Step :=
  events.map fun event => .task (.task id event)

/-- An incoming worker accepts a connection of the sample peer for a session. -/
def sampleInbound (worker : ℕ) : List Step :=
  taskDoes worker [.bootstrap (.ok sampleHello), .proceed, .intent (.ok .authorizedSession), .proceed,
    .exchange (.ok ()), .proceed, .proceed] ++ [.join worker []]

/-- An incoming worker accepts a connection of the sample peer that is to pair. -/
def samplePairingRequest (worker : ℕ) : List Step :=
  taskDoes worker [.bootstrap (.ok sampleHello), .proceed, .intent (.ok .pairing), .proceed,
    .exchange (.ok ()), .proceed, .proceed, .proceed, .paired (.ok samplePairing)] ++
    [.join worker []]

/-- A pairing is confirmed on both sides, and its task is joined. -/
def sampleConfirmed (attempt task : ℕ) : List Step :=
  .command (.request (.confirmPairing attempt true) 0 .ok) [] ::
    taskDoes task [.command, .commit .ok, .completes] ++ [.join task []]

end Rift.Daemon
