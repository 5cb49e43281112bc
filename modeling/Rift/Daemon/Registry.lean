import Rift.Daemon.Moves

/-! # The registries agree

What holds of the session registry, the managed peers and the trust store together, whatever the
daemon has done so far.

The main definition is `Registered`. -/

namespace Rift.Daemon

open Rift.Lib Rift.Core Rift.Ipc Rift.Session Std
open Rift.Trust hiding Event

/-- The registries of sessions and of managed peers agree with each other and with the decisions. -/
structure Registered (store : StoreInner) (closed : Finset ConnectionId)
    (sessions : ExtTreeMap SessionId SessionRecord) (next : ℕ) (peers : ExtTreeMap DeviceId Peer) :
    Prop where
  authorized : ∀ (s : SessionId) (r : SessionRecord), sessions[s]? = some r →
    store.state r.info.deviceId = some .trusted ∧
      store.currentGeneration r.info.deviceId = r.trustGeneration
  trusted : ∀ (d : DeviceId) (p : Peer), peers[d]? = some p → store.state d = some .trusted
  linked : ∀ (s : SessionId) (r : SessionRecord), sessions[s]? = some r →
    ∃ p, peers[r.info.deviceId]? = some p ∧ p.sessionId = some s
  back : ∀ (d : DeviceId) (p : Peer) (s : SessionId), peers[d]? = some p → p.sessionId = some s →
    ∃ r, sessions[s]? = some r ∧ r.info.deviceId = d
  wellFormed : ∀ (d : DeviceId) (p : Peer), peers[d]? = some p → p.WellFormed
  connected : ∀ (s : SessionId) (r : SessionRecord) (p : Peer), sessions[s]? = some r →
    r.closer ∉ closed → peers[r.info.deviceId]? = some p → p.state = .connected
  fresh : ∀ (s : SessionId) (r : SessionRecord), sessions[s]? = some r → s < next

namespace Registered

variable {store store' : StoreInner} {closed closed' : Finset ConnectionId}
  {sessions sessions' : ExtTreeMap SessionId SessionRecord} {next : ℕ}
  {peers peers' : ExtTreeMap DeviceId Peer} {d : DeviceId}

variable (h : Registered store closed sessions next peers)

include h

theorem unique {s s' : SessionId}
    {r r' : SessionRecord} (hs : sessions[s]? = some r) (hs' : sessions[s']? = some r')
    (hd : r.info.deviceId = r'.info.deviceId) : s = s' := by
  obtain ⟨p, hp, hps⟩ := h.linked s r hs
  obtain ⟨p', hp', hps'⟩ := h.linked s' r' hs'
  rw [hd, hp'] at hp
  cases hp
  rw [hps'] at hps
  exact (Option.some.inj hps).symm

theorem mono (hg : Grows store store')
    (hc : closed ⊆ closed') : Registered store' closed' sessions next peers where
  authorized s r hs := by
    obtain ⟨ht, hgen⟩ := h.authorized s r hs
    exact ⟨hg.trusted _ ht, (hg.generation _).trans hgen⟩
  trusted d p hp := hg.trusted d (h.trusted d p hp)
  linked := h.linked
  back := h.back
  wellFormed := h.wellFormed
  connected s r p hs hr := h.connected s r p hs fun hmem => hr (hc hmem)
  fresh := h.fresh

theorem modify {f : Peer → Peer}
    (hf : ∀ p, peers[d]? = some p → (f p).WellFormed ∧ (f p).sessionId = p.sessionId)
    (hopen : ∀ (p : Peer) (s : SessionId) (r : SessionRecord), peers[d]? = some p →
      sessions[s]? = some r → r.info.deviceId = d → r.closer ∉ closed → (f p).state = .connected) :
    Registered store closed sessions next (peers.modify d f) where
  authorized := h.authorized
  trusted d' p hp := by
    rcases Map.modify_eq_some.mp hp with ⟨rfl, q, hq, -⟩ | ⟨-, hp⟩
    · exact h.trusted _ q hq
    · exact h.trusted d' p hp
  linked s r hs := by
    obtain ⟨p, hp, hps⟩ := h.linked s r hs
    by_cases heq : d = r.info.deviceId
    · subst heq
      refine ⟨f p, by simp [hp], ?_⟩
      rw [(hf p hp).2]
      exact hps
    · exact ⟨p, by rw [Map.modify_ne heq]; exact hp, hps⟩
  back d' p s hp hps := by
    rcases Map.modify_eq_some.mp hp with ⟨rfl, q, hq, rfl⟩ | ⟨-, hp⟩
    · rw [(hf q hq).2] at hps
      exact h.back _ q s hq hps
    · exact h.back d' p s hp hps
  wellFormed d' p hp := by
    rcases Map.modify_eq_some.mp hp with ⟨rfl, q, hq, rfl⟩ | ⟨-, hp⟩
    · exact (hf q hq).1
    · exact h.wellFormed d' p hp
  connected s r p hs hr hp := by
    rcases Map.modify_eq_some.mp hp with ⟨hd, q, hq, rfl⟩ | ⟨-, hp⟩
    · exact hopen q s r hq hs hd.symm hr
    · exact h.connected s r p hs hr hp
  fresh := h.fresh

theorem insert_new (ht : store.state d = some .trusted) (hd : d ∉ peers) (now : ℕ) :
    Registered store closed sessions next (peers.insert d (Peer.new now)) := by
  have hno : ∀ (s : SessionId) (r : SessionRecord), sessions[s]? = some r → d ≠ r.info.deviceId := by
    rintro s r hs rfl
    obtain ⟨p, hp, -⟩ := h.linked s r hs
    exact hd (Map.mem_iff_exists.mpr ⟨p, hp⟩)
  refine ⟨h.authorized, fun d' p hp => ?_, fun s r hs => ?_, fun d' p s hp hps => ?_,
    fun d' p hp => ?_, fun s r p hs hr hp => ?_, h.fresh⟩
  · rcases Map.insert_eq_some.mp hp with ⟨rfl, -⟩ | ⟨-, hp⟩
    · exact ht
    · exact h.trusted d' p hp
  · rw [Map.insert_ne (hno s r hs)]
    exact h.linked s r hs
  · rcases Map.insert_eq_some.mp hp with ⟨-, rfl⟩ | ⟨-, hp⟩
    · cases hps
    · exact h.back d' p s hp hps
  · rcases Map.insert_eq_some.mp hp with ⟨-, rfl⟩ | ⟨-, hp⟩
    · exact Peer.wellFormed_new now
    · exact h.wellFormed d' p hp
  · rw [Map.insert_ne (hno s r hs)] at hp
    exact h.connected s r p hs hr hp

theorem erase {s : SessionId} {r : SessionRecord}
    (hs : sessions[s]? = some r) {f : Peer → Peer}
    (hf : ∀ p, (f p).WellFormed ∧ (f p).sessionId = none) :
    Registered store closed (sessions.erase s) next (peers.modify r.info.deviceId f) := by
  have hother : ∀ {s' : SessionId} {r' : SessionRecord}, (sessions.erase s)[s']? = some r' →
      sessions[s']? = some r' ∧ r.info.deviceId ≠ r'.info.deviceId := by
    intro s' r' hs'
    obtain ⟨hne, hs'⟩ := Map.erase_eq_some.mp hs'
    exact ⟨hs', fun hd => hne (h.unique hs hs' hd)⟩
  refine ⟨fun s' r' hs' => h.authorized s' r' (hother hs').1, fun d p hp => ?_, fun s' r' hs' => ?_,
    fun d p s' hp hps => ?_, fun d p hp => ?_, fun s' r' p hs' hr hp => ?_,
    fun s' r' hs' => h.fresh s' r' (hother hs').1⟩
  · rcases Map.modify_eq_some.mp hp with ⟨rfl, q, hq, -⟩ | ⟨-, hp⟩
    · exact h.trusted _ q hq
    · exact h.trusted d p hp
  · rw [Map.modify_ne (hother hs').2]
    exact h.linked s' r' (hother hs').1
  · rcases Map.modify_eq_some.mp hp with ⟨-, q, -, rfl⟩ | ⟨hd, hp⟩
    · rw [(hf q).2] at hps
      cases hps
    · obtain ⟨r', hs', hd'⟩ := h.back d p s' hp hps
      refine ⟨r', Map.erase_eq_some.mpr ⟨?_, hs'⟩, hd'⟩
      rintro rfl
      rw [hs] at hs'
      cases hs'
      exact hd hd'
  · rcases Map.modify_eq_some.mp hp with ⟨-, q, -, rfl⟩ | ⟨-, hp⟩
    · exact (hf q).1
    · exact h.wellFormed d p hp
  · rw [Map.modify_ne (hother hs').2] at hp
    exact h.connected s' r' p (hother hs').1 hr hp

theorem replace {record : SessionRecord}
    (ht : store.state record.info.deviceId = some .trusted)
    (hg : store.currentGeneration record.info.deviceId = record.trustGeneration)
    (hs : ∀ (s : SessionId) (r : SessionRecord), sessions'[s]? = some r →
      sessions[s]? = some r ∧ record.info.deviceId ≠ r.info.deviceId)
    (hk : ∀ (s : SessionId) (r : SessionRecord), sessions[s]? = some r →
      record.info.deviceId ≠ r.info.deviceId → sessions'[s]? = some r)
    (hp : ∀ d, record.info.deviceId ≠ d → peers'[d]? = peers[d]?)
    {p : Peer} (hd : peers'[record.info.deviceId]? = some p) (f : Peer → Peer)
    (hf : ∀ p, (f p).WellFormed ∧ (f p).sessionId = some next ∧ (f p).state = .connected) :
    Registered store closed (sessions'.insert next record) (next + 1)
      (peers'.modify record.info.deviceId f) := by
  have hnext : ∀ {s : SessionId} {r : SessionRecord}, sessions'[s]? = some r → next ≠ s := by
    rintro s r hs' rfl
    exact Nat.lt_irrefl _ (h.fresh _ r (hs _ r hs').1)
  constructor
  case authorized =>
    intro s r hr
    rcases Map.insert_eq_some.mp hr with ⟨-, rfl⟩ | ⟨-, hr⟩
    · exact ⟨ht, hg⟩
    · exact h.authorized s r (hs s r hr).1
  case trusted =>
    intro d q hq
    rcases Map.modify_eq_some.mp hq with ⟨rfl, -⟩ | ⟨hne, hq⟩
    · exact ht
    · rw [hp d hne] at hq
      exact h.trusted d q hq
  case linked =>
    intro s r hr
    rcases Map.insert_eq_some.mp hr with ⟨rfl, rfl⟩ | ⟨-, hr⟩
    · exact ⟨f p, by simp [hd], (hf p).2.1⟩
    · obtain ⟨hr', hne⟩ := hs s r hr
      rw [Map.modify_ne hne, hp _ hne]
      exact h.linked s r hr'
  case back =>
    intro d q s hq hqs
    rcases Map.modify_eq_some.mp hq with ⟨rfl, u, -, rfl⟩ | ⟨hne, hq⟩
    · rw [(hf u).2.1] at hqs
      cases hqs
      exact ⟨record, by simp, rfl⟩
    · rw [hp d hne] at hq
      obtain ⟨r, hr, hrd⟩ := h.back d q s hq hqs
      have hr' := hk s r hr (by rw [hrd]; exact hne)
      exact ⟨r, by rw [Map.insert_ne (hnext hr')]; exact hr', hrd⟩
  case wellFormed =>
    intro d q hq
    rcases Map.modify_eq_some.mp hq with ⟨rfl, u, -, rfl⟩ | ⟨hne, hq⟩
    · exact (hf u).1
    · rw [hp d hne] at hq
      exact h.wellFormed d q hq
  case connected =>
    intro s r q hr hc hq
    rcases Map.modify_eq_some.mp hq with ⟨-, u, -, rfl⟩ | ⟨hne, hq⟩
    · exact (hf u).2.2
    · rw [hp _ hne] at hq
      rcases Map.insert_eq_some.mp hr with ⟨-, rfl⟩ | ⟨-, hr⟩
      · exact absurd rfl hne
      · exact h.connected s r q (hs s r hr).1 hc hq
  case fresh =>
    intro s r hr
    rcases Map.insert_eq_some.mp hr with ⟨rfl, -⟩ | ⟨-, hr⟩
    · exact Nat.lt_succ_self _
    · exact Nat.lt_succ_of_lt (h.fresh s r (hs s r hr).1)

theorem restrict (hst : ∀ d', d ≠ d' → store'.state d' = store.state d')
    (hgen : ∀ d', d ≠ d' → store'.currentGeneration d' = store.currentGeneration d')
    (hs : ∀ (s : SessionId) (r : SessionRecord), sessions'[s]? = some r ↔
      sessions[s]? = some r ∧ d ≠ r.info.deviceId)
    (hp : ∀ (d' : DeviceId) (p : Peer), peers'[d']? = some p ↔ peers[d']? = some p ∧ d ≠ d') :
    Registered store' closed sessions' next peers' := by
  constructor
  case authorized =>
    intro s r hr
    obtain ⟨hr, hne⟩ := (hs s r).mp hr
    rw [hst _ hne, hgen _ hne]
    exact h.authorized s r hr
  case trusted =>
    intro d' p hd
    obtain ⟨hd, hne⟩ := (hp d' p).mp hd
    rw [hst d' hne]
    exact h.trusted d' p hd
  case linked =>
    intro s r hr
    obtain ⟨hr, hne⟩ := (hs s r).mp hr
    obtain ⟨p, hpr, hps⟩ := h.linked s r hr
    exact ⟨p, (hp _ p).mpr ⟨hpr, hne⟩, hps⟩
  case back =>
    intro d' p s hd hps
    obtain ⟨hd, hne⟩ := (hp d' p).mp hd
    obtain ⟨r, hr, rfl⟩ := h.back d' p s hd hps
    exact ⟨r, (hs s r).mpr ⟨hr, hne⟩, rfl⟩
  case wellFormed =>
    intro d' p hd
    exact h.wellFormed d' p ((hp d' p).mp hd).1
  case connected =>
    intro s r p hr hc hd
    exact h.connected s r p ((hs s r).mp hr).1 hc ((hp _ p).mp hd).1
  case fresh =>
    intro s r hr
    exact h.fresh s r ((hs s r).mp hr).1

end Registered

end Rift.Daemon
