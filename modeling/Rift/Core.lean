import Rift.Lib.Bytes
import Std.Data.ExtTreeMap

/-! # Platform-independent domain types

The public identity of a device, the local trust decision about one, and the display metadata that
pairing captures. An identity is the only key of a decision; name and platform are never keys. -/

namespace Rift.Core

open Rift.Lib Std

/-- The byte length of a device identity. -/
def deviceIdLen : ℕ := 32

/-- The maximum UTF-8 byte length of peer display names. -/
def maxDeviceNameLen : ℕ := 128

/-- The maximum UTF-8 byte length of peer platform identifiers. -/
def maxPlatformLen : ℕ := 64

/-- The public cryptographic identity of a device, ordered as its bytes are. -/
structure DeviceId where
  bytes : FixedBytes deviceIdLen
  deriving DecidableEq

namespace DeviceId

instance : Ord DeviceId := ⟨fun a b => compare a.bytes b.bytes⟩

instance : TransOrd DeviceId where
  eq_swap {a b} := (OrientedOrd.eq_swap : compare a.bytes b.bytes = _)
  isLE_trans {a _ c} h h' := (TransOrd.isLE_trans h h' : (compare a.bytes c.bytes).isLE = true)

instance : LawfulEqOrd DeviceId where
  eq_of_compare {a b} h := by
    have hb : compare a.bytes b.bytes = .eq := h
    cases a; cases b
    simpa using hb

instance : Finite DeviceId :=
  Finite.of_injective DeviceId.bytes fun a b h => by cases a; cases b; cases h; rfl

/-- The identity with every byte equal to `b`. -/
def repeated (b : UInt8) : DeviceId := ⟨FixedBytes.replicate deviceIdLen b⟩

end DeviceId

/-- A durable local trust decision. Absence from a store means unknown. -/
inductive TrustState
  | trusted
  | revoked
  deriving DecidableEq

/-- A trusted peer and the display metadata captured when pairing succeeded. -/
structure TrustedPeer where
  deviceId : DeviceId
  deviceName : String
  platform : String
  deriving DecidableEq

end Rift.Core
