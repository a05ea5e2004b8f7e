-- References to the secrets a replica keeps: one device key, perhaps the
-- authority key, and the epoch keys of a run of epochs. The references are
-- opaque; the secrets themselves stay in the platform's store.
import Mathlib.Data.Prod.Lex
import Multiplex.Lib.SortedMap
import Multiplex.Lib.Checks

open Checks

namespace multiplex_store

inductive ReplicationSecretKind where
  | AuthorityPrivateKey
  | DevicePrivateKey
  | EpochKey
  deriving DecidableEq

def ReplicationSecretKind.id : ReplicationSecretKind → Nat
  | .AuthorityPrivateKey => 1
  | .DevicePrivateKey => 2
  | .EpochKey => 3

/-- A reference names an epoch exactly when it is to an epoch key. -/
@[ext]
structure ReplicationSecretRef where
  kind : ReplicationSecretKind
  key_epoch : Option Nat
  identifier : BitVec 256
  nonzero : identifier ≠ 0
  epoch_iff : kind = .EpochKey ↔ key_epoch.isSome = true

namespace ReplicationSecretRef

/-- References are compared by kind, epoch and identifier; no epoch comes first. -/
def fields (r : ReplicationSecretRef) : Nat ×ₗ Nat ×ₗ Nat :=
  toLex (r.kind.id, toLex ((r.key_epoch.map (· + 1)).getD 0, r.identifier.toNat))

theorem fields_injective : Function.Injective fields := by
  intro a b h
  have hfields := congrArg ofLex h
  simp only [fields, ofLex_toLex, Prod.mk.injEq] at hfields
  obtain ⟨hkind, hrest⟩ := hfields
  have hrest := congrArg ofLex hrest
  simp at hrest
  obtain ⟨hepoch, hidentifier⟩ := hrest
  apply ReplicationSecretRef.ext
  · cases ha : a.kind <;> cases hb : b.kind <;> simp_all [ReplicationSecretKind.id]
  · cases ha : a.key_epoch <;> cases hb : b.key_epoch <;> simp_all
  · exact BitVec.eq_of_toNat_eq hidentifier

instance : LinearOrder ReplicationSecretRef := LinearOrder.lift' fields fields_injective

end ReplicationSecretRef

def MAX_REPLICATION_RETAINED_EPOCH_KEYS : Nat := 64

/-- The epoch keys a replica still has: a run of epochs with no gap. -/
structure ReplicationHistoricalKeyIndex where
  limit : Nat
  references : SortedMap Nat ReplicationSecretRef
  limit_bounds : 0 < limit ∧ limit ≤ MAX_REPLICATION_RETAINED_EPOCH_KEYS
  bounded : references.size ≤ limit
  nonempty : references.entries ≠ []
  epochs : ∀ e ∈ references.entries, e.2.kind = .EpochKey ∧ e.2.key_epoch = some e.1
  contiguous : (references.entries.map Prod.fst).IsChain fun a b => b = a + 1
  deriving DecidableEq

structure ReplicationCustodyMetadata where
  authority : Option ReplicationSecretRef
  device : ReplicationSecretRef
  historical : ReplicationHistoricalKeyIndex
  authority_kind : ∀ r ∈ authority, r.kind = .AuthorityPrivateKey
  device_kind : device.kind = .DevicePrivateKey
  deriving DecidableEq

namespace ReplicationCustodyMetadata

/-- The references of the retained epochs, oldest first. -/
def epoch_references (custody : ReplicationCustodyMetadata) : List ReplicationSecretRef :=
  custody.historical.references.entries.map Prod.snd

def contains (custody : ReplicationCustodyMetadata) (reference : ReplicationSecretRef) : Bool :=
  decide (custody.authority = some reference) || decide (custody.device = reference) ||
    custody.epoch_references.any fun item => decide (item = reference)

end ReplicationCustodyMetadata

end multiplex_store
