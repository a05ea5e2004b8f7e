-- Replicated documents as `multiplex-domain` has them: version vectors,
-- sealed versions, the policy that says who may write, and what a document
-- must satisfy to be taken.
import Mathlib.Data.Prod.Lex
import Mathlib.Data.String.Basic
import Mathlib.Data.List.Lex
import Multiplex.Lib.Checks
import Multiplex.Lib.Maxima
import Multiplex.Lib.SortedMap

open Checks

namespace multiplex_domain

/-! ## Limits and errors -/

def REPLICATION_SCHEMA_VERSION : Nat := 1
def MAX_REPLICATION_DOCUMENT_BYTES : Nat := 8 * 1024 * 1024
def MAX_REPLICATION_ENTRIES : Nat := 4096
def MAX_REPLICATION_CANDIDATES_PER_ENTRY : Nat := 8
def MAX_REPLICATION_REPLICAS : Nat := 16
def MAX_REPLICATION_SEALED_PAYLOAD_BYTES : Nat := 1024 * 1024
def MAX_REPLICATION_WORKSPACE_ID_BYTES : Nat := 128
def MAX_REPLICATION_REPLICA_ID_BYTES : Nat := 64
def MAX_REPLICATION_COLLECTION_ID_BYTES : Nat := 32
def MAX_REPLICATION_RECORD_ID_BYTES : Nat := 128
def MAX_REPLICATION_TOTAL_PAYLOAD_BYTES : Nat := MAX_REPLICATION_DOCUMENT_BYTES

inductive ReplicationError where
  | UnsupportedSchema
  | InvalidWorkspaceId
  | InvalidReplicaId
  | InvalidCollectionId
  | InvalidRecordId
  | EmptyReplicaPolicy
  | TooManyReplicas
  | DuplicateReplicaPolicy
  | UnknownReplica
  | ReplicaNotActive
  | PostRevocationCounter
  | TooManyReplicaCounters
  | InvalidCounter
  | CounterOverflow
  | AuthorMissingFromVector
  | TooManyEntries
  | DuplicateRecordKey
  | EmptyCandidateSet
  | TooManyCandidates
  | EmptySealedPayload
  | SealedPayloadTooLarge
  | TotalPayloadTooLarge
  | ClockEquivocation
  | WorkspaceMismatch
  deriving DecidableEq

abbrev Checked (α : Type) := Except ReplicationError α

/-- Addition of 64-bit numbers that reports when it would wrap. -/
def checked_add (a b : Nat) : Option Nat := if a + b < 2 ^ 64 then some (a + b) else none

/-! ## Opaque tokens -/

/-- The bytes a token may hold. All of them are ASCII, so a token's bytes are
its characters. -/
def token_byte (c : Char) : Bool :=
  c.isAlphanum || c == '.' || c == ':' || c == '_' || c == '-'

def opaque_token_validate (maximum : Nat) (error : ReplicationError) (value : String) :
    Checked Unit :=
  refuseIf error (value.isEmpty ∨ value.utf8ByteSize > maximum ∨ ¬ value.toList.all token_byte)

abbrev ReplicationWorkspaceId := String
abbrev ReplicationReplicaId := String
abbrev ReplicationCollectionId := String
abbrev ReplicationRecordId := String

def ReplicationWorkspaceId.validate (id : ReplicationWorkspaceId) : Checked Unit :=
  opaque_token_validate MAX_REPLICATION_WORKSPACE_ID_BYTES .InvalidWorkspaceId id

def ReplicationReplicaId.validate (id : ReplicationReplicaId) : Checked Unit :=
  opaque_token_validate MAX_REPLICATION_REPLICA_ID_BYTES .InvalidReplicaId id

def ReplicationCollectionId.validate (id : ReplicationCollectionId) : Checked Unit :=
  opaque_token_validate MAX_REPLICATION_COLLECTION_ID_BYTES .InvalidCollectionId id

def ReplicationRecordId.validate (id : ReplicationRecordId) : Checked Unit :=
  opaque_token_validate MAX_REPLICATION_RECORD_ID_BYTES .InvalidRecordId id

@[ext]
structure ReplicationRecordKey where
  collection : ReplicationCollectionId
  record_id : ReplicationRecordId

/-- Keys are compared by collection, then by record. -/
def ReplicationRecordKey.fields (key : ReplicationRecordKey) : String ×ₗ String :=
  toLex (key.collection, key.record_id)

theorem ReplicationRecordKey.fields_injective : Function.Injective fields := by
  intro a b h
  have hfields := congrArg ofLex h
  simp [fields] at hfields
  exact ReplicationRecordKey.ext hfields.1 hfields.2

instance : LinearOrder ReplicationRecordKey :=
  LinearOrder.lift' ReplicationRecordKey.fields ReplicationRecordKey.fields_injective

def ReplicationRecordKey.validate (key : ReplicationRecordKey) : Checked Unit := do
  ReplicationCollectionId.validate key.collection
  ReplicationRecordId.validate key.record_id

/-! ## Version vectors -/

inductive VersionRelation where
  | Before
  | Equal
  | After
  | Concurrent
  deriving DecidableEq

@[ext]
structure ReplicationVersionVector where
  counters : SortedMap ReplicationReplicaId Nat
  deriving DecidableEq

namespace ReplicationVersionVector

def default : ReplicationVersionVector := ⟨SortedMap.empty⟩

/-- An absent counter reads as zero. -/
def counter (v : ReplicationVersionVector) (replica_id : ReplicationReplicaId) : Nat :=
  (v.counters.get? replica_id).getD 0

def relation (v other : ReplicationVersionVector) : VersionRelation :=
  let less :=
    (v.counters.entries.any fun e => decide (e.2 < other.counter e.1)) ||
      (other.counters.entries.any fun e => !v.counters.contains e.1 && decide (e.2 > 0))
  let greater := v.counters.entries.any fun e => decide (e.2 > other.counter e.1)
  match less, greater with
  | false, false => .Equal
  | true, false => .Before
  | false, true => .After
  | true, true => .Concurrent

def validate (v : ReplicationVersionVector) : Checked Unit := do
  refuseIf .TooManyReplicaCounters (v.counters.size > MAX_REPLICATION_REPLICAS)
  forM v.counters.entries fun e => do
    ReplicationReplicaId.validate e.1
    refuseIf .InvalidCounter (e.2 = 0)

/-- `entry(replica_id).and_modify(max).or_insert(counter)`. -/
def raise (counters : SortedMap ReplicationReplicaId Nat) (e : ReplicationReplicaId × Nat) :
    SortedMap ReplicationReplicaId Nat :=
  match counters.get? e.1 with
  | some current => counters.insert e.1 (max current e.2)
  | none => counters.insert e.1 e.2

def joined (v other : ReplicationVersionVector) : Checked ReplicationVersionVector := do
  let joined : ReplicationVersionVector := ⟨other.counters.entries.foldl raise v.counters⟩
  joined.validate
  return joined

def increment (v : ReplicationVersionVector) (replica_id : ReplicationReplicaId) :
    Checked ReplicationVersionVector := do
  refuseIf .TooManyReplicaCounters
    (v.counters.contains replica_id = false ∧ v.counters.size = MAX_REPLICATION_REPLICAS)
  match checked_add (v.counter replica_id) 1 with
  | some next => return ⟨v.counters.insert replica_id next⟩
  | none => throw .CounterOverflow

end ReplicationVersionVector

/-! ## Versions -/

inductive ReplicationOperation where
  | Put (sealed_payload : List UInt8)
  | Delete (sealed_payload : List UInt8)

def SealedReplicationPayload.validate (bytes : List UInt8) : Checked Unit := do
  refuseIf .EmptySealedPayload (bytes = [])
  refuseIf .SealedPayloadTooLarge (bytes.length > MAX_REPLICATION_SEALED_PAYLOAD_BYTES)

namespace ReplicationOperation

def sealed_payload : ReplicationOperation → List UInt8
  | .Put sealed_payload | .Delete sealed_payload => sealed_payload

def is_delete : ReplicationOperation → Bool
  | .Put _ => false
  | .Delete _ => true

def validate (operation : ReplicationOperation) : Checked Unit :=
  SealedReplicationPayload.validate operation.sealed_payload

def payload_len (operation : ReplicationOperation) : Nat := operation.sealed_payload.length

end ReplicationOperation

@[ext]
structure ReplicatedVersion where
  author : ReplicationReplicaId
  vector : ReplicationVersionVector
  operation : ReplicationOperation

/-- Versions are compared by author, then by the counters in the order of the
replicas, then by the operation, a put before a delete, then by the payload. -/
def ReplicatedVersion.fields (version : ReplicatedVersion) :
    String ×ₗ List (String ×ₗ Nat) ×ₗ Bool ×ₗ List Nat :=
  toLex (version.author, toLex (version.vector.counters.entries.map toLex,
    toLex (version.operation.is_delete, version.operation.sealed_payload.map UInt8.toNat)))

theorem ReplicatedVersion.fields_injective : Function.Injective fields := by
  intro a b h
  have hfields := congrArg ofLex h
  simp only [fields, ofLex_toLex, Prod.mk.injEq] at hfields
  obtain ⟨hauthor, hrest⟩ := hfields
  have hrest := congrArg ofLex hrest
  simp only [ofLex_toLex, Prod.mk.injEq] at hrest
  obtain ⟨hvector, hoperation⟩ := hrest
  have hoperation := congrArg ofLex hoperation
  simp at hoperation
  obtain ⟨hkind, hpayload⟩ := hoperation
  have hentries := List.map_injective_iff.mpr toLex.injective hvector
  have hbytes := List.map_injective_iff.mpr (fun _ _ => UInt8.toNat_inj.mp) hpayload
  refine ReplicatedVersion.ext hauthor
    (ReplicationVersionVector.ext (SortedMap.ext hentries)) ?_
  cases ha : a.operation <;> cases hb : b.operation <;>
    simp_all [ReplicationOperation.is_delete, ReplicationOperation.sealed_payload]

instance : LinearOrder ReplicatedVersion :=
  LinearOrder.lift' ReplicatedVersion.fields ReplicatedVersion.fields_injective

/-! ## The policy -/

inductive ReplicaAuthorization where
  | Active
  | Revoked (accepted_through : Nat)

structure ReplicationPolicy where
  replicas : SortedMap ReplicationReplicaId ReplicaAuthorization

namespace ReplicationPolicy

def validate (policy : ReplicationPolicy) : Checked Unit := do
  refuseIf .EmptyReplicaPolicy (policy.replicas.entries = [])
  refuseIf .TooManyReplicas (policy.replicas.size > MAX_REPLICATION_REPLICAS)
  forM policy.replicas.entries fun e => ReplicationReplicaId.validate e.1

/-- Whether the policy takes the given counter of a replica. Both the vector
and the author are checked with these arms. -/
def accepts (policy : ReplicationPolicy) (replica_id : ReplicationReplicaId) (counter : Nat) :
    Checked Unit :=
  match policy.replicas.get? replica_id with
  | some .Active => .ok ()
  | some (.Revoked accepted_through) =>
    if counter ≤ accepted_through then .ok () else .error .PostRevocationCounter
  | none => .error .UnknownReplica

def validate_vector (policy : ReplicationPolicy) (vector : ReplicationVersionVector) :
    Checked Unit := do
  vector.validate
  forM vector.counters.entries fun e => policy.accepts e.1 e.2

def validate_version (policy : ReplicationPolicy) (version : ReplicatedVersion) :
    Checked Unit := do
  ReplicationReplicaId.validate version.author
  version.operation.validate
  policy.validate_vector version.vector
  refuseIf .AuthorMissingFromVector (version.vector.counter version.author = 0)
  policy.accepts version.author (version.vector.counter version.author)

end ReplicationPolicy

def ReplicatedVersion.new (author : ReplicationReplicaId) (vector : ReplicationVersionVector)
    (operation : ReplicationOperation) (policy : ReplicationPolicy) :
    Checked ReplicatedVersion := do
  let version : ReplicatedVersion := ⟨author, vector, operation⟩
  policy.validate_version version
  return version

/-- The version that follows everything observed. -/
def ReplicationPolicy.next_version (policy : ReplicationPolicy) (author : ReplicationReplicaId)
    (observed : List ReplicationVersionVector) (operation : ReplicationOperation) :
    Checked ReplicatedVersion := do
  refuseIf .TooManyCandidates (observed.length > MAX_REPLICATION_CANDIDATES_PER_ENTRY)
  match policy.replicas.get? author with
  | some .Active =>
    let vector ← observed.foldlM (fun vector observed_vector => do
      policy.validate_vector observed_vector
      vector.joined observed_vector) ReplicationVersionVector.default
    let vector ← vector.increment author
    ReplicatedVersion.new author vector operation policy
  | some (.Revoked _) => throw .ReplicaNotActive
  | none => throw .UnknownReplica

/-! ## Documents -/

@[ext]
structure ReplicationEntry where
  key : ReplicationRecordKey
  candidates : List ReplicatedVersion
  deriving DecidableEq

@[ext]
structure ReplicationDocument where
  schema_version : Nat
  workspace_id : ReplicationWorkspaceId
  entries : List ReplicationEntry
  deriving DecidableEq

/-- No two candidates share a vector and differ. Each is compared with those
after it. -/
def validate_no_equivocation : List ReplicatedVersion → Checked Unit
  | [] => .ok ()
  | candidate :: others => do
    forM others fun other =>
      refuseIf .ClockEquivocation (candidate.vector = other.vector ∧ candidate ≠ other)
    validate_no_equivocation others

/-- The check of one candidate, which counts its payload. -/
def validate_candidate (policy : ReplicationPolicy) (total_payload_bytes : Nat)
    (candidate : ReplicatedVersion) : Checked Nat := do
  policy.validate_version candidate
  match checked_add total_payload_bytes candidate.operation.payload_len with
  | some total_payload_bytes =>
    refuseIf .TotalPayloadTooLarge (total_payload_bytes > MAX_REPLICATION_TOTAL_PAYLOAD_BYTES)
    return total_payload_bytes
  | none => throw .TotalPayloadTooLarge

def validate_entry (policy : ReplicationPolicy) (seen : List ReplicationRecordKey × Nat)
    (entry : ReplicationEntry) : Checked (List ReplicationRecordKey × Nat) := do
  entry.key.validate
  refuseIf .DuplicateRecordKey (entry.key ∈ seen.1)
  refuseIf .EmptyCandidateSet (entry.candidates.isEmpty)
  refuseIf .TooManyCandidates (entry.candidates.length > MAX_REPLICATION_CANDIDATES_PER_ENTRY)
  let total_payload_bytes ← entry.candidates.foldlM (validate_candidate policy) seen.2
  validate_no_equivocation entry.candidates
  return (entry.key :: seen.1, total_payload_bytes)

def ReplicationDocument.validate (document : ReplicationDocument) (policy : ReplicationPolicy) :
    Checked Unit := do
  policy.validate
  refuseIf .UnsupportedSchema (document.schema_version ≠ REPLICATION_SCHEMA_VERSION)
  ReplicationWorkspaceId.validate document.workspace_id
  refuseIf .TooManyEntries (document.entries.length > MAX_REPLICATION_ENTRIES)
  let _ ← document.entries.foldlM (validate_entry policy) ([], 0)

def ReplicationDocument.new (workspace_id : ReplicationWorkspaceId)
    (entries : List ReplicationEntry) (policy : ReplicationPolicy) :
    Checked ReplicationDocument := do
  let document : ReplicationDocument := ⟨REPLICATION_SCHEMA_VERSION, workspace_id, entries⟩
  document.validate policy
  return document

end multiplex_domain
