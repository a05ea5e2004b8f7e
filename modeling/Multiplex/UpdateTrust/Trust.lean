-- Bounded verification of update metadata: the trust state in its file, the
-- checks of one call, and the calls of several updaters on one file. Signatures
-- and the format of instants are left to the crates that know them.
import Multiplex.Lib.Checks
import Multiplex.Lib.JsonText
import Multiplex.Lib.Histories

open Checks (refuseIf)

namespace multiplex_update_trust

/-! ## Errors, channels and requests -/

inductive TrustErrorCode where
  | Cancelled
  | ResourceLimit
  | MissingMetadata
  | InvalidMetadata
  | InvalidSignature
  | Tampered
  | Expired
  | Replay
  | Rollback
  | ClockRollback
  | TargetNotFound
  | WrongTarget
  | Incompatible
  | CorruptState
  | NewerState
  | StateIo

def MAX_BOOTSTRAP_ROOT_BYTES : Nat := 256 * 1024
def MAX_ROLE_BYTES : Nat := 1024 * 1024
def MAX_DELEGATED_ROLES : Nat := 8
def MAX_TARGETS : Nat := 10000
def MAX_METADATA_FILES : Nat := 4 + MAX_DELEGATED_ROLES + 32
def MAX_TRUST_STATE_BYTES : Nat := 16 * 1024
def TRUST_STATE_SCHEMA_VERSION : UInt32 := 1

inductive UpdateChannel where
  | Stable
  | Beta
  | Nightly
  deriving DecidableEq

structure CompatibilityRange where
  min : UInt32
  max : UInt32

def CompatibilityRange.contains (range : CompatibilityRange) (version : UInt32) : Bool :=
  range.min ≤ range.max && (range.min ≤ version && version ≤ range.max)

/-- What the caller wants. Its target is a name that was parsed before. -/
structure VerificationRequest where
  target : String
  channel : UpdateChannel
  platform : String
  arch : String
  store_version : UInt32
  protocol_version : UInt32

structure VerifiedTarget where
  name : String
  version : String
  platform : String
  arch : String
  length : UInt64
  hashes : List (String × List UInt8)
  store_range : CompatibilityRange
  protocol_range : CompatibilityRange
  rollout : UInt8
  emergency_rollback : Bool

/-! ## The trust state and its file -/

structure TrustedState where
  schema_version : UInt32
  root_version : UInt64
  timestamp_version : UInt64
  snapshot_version : UInt64
  targets_version : UInt64
  observed_unix_seconds : Int64
  deriving DecidableEq

/-- A file of the trust state: how long it is, and what is read of its text. -/
structure TrustFile where
  length : Nat
  document : Option TrustedState

inductive TrustStateInspection where
  | Missing
  | Valid (state : TrustedState)
  | Corrupt
  | Newer
  | Oversized

def inspect : Option TrustFile → TrustStateInspection
  | none => .Missing
  | some file =>
    if MAX_TRUST_STATE_BYTES < file.length then .Oversized
    else
      match file.document with
      | some state => if state.schema_version = TRUST_STATE_SCHEMA_VERSION then .Valid state else .Newer
      | none => .Corrupt

/-- What the state is read as. Reading may fail, too. -/
def load (stored : Option TrustFile) (readable : Bool) : Except TrustErrorCode (Option TrustedState) :=
  if !readable then .error .StateIo
  else
    match inspect stored with
    | .Missing => .ok none
    | .Valid state => .ok (some state)
    | .Newer => .error .NewerState
    | .Corrupt | .Oversized => .error .CorruptState

def seconds_text (seconds : Int64) : List UInt8 :=
  if seconds < 0 then 45 :: JsonText.number seconds.toInt.natAbs else JsonText.number seconds.toInt.natAbs

/-- The text of a state, with its line end. -/
def text (state : TrustedState) : List UInt8 :=
  JsonText.object [
    JsonText.member "schema_version" (JsonText.number state.schema_version.toNat),
    JsonText.member "root_version" (JsonText.number state.root_version.toNat),
    JsonText.member "timestamp_version" (JsonText.number state.timestamp_version.toNat),
    JsonText.member "snapshot_version" (JsonText.number state.snapshot_version.toNat),
    JsonText.member "targets_version" (JsonText.number state.targets_version.toNat),
    JsonText.member "observed_unix_seconds" (seconds_text state.observed_unix_seconds)] ++ [10]

def written (state : TrustedState) : TrustFile := ⟨(text state).length, some state⟩

/-! ## What is found of an update -/

/-- A document of the metadata. A number that is no integer is told apart only. -/
inductive Value where
  | Null
  | Boolean (value : Bool)
  | Integer (value : Int)
  | Float
  | Text (value : String)
  | Array (items : List Value)
  | Object (entries : List (String × Value))

namespace Value

def get (name : String) : Value → Option Value
  | .Object entries => entries.lookup name
  | _ => none

def as_str : Value → Option String
  | .Text value => some value
  | _ => none

def as_object : Value → Option (List (String × Value))
  | .Object entries => some entries
  | _ => none

/-- The fields of a structure that refuses unknown ones: named, or in their order. -/
def fields (names : List String) : Value → Option (List Value)
  | .Object entries =>
    if entries.all fun entry => names.contains entry.1 then
      names.mapM fun name => entries.lookup name
    else none
  | .Array items => if items.length = names.length then some items else none
  | _ => none

def as_bounded (bound : Nat) : Value → Option Nat
  | .Integer value => if 0 ≤ value ∧ value.toNat < bound then some value.toNat else none
  | _ => none

def as_u32 (value : Value) : Option UInt32 := (value.as_bounded (2 ^ 32)).map UInt32.ofNat

def as_u8 (value : Value) : Option UInt8 := (value.as_bounded (2 ^ 8)).map UInt8.ofNat

def as_bool : Value → Option Bool
  | .Boolean value => some value
  | _ => none

def as_range (value : Value) : Option CompatibilityRange :=
  match value.fields ["min", "max"] with
  | some [min, max] => do return ⟨← min.as_u32, ← max.as_u32⟩
  | _ => none

def channel_named : String → Option UpdateChannel
  | "stable" => some .Stable
  | "beta" => some .Beta
  | "nightly" => some .Nightly
  | _ => none

/-- A channel by its name, alone or with nothing beside it. -/
def as_channel : Value → Option UpdateChannel
  | .Text name => channel_named name
  | .Object [(name, .Null)] => channel_named name
  | _ => none

end Value

structure MultiplexTargetMetadata where
  schema_version : UInt32
  version : String
  channel : UpdateChannel
  platform : String
  arch : String
  store_range : CompatibilityRange
  protocol_range : CompatibilityRange
  rollout : UInt8
  emergency_rollback : Bool

def MultiplexTargetMetadata.from_value (value : Value) : Option MultiplexTargetMetadata :=
  match value.fields ["schema_version", "version", "channel", "platform", "arch", "store_range",
      "protocol_range", "rollout", "emergency_rollback"] with
  | some [schema_version, version, channel, platform, arch, store_range, protocol_range, rollout,
      emergency_rollback] => do
    return ⟨← schema_version.as_u32, ← version.as_str, ← channel.as_channel, ← platform.as_str,
      ← arch.as_str, ← store_range.as_range, ← protocol_range.as_range, ← rollout.as_u8,
      ← emergency_rollback.as_bool⟩
  | _ => none

/-- A target as the signed metadata lists it. -/
structure Target where
  length : UInt64
  sha256 : List UInt8
  custom : List (String × Value)

def is_control (c : Char) : Bool := c.toNat < 32 || (127 ≤ c.toNat && c.toNat < 160)

def parse_target (request : VerificationRequest) (target : Target) :
    Except TrustErrorCode VerifiedTarget :=
  if target.custom.length ≠ 1 then .error .InvalidMetadata
  else
    match (target.custom.lookup "termirust").bind MultiplexTargetMetadata.from_value with
    | none => .error .InvalidMetadata
    | some metadata =>
      if metadata.schema_version ≠ 1 ∨ metadata.version.isEmpty ∨ metadata.version.utf8ByteSize > 64 ∨
          metadata.version.toList.any is_control ∨ metadata.rollout > 100 then .error .InvalidMetadata
      else if metadata.channel ≠ request.channel ∨ metadata.platform ≠ request.platform ∨
          metadata.arch ≠ request.arch then .error .WrongTarget
      else if !metadata.store_range.contains request.store_version ||
          !metadata.protocol_range.contains request.protocol_version then .error .Incompatible
      else if target.sha256.length ≠ 32 then .error .InvalidMetadata
      else
        .ok {
          name := request.target
          version := metadata.version
          platform := metadata.platform
          arch := metadata.arch
          length := target.length
          hashes := [("sha256", target.sha256.flatMap fun byte =>
            [JsonText.hex (byte.toNat / 16), JsonText.hex (byte.toNat % 16)])]
          store_range := metadata.store_range
          protocol_range := metadata.protocol_range
          rollout := metadata.rollout
          emergency_rollback := metadata.emergency_rollback }

/-- What the crate that checks signatures hands back: versions, and targets by their names. -/
structure Repository where
  root_version : UInt64
  timestamp_version : UInt64
  snapshot_version : UInt64
  targets_version : UInt64
  all_targets : List (String × Target)

/-- Why it refuses metadata, as far as that is told apart. -/
inductive ToughError where
  | ExpiredMetadata
  | OlderMetadata
  | OlderSnapshotInTimestamp
  | SnapshotRoleRollback
  | SystemTimeSteppedBackward
  | MaxSizeExceeded
  | MaxUpdatesExceeded
  | HashMismatch
  | VersionMismatch
  | TimestampMetaLength
  | VerifyMetadata
  | VerifyRoleMetadata
  | VerifyTrustedMetadata
  | InvalidThreshold
  | DuplicateKeyid
  | NoKeys
  | NoRoleKeysinRoot
  | TransportFileNotFound
  | TransportUnsupportedUrlScheme
  | TransportOther
  | MetaMissing
  | Another

def map_tough_error : ToughError → TrustErrorCode
  | .ExpiredMetadata => .Expired
  | .OlderMetadata | .OlderSnapshotInTimestamp | .SnapshotRoleRollback | .SystemTimeSteppedBackward =>
    .Rollback
  | .MaxSizeExceeded | .MaxUpdatesExceeded => .ResourceLimit
  | .HashMismatch | .VersionMismatch | .TimestampMetaLength => .Tampered
  | .VerifyMetadata | .VerifyRoleMetadata | .VerifyTrustedMetadata | .InvalidThreshold
  | .DuplicateKeyid | .NoKeys | .NoRoleKeysinRoot => .InvalidSignature
  | .TransportFileNotFound | .MetaMissing => .MissingMetadata
  | .TransportUnsupportedUrlScheme => .InvalidMetadata
  | .TransportOther => .Tampered
  | .Another => .InvalidMetadata

/-! ## The metadata before it is checked -/

/-- A file on disk: whether it is one and how long, then its bytes and the document they hold. -/
structure FoundFile where
  metadata : Option (Bool × Nat)
  read : Option (Nat × Option Value)

def read_bounded (file : FoundFile) (limit : Nat) : Except TrustErrorCode (Nat × Option Value) :=
  match file.metadata with
  | none => .error .MissingMetadata
  | some (is_file, length) =>
    if !is_file || limit < length then .error .ResourceLimit
    else
      match file.read with
      | none => .error .MissingMetadata
      | some contents => .ok contents

structure DirEntry where
  is_file : Option Bool
  name : String
  file : FoundFile

/-- When the caller cancels, in checks that still pass. -/
abbrev Cancellation := Option Nat

def check_cancelled (cancellation : Cancellation) (check : Nat) : Except TrustErrorCode Unit :=
  refuseIf .Cancelled (cancellation.any fun passing => passing ≤ check)

/-- What was counted of the metadata so far. -/
structure Preflight where
  files : Nat
  delegated_roles : Nat
  targets : Nat
  timestamp : Bool
  snapshot : Bool
  top_targets : Bool

/-- The format of instants: the nanosecond of a second and of a text, if it is in range. -/
structure Instants where
  new : Int64 → Option Int
  parse : String → Option Int

def preflight_role (instants : Instants) (now : Int) (bytes : Nat)
    (signed : List (String × Value)) (role : String) : Except TrustErrorCode Unit :=
  if role = "root" then
    if MAX_BOOTSTRAP_ROOT_BYTES < bytes then .error .ResourceLimit else .ok ()
  else
    match ((signed.lookup "expires").bind Value.as_str).bind instants.parse with
    | none => .error .InvalidMetadata
    | some expires => if expires ≤ now then .error .Expired else .ok ()

def preflight_count (seen : Preflight) (name : String) (signed : List (String × Value))
    (role : String) : Except TrustErrorCode Preflight :=
  if role = "root" then .ok seen
  else if role = "timestamp" then .ok { seen with timestamp := true }
  else if role = "snapshot" then .ok { seen with snapshot := true }
  else if role = "targets" then
    let top := name = "targets.json" || name.endsWith ".targets.json"
    let targets := seen.targets +
        (((signed.lookup "targets").bind Value.as_object).map List.length).getD 0
    if !top && MAX_DELEGATED_ROLES < seen.delegated_roles + 1 then .error .ResourceLimit
    else if MAX_TARGETS < targets then .error .ResourceLimit
    else
      .ok { seen with
        targets
        top_targets := seen.top_targets || top
        delegated_roles := if top then seen.delegated_roles else seen.delegated_roles + 1 }
  else .error .InvalidMetadata

def preflight_entry (instants : Instants) (now : Int) (cancellation : Cancellation)
    (seen : Preflight) (entry : Option DirEntry) : Except TrustErrorCode Preflight := do
  check_cancelled cancellation seen.files
  let some entry := entry | .error .InvalidMetadata
  refuseIf .InvalidMetadata (entry.is_file ≠ some true)
  let seen := { seen with files := seen.files + 1 }
  refuseIf .ResourceLimit (MAX_METADATA_FILES < seen.files)
  let (bytes, document) ← read_bounded entry.file MAX_ROLE_BYTES
  let some signed := (document.bind (Value.get "signed")).bind Value.as_object | .error .InvalidMetadata
  let some role := (signed.lookup "_type").bind Value.as_str | .error .InvalidMetadata
  preflight_role instants now bytes signed role
  preflight_count seen entry.name signed role

/-- Looks through the directory of the metadata. The entries that it read are counted. -/
def preflight_metadata (instants : Instants) (directory : Option (List (Option DirEntry)))
    (now : Int) (cancellation : Cancellation) : Except TrustErrorCode Nat := do
  let some entries := directory | .error .MissingMetadata
  let seen ← entries.foldlM (preflight_entry instants now cancellation) ⟨0, 0, 0, false, false, false⟩
  if seen.timestamp && seen.snapshot && seen.top_targets then .ok seen.files else .error .MissingMetadata

/-! ## One call -/

/-- What a call finds: the trusted root, the metadata, its place as a URL, a directory to stage in,
and what the crate that checks signatures makes of them. -/
structure Source where
  trusted_root : FoundFile
  metadata_dir : Option (List (Option DirEntry))
  directory_url : Except TrustErrorCode Unit
  staging : Bool
  load : Except ToughError Repository

/-- The state after the call must not be older in any role, and its timestamp must be new. -/
def validate_monotonic (previous : Option TrustedState) (next : TrustedState) :
    Except TrustErrorCode Unit :=
  match previous with
  | none => .ok ()
  | some previous =>
    if next.root_version < previous.root_version ∨ next.timestamp_version < previous.timestamp_version ∨
        next.snapshot_version < previous.snapshot_version ∨
        next.targets_version < previous.targets_version then .error .Rollback
    else if next.timestamp_version = previous.timestamp_version then .error .Replay
    else .ok ()

def Repository.next_state (repository : Repository) (now_seconds : Int64) : TrustedState where
  schema_version := TRUST_STATE_SCHEMA_VERSION
  root_version := repository.root_version
  timestamp_version := repository.timestamp_version
  snapshot_version := repository.snapshot_version
  targets_version := repository.targets_version
  observed_unix_seconds := now_seconds

def start (instants : Instants) (stored : Option TrustFile) (cancelled readable : Bool)
    (now_seconds : Int64) : Except TrustErrorCode (Option TrustedState × Int) := do
  refuseIf .Cancelled (cancelled = true)
  let previous ← load stored readable
  refuseIf .ClockRollback (previous.any fun state => now_seconds < state.observed_unix_seconds)
  match instants.new now_seconds with
  | none => .error .InvalidMetadata
  | some now => .ok (previous, now)

/-- The call from there to what it commits and returns. -/
def verify (instants : Instants) (request : VerificationRequest) (previous : Option TrustedState)
    (now_seconds : Int64) (now : Int) (source : Source) (cancellation : Cancellation) :
    Except TrustErrorCode (TrustedState × VerifiedTarget) := do
  let _ ← read_bounded source.trusted_root MAX_BOOTSTRAP_ROOT_BYTES
  let files ← preflight_metadata instants source.metadata_dir now cancellation
  source.directory_url
  refuseIf .StateIo (source.staging = false)
  check_cancelled cancellation files
  let repository ← source.load.mapError map_tough_error
  check_cancelled cancellation (files + 1)
  let next_state := repository.next_state now_seconds
  validate_monotonic previous next_state
  refuseIf .ResourceLimit (MAX_TARGETS < repository.all_targets.length)
  match repository.all_targets.find? fun entry => entry.1 = request.target with
  | none => .error .TargetNotFound
  | some (_, target) =>
    let verified ← parse_target request target
    check_cancelled cancellation (files + 2)
    .ok (next_state, verified)

/-! ## Calls of several updaters -/

/-- A step of the commit before the new file takes the old one's place. -/
inductive CommitStep where
  | parent
  | create_dir_all
  | temporary
  | permissions
  | write
  | sync
  | persist

inductive ErrorKind where
  | Unsupported
  | InvalidInput
  | PermissionDenied
  | Another

/-- Whether the new directory is on disk. Some systems never sync one. -/
def sync_directory : Except ErrorKind Unit → Except TrustErrorCode Unit
  | .ok () => .ok ()
  | .error .Another => .error .StateIo
  | .error _ => .ok ()

inductive Phase where
  | Called
  | Loaded (previous : Option TrustedState) (now_seconds : Int64) (now : Int)
  | Verified (previous : Option TrustedState) (next_state : TrustedState) (verified : VerifiedTarget)
  | Persisted (verified : VerifiedTarget)
  | Returned (result : Except TrustErrorCode VerifiedTarget)

structure Call where
  request : VerificationRequest
  phase : Phase

structure Updaters where
  stored : Option TrustFile
  calls : List Call

/-- What may happen next. Steps of several calls come in any order. -/
inductive Event where
  | call (request : VerificationRequest)
  | load (i : Nat) (cancelled readable : Bool) (now_seconds : Int64)
  | verify (i : Nat) (source : Source) (cancellation : Cancellation)
  | persist (i : Nat) (failure : Option CommitStep)
  | sync (i : Nat) (result : Except ErrorKind Unit)

def Event.call? : Event → Option Nat
  | .call _ => none
  | .load i _ _ _ | .verify i _ _ | .persist i _ | .sync i _ => some i

/-- What a call does next, and the state that it stores with it, if it stores one. -/
def Call.next (instants : Instants) (stored : Option TrustFile) (call : Call) :
    Event → Option TrustedState × Phase
  | .load _ cancelled readable now_seconds =>
    match call.phase with
    | .Called =>
      match start instants stored cancelled readable now_seconds with
      | .error error => (none, .Returned (.error error))
      | .ok (previous, now) => (none, .Loaded previous now_seconds now)
    | phase => (none, phase)
  | .verify _ source cancellation =>
    match call.phase with
    | .Loaded previous now_seconds now =>
      match verify instants call.request previous now_seconds now source cancellation with
      | .error error => (none, .Returned (.error error))
      | .ok (next_state, verified) => (none, .Verified previous next_state verified)
    | phase => (none, phase)
  | .persist _ failure =>
    match call.phase with
    | .Verified _ next_state verified =>
      match failure with
      | some _ => (none, .Returned (.error .StateIo))
      | none => (some next_state, .Persisted verified)
    | phase => (none, phase)
  | .sync _ result =>
    match call.phase with
    | .Persisted verified =>
      match sync_directory result with
      | .error error => (none, .Returned (.error error))
      | .ok () => (none, .Returned (.ok verified))
    | phase => (none, phase)
  | .call _ => (none, call.phase)

def step (instants : Instants) (u : Updaters) (event : Event) : Updaters :=
  match event, event.call? with
  | .call request, _ => { u with calls := u.calls ++ [⟨request, .Called⟩] }
  | event, some i =>
    match u.calls[i]? with
    | none => u
    | some call =>
      let (stored, phase) := call.next instants u.stored event
      { stored := (stored.map written).or u.stored, calls := u.calls.set i { call with phase } }
  | _, none => u

/-! ## What must hold of it -/

def trusted (stored : Option TrustFile) : Option TrustedState :=
  match inspect stored with
  | .Valid state => some state
  | _ => none

/-- Nothing that is trusted gets older. -/
structure NoOlder (before after : TrustedState) : Prop where
  root : before.root_version ≤ after.root_version
  timestamp : before.timestamp_version ≤ after.timestamp_version
  snapshot : before.snapshot_version ≤ after.snapshot_version
  targets : before.targets_version ≤ after.targets_version
  observed : before.observed_unix_seconds ≤ after.observed_unix_seconds

/-- The target is what the request asked for, as signed metadata says. -/
structure Answers (request : VerificationRequest) (verified : VerifiedTarget)
    (signed : Target) : Prop where
  name : verified.name = request.target
  channel : ∃ metadata, (signed.custom.lookup "termirust").bind MultiplexTargetMetadata.from_value =
    some metadata ∧ metadata.channel = request.channel ∧ metadata.version = verified.version
  platform : verified.platform = request.platform
  arch : verified.arch = request.arch
  store : verified.store_range.contains request.store_version = true
  protocol : verified.protocol_range.contains request.protocol_version = true

/-- When a file takes the old one's place, the state that is stored then is the one that the call
has loaded; and no directory that was changed fails to sync. -/
def fits (u : Updaters) : Event → Bool
  | .persist i none =>
    match u.calls[i]?.map Call.phase with
    | some (.Verified previous _ _) => trusted u.stored = previous
    | _ => true
  | .sync i result =>
    match u.calls[i]?.map Call.phase with
    | some (.Persisted _) => (sync_directory result).isOk
    | _ => true
  | _ => true

end multiplex_update_trust
