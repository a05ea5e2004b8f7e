-- Repair of the motion stream on the viewer, as `video.rs` has it, together
-- with the parity the host sends for a group of frames (`parity.rs`).
import Multiplex.Lib.SortedMap
import Multiplex.ScreenProtocol.Message

namespace multiplex_screen_host

open multiplex_screen_protocol

def parity_for (surface : UInt32) (group : UInt64) (frames : List VideoFrame) (shards : Nat) :
    Except ProtocolError (List Parity) :=
  if frames.isEmpty ∨ shards = 0 then .ok []
  else do
    let encoded ← frames.mapM VideoFrame.encode
    let length := shard_length encoded
    if length > MAX_PARITY_BYTES then return []
    let packed ← encoded.mapM fun message => pack_shard message length
    let fec ← Fec.new frames.length shards
    let parity ← fec.encode packed
    return parity.zipIdx.map fun p =>
      ⟨surface, group, UInt8.ofNat p.2, UInt8.ofNat frames.length, p.1⟩

end multiplex_screen_host

namespace multiplex_screen_session

open multiplex_screen_protocol multiplex_screen_host

def REMEMBERED_FRAMES : Nat := 64
def REMEMBERED_GROUPS : Nat := 8
def TRACKED_SURFACES : Nat := 4
def GAP_PATIENCE_GROUPS : Nat := 2
def ASSUMED_GROUP : Nat := 4

/-- What a sum or a product of two `u64` is in a release build. -/
def wrap64 (n : Nat) : Nat := n % 2 ^ 64

structure Repaired where
  surface : UInt32
  frames : List VideoFrame
  lost : List Nat

def Repaired.default : Repaired := ⟨0, [], []⟩

/-- `struct Surface`: what is kept of one surface's stream. -/
structure Surface where
  frames : SortedMap Nat (List UInt8)
  parity : SortedMap Nat (List (Nat × Shard))
  shape : SortedMap Nat Nat
  highest : Nat
  gaps : List Nat
  group : Nat

def Surface.default : Surface := ⟨.empty, .empty, .empty, 0, [], 0⟩

/-! ## Gaps -/

def Surface.patience (s : Surface) : Nat :=
  wrap64 ((if s.group = 0 then ASSUMED_GROUP else s.group) * GAP_PATIENCE_GROUPS)

/-- A gap that has been open too long to still be waiting for its parity. -/
def Surface.aged (s : Surface) (gap : Nat) : Bool :=
  decide (s.highest > wrap64 (gap + s.patience))

def Surface.age_gaps (s : Surface) (repaired : Repaired) : Surface × Repaired :=
  ({ s with gaps := s.gaps.filter fun gap => !s.aged gap },
    { repaired with lost := repaired.lost ++ s.gaps.filter s.aged })

/-- `gaps.push`, unless it is there. -/
def push_gap (gaps : List Nat) (missing : Nat) : List Nat :=
  if gaps.contains missing then gaps else gaps ++ [missing]

/-- Anything between the highest seen and this one never arrived. -/
def Surface.notice_gaps (s : Surface) (sequence : Nat) : Surface :=
  if sequence > s.highest then
    { s with
      gaps := (List.range' (s.highest + 1) (sequence - (s.highest + 1))).foldl push_gap s.gaps
      highest := sequence }
  else s

def Surface.drop_gap (s : Surface) (sequence : Nat) : Surface :=
  { s with gaps := s.gaps.filter fun gap => decide (gap ≠ sequence) }

/-! ## Closing a group -/

def Surface.expected_surface (s : Surface) : Option UInt32 :=
  match s.frames.entries with
  | [] => none
  | first :: _ => (VideoFrame.decode first.2).map VideoFrame.surface

/-- `(first..first + shards)` for the frames of a group. -/
def group_sequences (group shards : Nat) : List Nat :=
  let first := wrap64 (wrap64 (group * shards) + 1)
  List.range' first (wrap64 (first + shards) - first)

/-- A rebuilt shard is taken when it says it is the frame that was missing. -/
def accept_shard (expected : Option UInt32) (sequence : Nat) (shard : Shard) : Option VideoFrame :=
  match unpack_shard shard with
  | .error _ => none
  | .ok bytes =>
    match VideoFrame.decode bytes with
    | none => none
    | some frame =>
      if frame.sequence.toNat = sequence ∧ expected.all (fun id => frame.surface == id) then some frame
      else none

/-- One turn of the loop over the rebuilt frames. -/
def write_rebuilt (s : Surface × Repaired) (rebuilt : Nat × Option VideoFrame) :
    Surface × Repaired :=
  match rebuilt.2 with
  | some frame =>
    let frames := match frame.encode with
      | .ok encoded => s.1.frames.insert rebuilt.1 encoded
      | .error _ => s.1.frames
    ({ s.1 with frames := frames }.drop_gap rebuilt.1,
      { s.2 with frames := s.2.frames ++ [frame] })
  | none => (s.1.drop_gap rebuilt.1, { s.2 with lost := s.2.lost ++ [rebuilt.1] })

/-- The group asks for nothing more. -/
def Surface.forget (s : Surface) (group : Nat) : Surface :=
  { s with parity := s.parity.erase group, shape := s.shape.erase group }

/-- Rebuilds a group, if everything it needs has arrived. -/
def Surface.close (s : Surface) (group : Nat) (repaired : Repaired) : Surface × Repaired :=
  match s.shape.get? group, s.parity.get? group with
  | some shards, some held =>
    let sequences := group_sequences group shards
    let missing := sequences.countP fun sequence => !s.frames.contains sequence
    if missing = 0 then (s.forget group, repaired)
    else if missing > held.length then (s, repaired)
    else
      let length := (held.headD (0, [])).2.length
      let data := sequences.map fun sequence => (s.frames.get? sequence).map fun bytes =>
        (pack_shard bytes length).toOption.getD []
      if (data.filterMap id).any fun shard => decide (shard.length ≠ length) then (s, repaired)
      else
        match Fec.new shards (max held.length 1) with
        | .error _ => (s, repaired)
        | .ok fec =>
          match fec.rebuild data held with
          | (_, .error _) => (s, repaired)
          | (data, .ok ()) =>
            let missing := (sequences.zip data).filter fun d => !s.frames.contains d.1
            let rebuilt := missing.map fun d =>
              (d.1, d.2.bind (accept_shard s.expected_surface d.1))
            let (s, repaired) := rebuilt.foldl write_rebuilt (s, repaired)
            (s.forget group, repaired)
  | _, _ => (s, repaired)

/-! ## Frames and parity of one surface -/

def Surface.frame (s : Surface) (frame : VideoFrame) (encoded : List UInt8) : Surface × Repaired :=
  let sequence := frame.sequence.toNat
  let s := (s.notice_gaps sequence).drop_gap sequence
  let s := { s with frames := (s.frames.insert sequence encoded).keepLast REMEMBERED_FRAMES }
  s.age_gaps ⟨frame.surface, [], []⟩

/-- The group's shards with one more, unless its index is there. -/
def push_shard (held : List (Nat × Shard)) (index : Nat) (payload : Shard) : List (Nat × Shard) :=
  if held.any fun h => decide (h.1 = index) then held else held ++ [(index, payload)]

/-- The oldest groups go while there are too many. -/
def Surface.drop_groups (s : Surface) : Surface :=
  let dropped := (s.parity.entries.take (s.parity.size - REMEMBERED_GROUPS)).map Prod.fst
  { s with
    parity := s.parity.keepLast REMEMBERED_GROUPS
    shape := dropped.foldl (fun shape group => shape.erase group) s.shape }

def Surface.keep_shard (s : Surface) (parity : Parity) : Surface :=
  let group := parity.group.toNat
  let held := push_shard ((s.parity.get? group).getD []) parity.index.toNat parity.payload
  { s with
    group := parity.data_shards.toNat
    shape := s.shape.insert group parity.data_shards.toNat
    parity := s.parity.insert group held }.drop_groups

/-- `parity`, on the surface that the shard belongs to. -/
def Surface.record_parity (s : Surface) (parity : Parity) : Surface × Repaired :=
  let (s, repaired) := (s.keep_shard parity).close parity.group.toNat ⟨parity.surface, [], []⟩
  s.age_gaps repaired

/-! ## All surfaces -/

structure VideoRepair where
  surfaces : SortedMap Nat Surface

def VideoRepair.default : VideoRepair := ⟨.empty⟩

/-- A surface, with a place made for it when too many are tracked. -/
def VideoRepair.surface (r : VideoRepair) (id : UInt32) : VideoRepair × Surface :=
  let surfaces :=
    if !r.surfaces.contains id.toNat ∧ r.surfaces.size ≥ TRACKED_SURFACES then
      r.surfaces.keepLast (r.surfaces.size - 1)
    else r.surfaces
  (⟨surfaces⟩, (surfaces.get? id.toNat).getD .default)

def VideoRepair.store (r : VideoRepair) (id : UInt32) (s : Surface) : VideoRepair :=
  ⟨r.surfaces.insert id.toNat s⟩

def VideoRepair.frame (r : VideoRepair) (frame : VideoFrame) : VideoRepair × Repaired :=
  match frame.encode with
  | .error _ => (r, .default)
  | .ok encoded =>
    let (r, s) := r.surface frame.surface
    let (s, repaired) := s.frame frame encoded
    (r.store frame.surface s, repaired)

/-- Records a parity shard and tries to close the group it covers. -/
def VideoRepair.parity (r : VideoRepair) (parity : Parity) : VideoRepair × Repaired :=
  if parity.data_shards = 0 ∨ parity.payload.isEmpty then (r, .default)
  else
    let (r, s) := r.surface parity.surface
    let (s, repaired) := s.record_parity parity
    (r.store parity.surface s, repaired)

/-- What the link brings. -/
inductive Arrival
  | Frame (frame : VideoFrame)
  | Shard (parity : Parity)
  deriving DecidableEq

def VideoRepair.arrive (r : VideoRepair) : Arrival → VideoRepair × Repaired
  | .Frame frame => r.frame frame
  | .Shard parity => r.parity parity

/-- The state after all of a list has arrived, and what each arrival produced. -/
def VideoRepair.run (r : VideoRepair) : List Arrival → VideoRepair × List Repaired
  | [] => (r, [])
  | a :: rest =>
    let (r, repaired) := r.arrive a
    let (r, later) := r.run rest
    (r, repaired :: later)

end multiplex_screen_session
