-- Processes that use one session journal. Each opens it, appends and compacts, and
-- may be killed between any two changes of its files, or with part of a frame
-- written. A run counts the segments that it opens.
import Multiplex.Store.JournalLaws

open Checks

namespace multiplex_store.journal

/-! ## Processes that come and go -/

/-- The files, the store of the process that is running, and every frame that was written. -/
structure Session where
  disk : Disk
  store : Option JournalStore
  history : List JournalFrame

def Session.start : Session := ⟨.empty, none, []⟩

inductive Action where
  | open
  | append (frame : JournalFrame)
  | compact (snapshot : TerminalSnapshot)

/-- An action that is done, or one that is cut off: after `done` changes of the files, and with
`part` bytes of a frame written. -/
inductive Event where
  | perform (action : Action)
  | crash (action : Action) (done part : Nat)

def Event.action : Event → Action
  | .perform action => action
  | .crash action _ _ => action

def Call.recorded (call : Call AppendOutcome) : Bool :=
  match call.result with
  | .ok .Recorded => true
  | _ => false

/-- What an action leads to when it is not cut off. -/
structure Plan where
  store : Option JournalStore
  ops : List FileOp
  recorded : List JournalFrame

section
variable (crc32c : List UInt8 → UInt32) (limits : JournalLimits)

def Session.plan (m : Session) : Action → Plan
  | .open =>
    match JournalStore.open crc32c m.disk limits with
    | .ok (store, ops) => ⟨some store, ops, []⟩
    | .error _ => ⟨none, [], []⟩
  | .append frame =>
    match m.store with
    | none => ⟨none, [], []⟩
    | some store =>
      let call := store.append crc32c m.disk frame
      ⟨some call.store, call.ops, if call.recorded then [frame] else []⟩
  | .compact snapshot =>
    match m.store with
    | none => ⟨none, [], []⟩
    | some store =>
      let call := store.compact crc32c m.disk snapshot
      ⟨some call.store, call.ops, []⟩

/-- The changes that are made when an action is cut off. -/
def cutShort (ops : List FileOp) (done part : Nat) : List FileOp :=
  ops.take done ++
    match ops[done]? with
    | some (.append index bytes) => [.append index (bytes.take part)]
    | _ => []

/-- The bytes that some changes write to the segments. -/
def written (ops : List FileOp) : List UInt8 :=
  ops.flatMap fun op =>
    match op with
    | .append _ bytes => bytes
    | _ => []

/-- The frame of an append that is cut off after its last byte was written. -/
def whole (action : Action) (ops : List FileOp) : List JournalFrame :=
  match action with
  | .append frame => if written ops = frame.bytes crc32c then [frame] else []
  | _ => []

def Session.changes (m : Session) : Event → List FileOp
  | .perform action => (m.plan crc32c limits action).ops
  | .crash action done part => cutShort (m.plan crc32c limits action).ops done part

def Session.step (m : Session) (event : Event) : Session :=
  let disk := m.disk.applyAll (m.changes crc32c limits event)
  match event with
  | .perform action =>
    let plan := m.plan crc32c limits action
    ⟨disk, plan.store, m.history ++ plan.recorded⟩
  | .crash action _ _ =>
    ⟨disk, none, m.history ++ whole crc32c action (m.changes crc32c limits event)⟩

def Session.run (m : Session) (events : List Event) : Session :=
  events.foldl (Session.step crc32c limits) m

/-- The sizes of all segment files. -/
def Disk.segmentBytes (d : Disk) : Nat := (d.segments.entries.map fun e => e.2.length).sum

/-! ## Rotations -/

def FileOp.isCreate : FileOp → Bool
  | .create _ => true
  | _ => false

/-- The segments that an event opens after the first one. -/
def Session.rotated (m : Session) (event : Event) : Nat :=
  match event.action with
  | .open => 0
  | _ => (m.changes crc32c limits event).countP FileOp.isCreate

def Session.rotations (m : Session) : List Event → Nat
  | [] => 0
  | event :: events =>
    m.rotated crc32c limits event + (m.step crc32c limits event).rotations events

/-- The segment that a change writes has a number of at most `n`. -/
def FileOp.UpTo (n : Nat) : FileOp → Prop
  | .create index => index ≤ n
  | .append index _ => index ≤ n
  | .set_len index _ => index ≤ n
  | _ => True

/-- Changes that write to segments up to number `n`, and open the next ones in order. -/
def Climbs (n : Nat) : List FileOp → Prop
  | [] => True
  | op :: ops => op.UpTo (n + op.isCreate.toNat) ∧ Climbs (n + op.isCreate.toNat) ops

/-- No segment has a number above `n`, and the store writes to none. -/
structure NumberedTo (n : Nat) (m : Session) : Prop where
  segments : ∀ e ∈ m.disk.segments.entries, e.1 ≤ n
  active : ∀ store, m.store = some store → store.active_index ≤ n

variable {n : Nat} {ops : List FileOp} {store : JournalStore} {m : Session}

variable {d : Disk} {segment_bytes : Nat} {paths : List (Nat × List UInt8)}

theorem upTo_apply {op : FileOp} (hop : op.UpTo n) (hd : ∀ e ∈ d.segments.entries, e.1 ≤ n) :
    ∀ e ∈ (d.apply op).segments.entries, e.1 ≤ n := by
  have hinsert : ∀ {index : Nat} {bytes : List UInt8}, index ≤ n →
      ∀ e ∈ (d.segments.insert index bytes).entries, e.1 ≤ n := by
    intro index bytes hindex e he
    rcases SortedMap.mem_insert.mp he with rfl | ⟨he, -⟩
    · exact hindex
    · exact hd e he
  cases op with
  | write_snapshot bytes => exact hd
  | write_recovery bytes => exact hd
  | create index => exact hinsert hop
  | append index bytes => exact hinsert hop
  | set_len index len => exact hinsert hop
  | remove index => exact fun e he => hd e (SortedMap.mem_erase.mp he).1

theorem upTo_applyAll : ∀ {d : Disk}, (∀ op ∈ ops, op.UpTo n) →
    (∀ e ∈ d.segments.entries, e.1 ≤ n) → ∀ e ∈ (d.applyAll ops).segments.entries, e.1 ≤ n := by
  induction ops with
  | nil => exact fun _ hd => hd
  | cons op ops ih =>
    intro d hops hd
    obtain ⟨hop, hops⟩ := List.forall_mem_cons.mp hops
    exact ih hops (upTo_apply hop hd)

theorem climbs_applyAll : ∀ {n : Nat} {d : Disk}, Climbs n ops →
    (∀ e ∈ d.segments.entries, e.1 ≤ n) →
    ∀ e ∈ (d.applyAll ops).segments.entries, e.1 ≤ n + ops.countP FileOp.isCreate := by
  induction ops with
  | nil => exact fun _ hd => hd
  | cons op ops ih =>
    intro n d hops hd
    have hcount : n + (op :: ops).countP FileOp.isCreate =
        n + op.isCreate.toNat + ops.countP FileOp.isCreate := by
      rw [List.countP_cons, Nat.add_comm (ops.countP _), Nat.add_assoc]
      cases op <;> rfl
    rw [hcount]
    exact ih hops.2 (upTo_apply hops.1 fun e he => (hd e he).trans (Nat.le_add_right _ _))

theorem climbs_cutShort (part : Nat) : ∀ {n done : Nat}, Climbs n ops →
    Climbs n (cutShort ops done part) := by
  induction ops with
  | nil =>
    intro n done _
    unfold cutShort
    rw [List.take_nil]
    trivial
  | cons op ops ih =>
    intro n done hops
    cases done with
    | zero =>
      cases op with
      | append index bytes => exact ⟨hops.1, trivial⟩
      | _ => trivial
    | succ done =>
      exact ⟨hops.1, ih hops.2⟩

theorem upTo_cutShort (h : ∀ op ∈ ops, op.UpTo n) (done part : Nat) :
    ∀ op ∈ cutShort ops done part, op.UpTo n := by
  intro op hop
  rcases List.mem_append.mp hop with hop | hop
  · exact h op (List.mem_of_mem_take hop)
  · split at hop
    · rename_i index bytes hget
      rw [List.mem_singleton.mp hop]
      exact h (.append index bytes) (List.mem_of_getElem? hget)
    · exact absurd hop List.not_mem_nil

theorem climbs_rotate {store' : JournalStore} (h : store.active_index ≤ n)
    (hrotate : store.rotate d = .ok (store', ops)) :
    store'.active_index ≤ n + 1 ∧ ops = [.create store'.active_index] := by
  unfold JournalStore.rotate at hrotate
  split at hrotate
  · cases hrotate
  split at hrotate
  · cases hrotate
  cases hrotate
  exact ⟨Nat.succ_le_succ h, rfl⟩

theorem climbs_append (h : store.active_index ≤ n) (d : Disk) (f : JournalFrame) :
    Climbs n (store.append crc32c d f).ops ∧ (store.append crc32c d f).store.active_index ≤
      n + (store.append crc32c d f).ops.countP FileOp.isCreate := by
  unfold JournalStore.append
  split
  · exact ⟨trivial, h⟩
  split
  · exact ⟨trivial, h⟩
  split
  · exact ⟨trivial, h⟩
  split
  · exact ⟨trivial, h⟩
  split
  · exact ⟨trivial, h⟩
  simp only
  split
  · exact ⟨trivial, h⟩
  rename_i store' ops hrotated
  split at hrotated
  · obtain ⟨hactive, rfl⟩ := climbs_rotate h hrotated
    exact ⟨⟨hactive, hactive, trivial⟩, hactive⟩
  · cases hrotated
    exact ⟨⟨h, trivial⟩, h⟩

theorem climbs_remove_segments {active_index boundary : Nat} (n : Nat) :
    ∀ {previous total_bytes : Nat},
    Climbs n (remove_segments crc32c segment_bytes active_index boundary paths previous
      total_bytes).1 := by
  induction paths with
  | nil => exact trivial
  | cons path paths ih =>
    intro previous total_bytes
    unfold remove_segments
    split
    · exact ih
    split
    · exact trivial
    split
    · exact ⟨trivial, ih⟩
    · exact ih

theorem climbs_compact (h : store.active_index ≤ n) (d : Disk) (snapshot : TerminalSnapshot) :
    Climbs n (store.compact crc32c d snapshot).ops ∧
      (store.compact crc32c d snapshot).store.active_index ≤
        n + (store.compact crc32c d snapshot).ops.countP FileOp.isCreate := by
  unfold JournalStore.compact
  split
  · exact ⟨trivial, h⟩
  split
  · exact ⟨trivial, h⟩
  simp only
  split
  · exact ⟨⟨trivial, trivial⟩, h⟩
  rename_i store' ops hrotated
  have hcases : (store'.active_index ≤ n ∧ ops = []) ∨
      (store'.active_index ≤ n + 1 ∧ ops = [.create store'.active_index]) := by
    split at hrotated
    · exact .inr (climbs_rotate h hrotated)
    · cases hrotated
      exact .inl ⟨h, rfl⟩
  rcases hcases with ⟨hactive, rfl⟩ | ⟨hactive, rfl⟩
  · split
    · exact ⟨⟨trivial, climbs_remove_segments crc32c n⟩, hactive.trans (Nat.le_add_right _ _)⟩
    · exact ⟨⟨trivial, climbs_remove_segments crc32c n⟩, hactive.trans (Nat.le_add_right _ _)⟩
  · have hone : ∀ (bytes : List UInt8) (index : Nat) (rest : List FileOp),
        n + 1 ≤ n + ([FileOp.write_snapshot bytes, .create index] ++ rest).countP FileOp.isCreate := by
      intro bytes index rest
      rw [List.countP_append]
      exact Nat.add_le_add_left (Nat.le_add_right 1 _) n
    split
    · exact ⟨⟨trivial, hactive, climbs_remove_segments crc32c (n + 1)⟩, hactive.trans (hone _ _ _)⟩
    · exact ⟨⟨trivial, hactive, climbs_remove_segments crc32c (n + 1)⟩, hactive.trans (hone _ _ _)⟩

theorem upTo_open_segments :
    ∀ {o o' : Opening}, (∀ e ∈ paths, e.1 ≤ n) → (∀ op ∈ o.ops, op.UpTo n) →
      open_segments crc32c segment_bytes paths o = .ok o' → ∀ op ∈ o'.ops, op.UpTo n := by
  induction paths with
  | nil =>
    intro o o' _ hops h
    cases h
    exact hops
  | cons path paths ih =>
    intro o o' hpaths hops h
    obtain ⟨index, file⟩ := path
    obtain ⟨bytes, -, h⟩ := bind_ok_iff.mp h
    obtain ⟨-, -, h⟩ := bind_ok_iff.mp h
    obtain ⟨scan, -, h⟩ := bind_ok_iff.mp h
    split at h
    · split at h
      · cases h
        have hindex : index ≤ n := hpaths (index, file) List.mem_cons_self
        intro op hop
        rcases List.mem_append.mp hop with hop | hop
        · split at hop
          · exact absurd hop List.not_mem_nil
          · rw [List.mem_singleton.mp hop]
            exact trivial
        · rw [List.mem_singleton.mp hop]
          exact hindex
      · cases h
        exact hops
    · refine ih (fun e he => hpaths e (List.mem_cons_of_mem _ he)) ?_ h
      exact hops

theorem upTo_open (hn : 1 ≤ n) (hd : ∀ e ∈ d.segments.entries, e.1 ≤ n)
    (h : JournalStore.open crc32c d limits = .ok (store, ops)) :
    (∀ op ∈ ops, op.UpTo n) ∧ store.active_index ≤ n := by
  have hpaths : ∀ e ∈ d.segment_paths, e.1 ≤ n := fun e he => hd e (List.mem_filter.mp he).1
  have hactive : (d.segment_paths.getLast?.map Prod.fst).getD 1 ≤ n := by
    cases hlast : d.segment_paths.getLast? with
    | none => exact hn
    | some e => exact hpaths e (List.mem_of_getLast? hlast)
  obtain ⟨limits', -, h⟩ := bind_ok_iff.mp h
  obtain ⟨snapshot, -, h⟩ := bind_ok_iff.mp h
  obtain ⟨o, hopen, h⟩ := bind_ok_iff.mp h
  cases h
  refine ⟨?_, hactive⟩
  intro op hop
  rcases List.mem_append.mp hop with hop | hop
  · exact upTo_open_segments crc32c hpaths (fun op hop => absurd hop List.not_mem_nil) hopen op hop
  · rw [List.mem_singleton.mp hop]
    exact hactive

/-- What `append` and `compact` write, and where they leave the store. -/
theorem climbs_plan (h : NumberedTo n m) {action : Action} (hne : action ≠ .open) :
    Climbs n (m.plan crc32c limits action).ops ∧
      ∀ store, (m.plan crc32c limits action).store = some store →
        store.active_index ≤ n + (m.plan crc32c limits action).ops.countP FileOp.isCreate := by
  unfold Session.plan
  cases action with
  | «open» => exact absurd rfl hne
  | append frame =>
    cases hstore : m.store with
    | none => exact ⟨trivial, fun store hnone => by cases hnone⟩
    | some store =>
      obtain ⟨hclimbs, hactive⟩ := climbs_append crc32c (h.active store hstore) m.disk frame
      refine ⟨hclimbs, ?_⟩
      rintro _ ⟨rfl⟩
      exact hactive
  | compact snapshot =>
    cases hstore : m.store with
    | none => exact ⟨trivial, fun store hnone => by cases hnone⟩
    | some store =>
      obtain ⟨hclimbs, hactive⟩ := climbs_compact crc32c (h.active store hstore) m.disk snapshot
      refine ⟨hclimbs, ?_⟩
      rintro _ ⟨rfl⟩
      exact hactive

theorem upTo_plan (hn : 1 ≤ n) (h : NumberedTo n m) :
    (∀ op ∈ (m.plan crc32c limits .open).ops, op.UpTo n) ∧
      ∀ store, (m.plan crc32c limits .open).store = some store → store.active_index ≤ n := by
  unfold Session.plan
  cases hopen : JournalStore.open crc32c m.disk limits with
  | error code => exact ⟨fun op hop => absurd hop List.not_mem_nil, fun store hnone => by cases hnone⟩
  | ok opened =>
    obtain ⟨hops, hactive⟩ := upTo_open crc32c limits hn h.segments hopen
    refine ⟨hops, ?_⟩
    rintro _ ⟨rfl⟩
    exact hactive

theorem rotated_of_ne {event : Event} (hne : event.action ≠ .open) :
    m.rotated crc32c limits event = (m.changes crc32c limits event).countP FileOp.isCreate := by
  unfold Session.rotated
  split
  · rename_i heq
    exact absurd heq hne
  · rfl

theorem numbered_step (hn : 1 ≤ n) (h : NumberedTo n m) (event : Event) :
    NumberedTo (n + m.rotated crc32c limits event) (m.step crc32c limits event) := by
  by_cases hopen : event.action = .open
  · obtain ⟨hops, hactive⟩ := upTo_plan crc32c limits hn h
    cases event with
    | perform action =>
      cases hopen
      exact ⟨upTo_applyAll hops h.segments, hactive⟩
    | crash action done part =>
      cases hopen
      exact ⟨upTo_applyAll (upTo_cutShort hops done part) h.segments, fun store hnone => by cases hnone⟩
  · rw [rotated_of_ne crc32c limits hopen]
    obtain ⟨hclimbs, hactive⟩ := climbs_plan crc32c limits h hopen
    cases event with
    | perform action => exact ⟨climbs_applyAll hclimbs h.segments, hactive⟩
    | crash action done part =>
      exact ⟨climbs_applyAll (climbs_cutShort part hclimbs) h.segments, fun store hnone => by cases hnone⟩
end

end multiplex_store.journal
