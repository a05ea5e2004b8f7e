-- Restores, recoveries and writers of one store, in any number of processes and
-- in any order. A call that holds the lock runs in one step; between its steps
-- the others run.
import Multiplex.Lib.Runs
import Multiplex.Store.RecoveryPhases

open Crashes

namespace multiplex_store.recovery

/-- Where a call stands between two of its steps. -/
inductive Running where
  | idle
  | planned (plan : RecoveryPlan)
  | prepared (plan : RecoveryPlan)
  | placed (plan : RecoveryPlan)
  | failing (plan : RecoveryPlan) (value : RecoveryErrorCode)
  | rebuilt (plan : RecoveryPlan)
  | recovering (journal : RecoveryJournal)

/-- The restore whose folder a call has made. -/
def Running.underway : Running → Option RecoveryPlan
  | .prepared plan => some plan
  | .placed plan => some plan
  | .failing plan _ => some plan
  | .rebuilt plan => some plan
  | _ => none

/-- The journal that a call may still roll back. -/
def Running.held : Running → Option RecoveryJournal
  | .placed plan => some (plan.journal plan.files.length)
  | .failing plan _ => some (plan.journal plan.files.length)
  | .recovering journal => some journal
  | _ => none

/-- The store and the calls on it. What follows `calls` is kept for the laws only: the restores that
have returned `Restored`, the files that hold what a writer committed, how often writers have
committed to each file, how often they had when a restore had the lock, and whether a rollback has
overwritten a commit or undone a restore that had returned. -/
structure System where
  disk : Disk
  calls : Nat → Running
  returned : List Uuid
  written : MetadataFileKind → Bool
  commits : MetadataFileKind → Nat
  placed : Uuid → MetadataFileKind → Nat
  overwritten : Bool
  undone : Bool

inductive Event where
  | plan (p : Nat) (id : Uuid)
  | prepare (p : Nat) (fates : Fates)
  | place (p : Nat) (fates : Fates)
  | rebuild (p : Nat) (fates : Fates)
  | undo (p : Nat) (fates : Fates)
  | remove (p : Nat) (fates : Fates)
  | read (p : Nat) (fates : Fates)
  | rollBack (p : Nat) (fates : Fates)
  | commit (kind : MetadataFileKind) (content last_good : Entry Bytes)
  | die (p : Nat)

namespace System

def turns (s : System) (p : Nat) (r : Running) : System :=
  { s with calls := Function.update s.calls p r }

@[simp] theorem calls_turns_self (s : System) (p : Nat) (r : Running) : (s.turns p r).calls p = r := by
  simp [turns]

@[simp] theorem calls_turns_of_ne (s : System) {p q : Nat} (h : q ≠ p) (r : Running) :
    (s.turns p r).calls q = s.calls q := by
  simp [turns, h]

/-- A file that the service changes no longer holds what a writer committed. -/
def changes (s : System) (d : Disk) : System :=
  { s with
    disk := d
    written := fun kind => s.written kind && decide (d.primary kind = s.disk.primary kind) }

/-- Some file held a commit, and now holds something else than it may. -/
def loses (s : System) (d : Disk) (may : MetadataFileKind → Entry Bytes) : Bool :=
  MetadataFileKind.ALL.any fun kind => s.written kind &&
    decide (d.primary kind ≠ s.disk.primary kind) && decide (d.primary kind ≠ may kind)

/-- A rollback may leave a file only as it is. -/
def rolls (s : System) (d : Disk) : System :=
  { s.changes d with overwritten := s.overwritten || s.loses d s.disk.primary }

/-- A restore may put the last good copy in a file's place, and roll that back at once. -/
def places (s : System) (id : Uuid) (d : Disk) : System :=
  { s.changes d with
    overwritten := s.overwritten || s.loses d s.disk.last_good
    placed := Function.update s.placed id s.commits }

/-- The process that makes a step goes on from where it has come to, or is free again. -/
def after {α : Type} (s : System) (p : Nat) (o : Outcome RecoveryErrorCode α) (r : α → Running) :
    System :=
  match o with
  | .done a => s.turns p (r a)
  | _ => s.turns p .idle

variable (codec : Codec)

def step (s : System) : Event → System
  | .plan p id =>
    match s.calls p, plan_restore_last_good codec s.disk id with
    | .idle, .ok plan => if plan.files = [] then s else s.turns p (.planned plan)
    | _, _ => s
  | .prepare p fates =>
    match s.calls p with
    | .planned plan =>
      let (outcome, d) := prepare plan fates s.disk
      (s.changes d).after p outcome fun _ => .prepared plan
    | _ => s
  | .place p fates =>
    match s.calls p with
    | .prepared plan =>
      let (outcome, d) := place codec plan fates s.disk
      (s.places plan.id d).after p outcome fun _ => .placed plan
    | _ => s
  | .rebuild p fates =>
    match s.calls p with
    | .placed plan =>
      match rebuild_indexes fates s.disk with
      | (.done _, _) => s.turns p (.rebuilt plan)
      | (.failed value, _) => s.turns p (.failing plan value)
      | (.ended, _) => s.turns p .idle
    | _ => s
  | .undo p fates =>
    match s.calls p with
    | .failing plan value =>
      let (_, d) := (undo codec plan value : Recover Unit) fates s.disk
      (s.rolls d).turns p .idle
    | _ => s
  | .remove p fates =>
    match s.calls p with
    | .rebuilt plan =>
      match remove_active_journal .remove_journal fates s.disk with
      | (.done _, d) => { (s.changes d).turns p .idle with returned := plan.id :: s.returned }
      | (_, d) => (s.changes d).turns p .idle
    | _ => s
  | .read p fates =>
    match s.calls p with
    | .idle =>
      match read_active_journal fates s.disk with
      | (.done (some journal), _) => s.turns p (.recovering journal)
      | _ => s
    | _ => s
  | .rollBack p fates =>
    match s.calls p with
    | .recovering journal =>
      let (_, d) := roll_back_locked codec journal fates s.disk
      { (s.rolls d).turns p .idle with
        undone := s.undone || decide (journal.plan_id ∈ s.returned) }
    | _ => s
  | .commit kind content last_good =>
    { s with
      disk := { s.disk with
        primary := Function.update s.disk.primary kind content
        last_good := Function.update s.disk.last_good kind last_good }
      written := Function.update s.written kind true
      commits := Function.update s.commits kind (s.commits kind + 1) }
  | .die p => s.turns p .idle

/-- No two contents of a file of the plan that meet here share a hash. -/
def tellsApart (plan : RecoveryPlan) (d : Disk) : Bool :=
  plan.files.all fun file =>
    (match d.primary file.kind with
      | .file bytes => decide (file.current = some bytes) ||
          decide (file.current_sha256 ≠ some (codec.sha256_hex bytes))
      | _ => true) &&
    (match d.last_good file.kind with
      | .file bytes => decide (file.last_good = bytes) ||
          decide (file.last_good_sha256 ≠ codec.sha256_hex bytes)
      | _ => true)

/-- The journal that is on the disk is that of the same restore. -/
def isActive (s : System) (journal : RecoveryJournal) : Bool :=
  match s.disk.active with
  | .file (some active) => decide (active.plan_id = journal.plan_id)
  | _ => false

/-- No writer has committed to these files since the restore put its copies there. -/
def unwritten (s : System) (id : Uuid) (kinds : List MetadataFileKind) : Bool :=
  kinds.all fun kind => decide (s.commits kind = s.placed id kind)

/-- The steps that do not go wrong. -/
def safeStep (s : System) : Event → Bool
  | .place p _ =>
    match s.calls p with
    | .prepared plan => tellsApart codec plan s.disk
    | _ => true
  | .undo p _ =>
    match s.calls p with
    | .failing plan _ => s.unwritten plan.id (plan.files.map (·.kind))
    | _ => true
  | .rollBack p _ =>
    match s.calls p with
    | .recovering journal =>
      s.isActive journal && s.unwritten journal.plan_id (journal.entries.map (·.kind))
    | _ => true
  | _ => true

/-- A store on which nothing runs and no restore is to be rolled back. -/
def starts (d : Disk) : System where
  disk := d
  calls _ := .idle
  returned := []
  written _ := false
  commits _ := 0
  placed _ _ := 0
  overwritten := false
  undone := false

end System

end multiplex_store.recovery
