-- Runs of the repository: what a commit replaces, and what becomes of the
-- secrets that were retired.
import Multiplex.Lib.Numbered
import Multiplex.Store.Effects

open Checks multiplex_domain

namespace multiplex_store

variable {enc : Encoding} {root : Root}

/-! ## Steps keep the files -/

theorem step_kept (hkept : WellKept enc root.disk) (event : Event) :
    WellKept enc (root.step enc event).1.disk := by
  cases event with
  | call call cut =>
    have hstep : (root.step enc (.call call cut)).1 =
        (performed enc root call cut).foldl Root.apply root := by
      cases cut with
      | none => rfl
      | some n => rfl
    rw [hstep]
    exact hkept.foldl (performed_chain hkept call cut)
  | corrupt damage =>
    refine ⟨fun d hd => ?_, hkept.last_good, fun hnone => hkept.fresh ?_⟩
    · unfold Root.step Disk.primary_content at hd
      simp at hd
    · unfold Root.step at hnone
      simpa using hnone

def Root.run (enc : Encoding) (events : List Event) : Root :=
  events.foldl (fun root event => (root.step enc event).1) Root.empty

theorem Root.run_snoc (enc : Encoding) (events : List Event) (event : Event) :
    Root.run enc (events ++ [event]) = ((Root.run enc events).step enc event).1 := by
  unfold Root.run
  rw [List.foldl_append]
  rfl

theorem kept_empty : WellKept enc Root.empty.disk :=
  ⟨nofun, nofun, fun _ => rfl⟩

theorem run_kept (events : List Event) : WellKept enc (Root.run enc events).disk := by
  induction events using List.reverseRecOn with
  | nil => exact kept_empty
  | append_singleton events event ih =>
    rw [Root.run_snoc]
    exact step_kept ih event

/-! ## Retired secrets -/

def Clean (deleted : List ReplicationSecretRef) (custody : ReplicationCustodyMetadata) : Prop :=
  ∀ r ∈ deleted, custody.contains r = false

/-- What `load` and a recovery would return names no deleted secret. -/
structure Safe (root : Root) : Prop where
  primary : ∀ d, root.disk.primary_content = some (.stored d) → Clean root.deleted d.custody
  backup : ∀ damage d, root.disk.primary_content = some (.damaged damage) →
    root.disk.last_good = some (.stored d) → Clean root.deleted d.custody

theorem safe_written {root : Root} {d : StoredReplicationDocument}
    (h : Clean root.deleted d.custody) : Safe (root.apply (.write_primary d)) := by
  constructor
  · intro d' hd'
    cases hd'
    exact h
  · intro damage d' hdamaged
    cases hdamaged

theorem Safe.apply {offered : Option ReplicationCustodyMetadata} {effect : Effect}
    (h : Safe root) (hoffered : ∀ c, offered = some c → Clean root.deleted c)
    (hsound : Sound enc offered root effect) : Safe (root.apply effect) := by
  cases hsound with
  | save hcurrent =>
    refine ⟨h.primary, fun damage d hdamaged hd => ?_⟩
    cases hd
    exact h.primary _ hcurrent
  | journal journal => exact ⟨h.primary, h.backup⟩
  | unjournal => exact ⟨h.primary, h.backup⟩
  | link => exact ⟨h.primary, h.backup⟩
  | @delete current reference existed hcurrent hunreferenced _ =>
    -- the primary is readable, so the backup is not what would be returned
    cases existed with
    | false => exact h
    | true =>
      refine ⟨fun d hd => ?_, fun damage d hdamaged => ?_⟩
      · obtain rfl : current = d := by
          have heq := hcurrent.symm.trans hd
          cases heq
          rfl
        exact List.forall_mem_cons.mpr ⟨hunreferenced, h.primary current hd⟩
      · have heq := hcurrent.symm.trans hdamaged
        cases heq
  | create _ _ hgiven => exact safe_written (hoffered _ hgiven)
  | commit _ _ _ _ hgiven => exact safe_written (hoffered _ hgiven)
  | recover hdamaged hsaved _ => exact safe_written (h.backup _ _ hdamaged hsaved)

theorem deleted_apply_of_offered {custody : ReplicationCustodyMetadata} {effect : Effect}
    (hsound : Sound enc (some custody) root effect) :
    (root.apply effect).deleted = root.deleted := by
  cases hsound with
  | delete _ _ _ hnone => cases hnone
  | _ => rfl

theorem Safe.foldl {offered : Option ReplicationCustodyMetadata} {effects : List Effect}
    (h : Safe root) (hoffered : ∀ c, offered = some c → Clean root.deleted c)
    (hchain : Chain enc offered root effects) : Safe (effects.foldl Root.apply root) := by
  induction hchain with
  | nil root => exact h
  | cons head _ ih =>
    refine ih (h.apply hoffered head) fun c hc => ?_
    subst hc
    rw [deleted_apply_of_offered head]
    exact hoffered c rfl

/-- The primary is not spoilt while its predecessor's copy names a deleted
secret, and nobody writes a custody that names one. -/
def Careful (root : Root) : Event → Prop
  | .call call _ => ∀ c, call.offered = some c → Clean root.deleted c
  | .corrupt _ => ∀ d, root.disk.last_good = some (.stored d) → Clean root.deleted d.custody

theorem step_safe (hkept : WellKept enc root.disk) (hsafe : Safe root) {event : Event}
    (hcareful : Careful root event) : Safe (root.step enc event).1 := by
  cases event with
  | call call cut =>
    have hchain := performed_chain hkept call cut
    cases cut with
    | none => exact hsafe.foldl hcareful hchain
    | some n => exact hsafe.foldl hcareful hchain
  | corrupt damage =>
    refine ⟨fun d hd => ?_, fun damage' d _ hd => hcareful d hd⟩
    unfold Root.step Disk.primary_content at hd
    simp at hd

def EveryStep (enc : Encoding) (condition : Root → Event → Prop) : Root → List Event → Prop
  | _, [] => True
  | root, event :: rest =>
    condition root event ∧ EveryStep enc condition (root.step enc event).1 rest

theorem run_safe {events : List Event} : ∀ {root : Root}, WellKept enc root.disk → Safe root →
    EveryStep enc Careful root events →
    Safe (events.foldl (fun root event => (root.step enc event).1) root) := by
  induction events with
  | nil => exact fun _ hsafe _ => hsafe
  | cons event rest ih =>
    intro root hkept hsafe hcareful
    exact ih (step_kept hkept event) (step_safe hkept hsafe hcareful.1) hcareful.2

theorem safe_empty : Safe Root.empty := ⟨nofun, nofun⟩

theorem deleted_subset_apply (root : Root) (effect : Effect) :
    root.deleted ⊆ (root.apply effect).deleted := by
  cases effect with
  | delete_secret reference existed =>
    cases existed with
    | false => exact List.Subset.refl _
    | true => exact List.subset_cons_self _ _
  | _ => exact List.Subset.refl _

theorem deleted_subset_foldl (effects : List Effect) :
    ∀ root : Root, root.deleted ⊆ (effects.foldl Root.apply root).deleted := by
  induction effects with
  | nil => exact fun root => List.Subset.refl _
  | cons effect rest ih =>
    intro root
    exact List.Subset.trans (deleted_subset_apply root effect) (ih (root.apply effect))

/-- What a call returns names no deleted secret when it is given none. -/
theorem returned_clean (hkept : WellKept enc root.disk) (hsafe : Safe root) {call : Call}
    (hcall : call.offered = none) {s : ReplicationRepositorySnapshot}
    (h : (call.plan enc root.disk).outcome = .ok (.snapshot s)) : Clean root.deleted s.custody := by
  have hafter : Safe ((call.plan enc root.disk).effects.foldl Root.apply root) := by
    refine hsafe.foldl (fun c hc => ?_) (plan_chain hkept call)
    rw [hcall] at hc
    cases hc
  have hclean : Clean ((call.plan enc root.disk).effects.foldl Root.apply root).deleted
      s.custody := by
    rcases returned_from hkept h with ⟨d, pending, hd, rfl⟩ | ⟨damage, d, hdamaged, hd, rfl⟩
    · exact hafter.primary d hd
    · exact hafter.backup damage d hdamaged hd
  exact fun r hr => hclean r (deleted_subset_foldl _ root hr)

/-- In a run in which the primary is spoilt only while the copy of its
predecessor names no deleted secret, and in which no custody with a deleted
secret is written, nothing that is read back names one. -/
theorem returned_custody_names_no_deleted_secret (enc : Encoding) (events : List Event)
    (hcareful : EveryStep enc Careful Root.empty events) (call : Call)
    (hcall : call.offered = none) (s : ReplicationRepositorySnapshot)
    (h : ((Root.run enc events).step enc (.call call none)).2 = .ok (.snapshot s)) :
    ∀ r ∈ (Root.run enc events).deleted, s.custody.contains r = false :=
  returned_clean (run_kept events) (run_safe kept_empty safe_empty hcareful) hcall h

/-! ### A retired epoch -/

def epochKey (epoch : Nat) : ReplicationSecretRef :=
  ⟨.EpochKey, some epoch, 7#256, by decide, by simp⟩

def deviceKey : ReplicationSecretRef := ⟨.DevicePrivateKey, none, 9#256, by decide, by simp⟩

/-- The custody of a member that keeps two epochs, from the given one on. -/
def twoEpochs (first : Nat) : ReplicationCustodyMetadata where
  authority := none
  device := deviceKey
  historical :=
    { limit := 2
      references := ⟨[(first, epochKey first), (first + 1, epochKey (first + 1))], by simp⟩
      limit_bounds := by decide
      bounded := by simp [SortedMap.size]
      nonempty := by simp
      epochs := by simp [epochKey]
      contiguous := by simp }
  authority_kind := by simp
  device_kind := rfl

def noteDocument (payload : UInt8) : ReplicationDocument :=
  sampleDocument [sampleVersion "alpha" [("alpha", 1)] payload]

/-- Small documents, whose JSON is far from every limit. -/
def smallEncoding : Encoding := ⟨fun _ => 512, fun _ => 1024, fun _ => 256⟩

/-- A replica with two epochs is created, moves on by one epoch, and the oldest
key is deleted. -/
def retirement : List Event :=
  [.call (.create (noteDocument 1) (twoEpochs 1) samplePolicy) none,
    .call (.commit 1 (noteDocument 1) (twoEpochs 2) [epochKey 1] samplePolicy) none,
    .call (.retire_pending (fun _ => .ok true) "workspace" samplePolicy) none]

/-- When the primary is spoilt after a retirement, `load` still hands out the
reference to the deleted key. -/
theorem load_returns_a_deleted_secret :
    ¬ ∀ (enc : Encoding) (events : List Event) (call : Call) (s : ReplicationRepositorySnapshot),
      call.offered = none →
      ((Root.run enc events).step enc (.call call none)).2 = .ok (.snapshot s) →
      ∀ r ∈ (Root.run enc events).deleted, s.custody.contains r = false := by
  intro h
  have hload : ((Root.run smallEncoding (retirement ++ [.corrupt .garbage])).step smallEncoding
      (.call (.load "workspace" samplePolicy) none)).2 =
      .ok (.snapshot ⟨1, noteDocument 1, twoEpochs 1, .LastGood, false⟩) := by
    decide +kernel
  have hdeleted : epochKey 1 ∈
      (Root.run smallEncoding (retirement ++ [.corrupt .garbage])).deleted := by
    decide +kernel
  have hclean := h smallEncoding _ _ _ rfl hload (epochKey 1) hdeleted
  exact absurd hclean (by decide +kernel)

/-- After one more commit the copy names the deleted key no longer. -/
theorem returned_custody_names_no_deleted_secret_after_a_commit :
    let events := retirement ++
      [.call (.commit 2 (noteDocument 2) (twoEpochs 2) [] samplePolicy) none, .corrupt .garbage]
    let s : ReplicationRepositorySnapshot := ⟨2, noteDocument 1, twoEpochs 2, .LastGood, false⟩
    ((Root.run smallEncoding events).step smallEncoding
        (.call (.load "workspace" samplePolicy) none)).2 = .ok (.snapshot s) ∧
      epochKey 1 ∈ (Root.run smallEncoding events).deleted ∧
      ∀ r ∈ (Root.run smallEncoding events).deleted, s.custody.contains r = false := by
  intro events s
  have hload : ((Root.run smallEncoding events).step smallEncoding
      (.call (.load "workspace" samplePolicy) none)).2 = .ok (.snapshot s) := by
    decide +kernel
  have hcareful : EveryStep smallEncoding Careful Root.empty events := by
    refine ⟨?_, ?_, ?_, ?_, ?_, trivial⟩
    · exact fun c _ r hr => absurd hr List.not_mem_nil
    · intro c hc
      cases hc
      unfold Clean
      decide +kernel
    · exact fun c hc => by cases hc
    · intro c hc
      cases hc
      unfold Clean
      decide +kernel
    · intro d hd
      have hcopy : d = ⟨2, noteDocument 1, twoEpochs 2⟩ := by
        have hlast : (Root.run smallEncoding (events.take 4)).disk.last_good =
            some (.stored ⟨2, noteDocument 1, twoEpochs 2⟩) := by decide +kernel
        cases hd.symm.trans hlast
        rfl
      rw [hcopy]
      unfold Clean
      decide +kernel
  exact ⟨hload, by decide +kernel, returned_custody_names_no_deleted_secret smallEncoding events
    hcareful (.load "workspace" samplePolicy) rfl s hload⟩

end multiplex_store
