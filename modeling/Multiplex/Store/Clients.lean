-- Several clients of one repository: each commits against the revision of a
-- result it was given, and the repository compares the number only. The laws
-- say when that number still stands for what the client saw.
import Multiplex.Store.RepositoryRuns

open Checks multiplex_domain Numbered

namespace multiplex_store

/-- A document with its custody, which is what a revision number stands for. -/
abbrev Contents := ReplicationDocument × ReplicationCustodyMetadata

/-- A result a client was given, and whether its number was given out again. -/
structure Held where
  client : Nat
  token : Token Contents
  deriving DecidableEq

/-- The repository and what its clients were given so far. -/
structure Clients where
  root : Root
  held : List Held

def Clients.start : Clients := ⟨Root.empty, []⟩

/-- A new primary of `create` or `commit` gives out its revision. -/
def reissue (offered : Option ReplicationCustodyMetadata) (held : List Held) : Effect → List Held
  | .write_primary d =>
    if offered.isSome then held.map fun h => { h with token := h.token.mark d.revision } else held
  | _ => held

/-- A call of a client: what takes place, and the result it remembers when the
call returns a document. -/
def Clients.step (enc : Encoding) (w : Clients) (client : Nat) : Event → Clients
  | .call call cut =>
    let held := (performed enc w.root call cut).foldl (reissue call.offered) w.held
    let root := (w.root.step enc (.call call cut)).1
    match (w.root.step enc (.call call cut)).2 with
    | .ok (.snapshot s) => ⟨root, ⟨client, s.revision, (s.document, s.custody), false⟩ :: held⟩
    | _ => ⟨root, held⟩
  | .corrupt damage => ⟨(w.root.step enc (.corrupt damage)).1, w.held⟩

def Clients.run (enc : Encoding) (events : List (Nat × Event)) : Clients :=
  events.foldl (fun w e => w.step enc e.1 e.2) Clients.start

/-! ## The repository as a numbered value -/

def contentsOf : Option Raw → Option (Nat × Contents)
  | some (.stored d) => some (d.revision, d.replication, d.custody)
  | _ => none

def cellOf (disk : Disk) : Cell Contents :=
  ⟨contentsOf disk.primary_content, contentsOf disk.last_good⟩

def Clients.view (w : Clients) : Cell Contents × List (Token Contents) :=
  (cellOf w.root.disk, w.held.map Held.token)

variable {enc : Encoding}

theorem tokens_reissue (custody : ReplicationCustodyMetadata) (held : List Held)
    (d : StoredReplicationDocument) :
    (reissue (some custody) held (.write_primary d)).map Held.token =
      (held.map Held.token).map (Token.mark d.revision) := by
  unfold reissue
  simp only [Option.isSome_some, if_true]
  rw [List.map_map, List.map_map]
  rfl

variable {offered : Option ReplicationCustodyMetadata} {s : ReplicationRepositorySnapshot}
  {w : Clients}

theorem effect_step {effect : Effect} (hkept : WellKept enc w.root.disk)
    (hsound : Sound enc offered w.root effect) : Relation.ReflTransGen Step w.view
      (Clients.view ⟨w.root.apply effect, reissue offered w.held effect⟩) := by
  unfold Clients.view
  cases hsound with
  | @save current hcurrent =>
    have hcell : (cellOf w.root.disk).current =
        some (current.revision, current.replication, current.custody) := by
      unfold cellOf
      rw [hcurrent]
      rfl
    exact Relation.ReflTransGen.single (Step.save hcell)
  | journal journal => exact Relation.ReflTransGen.refl
  | unjournal => exact Relation.ReflTransGen.refl
  | link => exact Relation.ReflTransGen.refl
  | delete existed _ _ _ =>
    rw [apply_delete_disk]
    exact Relation.ReflTransGen.refl
  | @create d hprimary hstored hgiven =>
    have hcurrent : (cellOf w.root.disk).current = none := by
      unfold cellOf
      rw [primary_content_none_iff.mpr hprimary]
      rfl
    have hbackup : (cellOf w.root.disk).backup = none := by
      unfold cellOf
      rw [hkept.fresh hprimary]
      rfl
    have hcell : cellOf (w.root.apply (.write_primary d)).disk =
        ⟨some (d.revision, d.replication, d.custody), none⟩ := by
      rw [← hbackup]
      rfl
    rw [hcell, hgiven, tokens_reissue]
    exact Relation.ReflTransGen.single (Step.first _ _ hcurrent hbackup)
  | @commit current next hcurrent hsaved hrevision hstored hgiven =>
    have hcell : (cellOf w.root.disk).current =
        some (current.revision, current.replication, current.custody) := by
      unfold cellOf
      rw [hcurrent]
      rfl
    have hbackup : (cellOf w.root.disk).backup =
        some (current.revision, current.replication, current.custody) := by
      unfold cellOf
      rw [hsaved]
      rfl
    have hwritten : cellOf (w.root.apply (.write_primary next)).disk =
        { cellOf w.root.disk with
          current := some (current.revision + 1, next.replication, next.custody) } := by
      rw [← hrevision]
      rfl
    rw [hwritten, hgiven, tokens_reissue, hrevision]
    exact Relation.ReflTransGen.single (Step.issue _ hcell hbackup)
  | @recover damage d hdamaged hsaved hgiven =>
    have hcurrent : (cellOf w.root.disk).current = none := by
      unfold cellOf
      rw [hdamaged]
      rfl
    have hbackup : (cellOf w.root.disk).backup =
        some (d.revision, d.replication, d.custody) := by
      unfold cellOf
      rw [hsaved]
      rfl
    have hwritten : cellOf (w.root.apply (.write_primary d)).disk =
        { cellOf w.root.disk with current := (cellOf w.root.disk).backup } := by
      rw [hbackup]
      rfl
    rw [hwritten, hgiven]
    exact Relation.ReflTransGen.single (Step.restore hcurrent)

theorem effects_steps {effects : List Effect} {root : Root}
    (hchain : Chain enc offered root effects) : ∀ {held : List Held}, WellKept enc root.disk →
      Relation.ReflTransGen Step (Clients.view ⟨root, held⟩)
        (Clients.view ⟨effects.foldl Root.apply root, effects.foldl (reissue offered) held⟩) := by
  induction hchain with
  | nil root => exact fun _ => Relation.ReflTransGen.refl
  | @cons root effect rest head _ ih =>
    intro held hkept
    exact (effect_step (w := ⟨root, held⟩) hkept head).trans (ih (hkept.apply head))

theorem contents_view {root : Root} (hkept : WellKept enc root.disk) {call : Call}
    (h : (call.plan enc root.disk).outcome = .ok (.snapshot s)) (held : List Held) (client : Nat) :
    let after := (call.plan enc root.disk).effects.foldl Root.apply root
    Step (Clients.view ⟨after, held⟩)
      (Clients.view ⟨after, ⟨client, s.revision, (s.document, s.custody), false⟩ :: held⟩) := by
  rcases returned_from hkept h with ⟨d, pending, hd, rfl⟩ | ⟨damage, d, hdamaged, hd, rfl⟩
  · apply Step.seeCurrent
    unfold cellOf
    rw [hd]
    rfl
  · apply Step.seeBackup
    · unfold cellOf
      rw [hdamaged]
      rfl
    · unfold cellOf
      rw [hd]
      rfl

/-! ## Runs -/

section
variable (hkept : WellKept enc w.root.disk) (client : Nat) (event : Event)
include hkept

theorem clients_step_kept : WellKept enc (w.step enc client event).root.disk := by
  have hroot : (w.step enc client event).root = (w.root.step enc event).1 := by
    cases event with
    | call call cut =>
      unfold Clients.step
      simp only
      split
      · rfl
      · rfl
    | corrupt damage => rfl
  rw [hroot]
  exact step_kept hkept event

theorem clients_steps : Relation.ReflTransGen Step w.view (w.step enc client event).view := by
  cases event with
  | call call cut =>
    have heffects := @effects_steps enc call.offered _ w.root (performed_chain hkept call cut)
      w.held hkept
    cases cut with
    | some n => exact heffects
    | none =>
      unfold Clients.step
      simp only
      split
      case h_1 s hreply => exact heffects.tail (contents_view hkept hreply _ client)
      case h_2 => exact heffects
  | corrupt damage =>
    apply Relation.ReflTransGen.single
    have hcell : cellOf (w.root.step enc (.corrupt damage)).1.disk =
        { cellOf w.root.disk with current := none } := by
      unfold cellOf Disk.primary_content Root.step
      cases w.root.disk.primary with
      | none => rfl
      | some file => rfl
    unfold Clients.view Clients.step
    rw [hcell]
    exact Step.lose

end

theorem clients_run_snoc (enc : Encoding) (events : List (Nat × Event)) (e : Nat × Event) :
    Clients.run enc (events ++ [e]) = (Clients.run enc events).step enc e.1 e.2 := by
  unfold Clients.run
  rw [List.foldl_append]
  rfl

theorem clients_run_faithful (events : List (Nat × Event)) :
    WellKept enc (Clients.run enc events).root.disk ∧ Faithful (Clients.run enc events).view := by
  induction events using List.reverseRecOn with
  | nil => exact ⟨kept_empty, faithful_empty⟩
  | append_singleton events e ih =>
    rw [clients_run_snoc]
    exact ⟨clients_step_kept ih.1 e.1 e.2, ih.2.steps (clients_steps ih.1 e.1 e.2)⟩

theorem commit_replaces {disk : Disk} {expected : Nat} {document : ReplicationDocument}
    {custody : ReplicationCustodyMetadata} {retired : List ReplicationSecretRef}
    {policy : ReplicationPolicy}
    (h : (ReplicationRepository.commit enc disk expected document custody retired policy).outcome =
      .ok s) :
    ∃ current, disk.primary_content = some (.stored current) ∧ current.revision = expected := by
  rcases @commit_cases enc disk expected document custody retired policy with
    ⟨_, e, he⟩ | ⟨current, _, _, _, hcurrent, hexpected, _⟩
  · rw [he] at h
    cases h
  · exact ⟨current, hcurrent, hexpected⟩

/-- After any run, a commit that succeeds against the revision of a result some
client was given replaces the document and the custody of that result, as long
as the number was not given out again since. -/
theorem commit_replaces_what_was_seen (enc : Encoding) (events : List (Nat × Event))
    (expected : Nat) (document : ReplicationDocument) (custody : ReplicationCustodyMetadata)
    (retired : List ReplicationSecretRef) (policy : ReplicationPolicy) (reply : Reply)
    (hreply : ((Clients.run enc events).root.step enc
      (.call (.commit expected document custody retired policy) none)).2 = .ok reply)
    (held : Held) (hheld : held ∈ (Clients.run enc events).held)
    (hexpected : held.token.number = expected) (hfresh : held.token.reissued = false) :
    ∃ current, (Clients.run enc events).root.disk.primary_content = some (.stored current) ∧
      (current.replication, current.custody) = held.token.value := by
  obtain ⟨_, hfaithful⟩ := @clients_run_faithful enc events
  have hok : ∃ s, (ReplicationRepository.commit enc (Clients.run enc events).root.disk expected
      document custody retired policy).outcome = .ok s := by
    simp only [Root.step, Call.plan, Plan.reply] at hreply
    cases hcommit : (ReplicationRepository.commit enc (Clients.run enc events).root.disk expected
        document custody retired policy).outcome with
    | error e =>
      rw [hcommit] at hreply
      cases hreply
    | ok s => exact ⟨s, rfl⟩
  obtain ⟨s, hs⟩ := hok
  obtain ⟨current, hcurrent, hrevision⟩ := commit_replaces hs
  refine ⟨current, hcurrent, ?_⟩
  apply hfaithful.current held.token (List.mem_map_of_mem hheld) hfresh
  unfold Clients.view cellOf
  rw [hcurrent, hexpected, ← hrevision]
  rfl

/-- Two clients read revision two; one of them commits. -/
theorem commit_replaces_what_was_seen_after_a_load :
    let events : List (Nat × Event) :=
      [(0, .call (.create (noteDocument 1) (twoEpochs 1) samplePolicy) none),
        (0, .call (.commit 1 (noteDocument 2) (twoEpochs 1) [] samplePolicy) none),
        (1, .call (.load "workspace" samplePolicy) none)]
    ∃ current, (Clients.run smallEncoding events).root.disk.primary_content =
        some (.stored current) ∧
      (current.replication, current.custody) = (noteDocument 2, twoEpochs 1) := by
  intro events
  exact commit_replaces_what_was_seen smallEncoding events 2 (noteDocument 3) (twoEpochs 1) []
    samplePolicy (.snapshot ⟨3, noteDocument 3, twoEpochs 1, .Primary, false⟩) (by decide +kernel)
    ⟨1, 2, (noteDocument 2, twoEpochs 1), false⟩ (by decide +kernel) rfl rfl

/-- A client reads revision two, the primary is spoilt, the copy of revision one
is put back, and another client commits a second revision two. -/
def secondRevisionTwo : List (Nat × Event) :=
  [(0, .call (.create (noteDocument 1) (twoEpochs 1) samplePolicy) none),
    (0, .call (.commit 1 (noteDocument 2) (twoEpochs 1) [] samplePolicy) none),
    (1, .call (.load "workspace" samplePolicy) none),
    (0, .corrupt .garbage),
    (0, .call (.recover_last_good "workspace" samplePolicy) none),
    (0, .call (.commit 1 (noteDocument 3) (twoEpochs 1) [] samplePolicy) none)]

/-- The first client's commit then replaces a document it has never seen. -/
theorem commit_replaces_an_unseen_document :
    ¬ ∀ (enc : Encoding) (events : List (Nat × Event)) (expected : Nat)
      (document : ReplicationDocument) (custody : ReplicationCustodyMetadata)
      (retired : List ReplicationSecretRef) (policy : ReplicationPolicy) (reply : Reply),
      ((Clients.run enc events).root.step enc
        (.call (.commit expected document custody retired policy) none)).2 = .ok reply →
      ∀ held ∈ (Clients.run enc events).held, held.token.number = expected →
      ∃ current, (Clients.run enc events).root.disk.primary_content = some (.stored current) ∧
        (current.replication, current.custody) = held.token.value := by
  intro h
  have hreply : ((Clients.run smallEncoding secondRevisionTwo).root.step smallEncoding
      (.call (.commit 2 (noteDocument 4) (twoEpochs 1) [] samplePolicy) none)).2 =
      .ok (.snapshot ⟨3, noteDocument 4, twoEpochs 1, .Primary, false⟩) := by
    decide +kernel
  have hheld : (⟨1, 2, (noteDocument 2, twoEpochs 1), true⟩ : Held) ∈
      (Clients.run smallEncoding secondRevisionTwo).held := by
    decide +kernel
  obtain ⟨current, hcurrent, hvalue⟩ := h _ _ _ _ _ _ _ _ hreply _ hheld rfl
  have hprimary : (Clients.run smallEncoding secondRevisionTwo).root.disk.primary_content =
      some (.stored ⟨2, noteDocument 3, twoEpochs 1⟩) := by
    decide +kernel
  obtain rfl : current = ⟨2, noteDocument 3, twoEpochs 1⟩ := by
    cases hcurrent.symm.trans hprimary
    rfl
  exact absurd hvalue (by decide +kernel)

end multiplex_store
