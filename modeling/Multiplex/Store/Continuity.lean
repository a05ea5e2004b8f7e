-- The links from a session to the one that has replaced it, in their file. A link
-- is added under a lock, and only where it makes a chain longer: the session that
-- it leads to is in no link yet. So the chains stay simple, whoever adds to them.
import Mathlib.Logic.Relation
import Multiplex.Domain.Sessions
import Multiplex.Lib.Locked
import Multiplex.Store.ControllerDevices

open Checks
open multiplex_domain.session (HostedSessionId Revision)
open multiplex_store.controller_devices (AtomicWrite)

namespace multiplex_store.continuity

def MAX_CONTINUITY_DOCUMENT_BYTES : Nat := 1024 * 1024
def CURRENT_CONTINUITY_FORMAT : Nat := 1
def MAX_CONTINUITY_LINKS : Nat := 10000
def U64_MAX : Nat := 2 ^ 64 - 1

inductive Durability where
  | Full
  | RenameOnly
  deriving DecidableEq

inductive ContinuityStoreError where
  | Io (operation : String)
  | UnsafeEntry
  | TooLarge
  | Corrupt
  | Newer (found supported : Nat)
  | StaleRevision (expected actual : Revision)
  | RevisionOverflow
  | Conflict
  deriving DecidableEq

abbrev Fallible (α : Type) := Except ContinuityStoreError α

structure ContinuityLink where
  command_id : Nat
  source_session_id : HostedSessionId
  replacement_session_id : HostedSessionId
  runtime_id : String
  prior_generation : Nat
  replacement_generation : Nat
  committed_at : Nat
  deriving DecidableEq

structure ContinuitySnapshot where
  revision : Revision
  links : List ContinuityLink
  durability : Durability
  deriving DecidableEq

structure ContinuityDocument where
  format_version : Nat
  revision : Revision
  links : List ContinuityLink

def ContinuityDocument.default : ContinuityDocument := ⟨CURRENT_CONTINUITY_FORMAT, 0, []⟩

def snapshot (document : ContinuityDocument) (durability : Durability) : ContinuitySnapshot :=
  ⟨document.revision, document.links, durability⟩

/-! ## Which links go together -/

def validate_link (link : ContinuityLink) : Fallible Unit :=
  refuseIf .Corrupt (link.source_session_id = link.replacement_session_id ∨
    link.prior_generation = U64_MAX ∨ link.replacement_generation ≠ link.prior_generation + 1)

/-- The later link would fork a chain, join two of them, or lead back into one. -/
def competes (existing link : ContinuityLink) : Prop :=
  existing.source_session_id = link.source_session_id ∨
    existing.replacement_session_id = link.replacement_session_id ∨
    existing.source_session_id = link.replacement_session_id

instance (existing link : ContinuityLink) : Decidable (competes existing link) :=
  inferInstanceAs (Decidable (_ ∨ _))

/-- The loop over the links, with those before. -/
def validate_after (before : List ContinuityLink) : List ContinuityLink → Fallible Unit
  | [] => pure ()
  | link :: rest => do
    validate_link link
    refuseIf .Corrupt (∃ existing ∈ before, existing.command_id = link.command_id ∨
      competes existing link)
    validate_after (before ++ [link]) rest

def validate_links (links : List ContinuityLink) : Fallible Unit := do
  refuseIf .TooLarge (links.length > MAX_CONTINUITY_LINKS)
  validate_after [] links

/-! ## The file -/

/-- What stands under the name of the document, with its length. -/
inductive StoredFile where
  | missing
  | unsafe_entry
  | unreadable (bytes : Nat)
  | holds (document : ContinuityDocument) (bytes : Nat)

def read_document (file : StoredFile) : Fallible ContinuityDocument :=
  match file with
  | .missing => .error (.Io "inspect")
  | .unsafe_entry => .error .UnsafeEntry
  | .unreadable bytes =>
    if bytes > MAX_CONTINUITY_DOCUMENT_BYTES then .error .TooLarge else .error .Corrupt
  | .holds document bytes => do
    refuseIf .TooLarge (bytes > MAX_CONTINUITY_DOCUMENT_BYTES)
    refuseIf (.Newer document.format_version CURRENT_CONTINUITY_FORMAT)
      (document.format_version > CURRENT_CONTINUITY_FORMAT)
    validate_links document.links
    pure document

def load (file : StoredFile) : Fallible ContinuitySnapshot :=
  (read_document file).map (snapshot · .Full)

/-- What the file system does in one call. -/
structure Disk where
  reads : Bool
  write : AtomicWrite
  durability : Durability

section
variable (size : ContinuityDocument → Nat)

/-- `size` is the length of a document as it is written. -/
def write_document (file : StoredFile) (document : ContinuityDocument) (write : AtomicWrite) :
    Fallible Unit × StoredFile :=
  match validate_links document.links with
  | .error e => (.error e, file)
  | .ok () =>
    if size document > MAX_CONTINUITY_DOCUMENT_BYTES then (.error .TooLarge, file)
    else
      match write with
      | .written => (.ok (), .holds document (size document))
      | .failed => (.error (.Io "write"), file)
      | .failed_after_rename => (.error (.Io "write"), .holds document (size document))

def extended (document : ContinuityDocument) (expected : Revision) (link : ContinuityLink) :
    Fallible ContinuityDocument := do
  refuseIf (.StaleRevision expected document.revision) (document.revision ≠ expected)
  refuseIf .TooLarge (document.links.length ≥ MAX_CONTINUITY_LINKS)
  refuseIf .Conflict (∃ existing ∈ document.links, competes existing link)
  validate_links (document.links ++ [link])
  refuseIf .RevisionOverflow (document.revision = U64_MAX)
  pure { document with revision := document.revision + 1, links := document.links ++ [link] }

structure Request where
  expected : Revision
  link : ContinuityLink
  disk : Disk

def record (request : Request) (file : StoredFile) : Fallible ContinuitySnapshot × StoredFile :=
  match validate_link request.link with
  | .error e => (.error e, file)
  | .ok () =>
    if ¬ request.disk.reads then (.error (.Io "read"), file)
    else
      match read_document file with
      | .error e => (.error e, file)
      | .ok document =>
        match document.links.find? (·.command_id = request.link.command_id) with
        | some existing =>
          if existing = request.link then (.ok (snapshot document .Full), file)
          else (.error .Conflict, file)
        | none =>
          match extended document request.expected request.link with
          | .error e => (.error e, file)
          | .ok next =>
            match write_document size file next request.disk.write with
            | (.error e, file) => (.error e, file)
            | (.ok (), file) => (.ok (snapshot next request.disk.durability), file)

end

/-! ## Simple chains -/

def Succeeds (links : List ContinuityLink) (id next : HostedSessionId) : Prop :=
  ∃ link ∈ links, link.source_session_id = id ∧ link.replacement_session_id = next

structure SimpleChains (links : List ContinuityLink) : Prop where
  one_successor : ∀ {id a b}, Succeeds links id a → Succeeds links id b → a = b
  one_predecessor : ∀ {a b next}, Succeeds links a next → Succeeds links b next → a = b
  /-- Whoever follows successors comes to an end. -/
  ends : WellFounded fun next id => Succeeds links id next
  no_loop : ∀ id, ¬ Relation.TransGen (Succeeds links) id id

/-- The later link has a command of its own and makes a chain longer. -/
def Apart (existing link : ContinuityLink) : Prop :=
  existing.command_id ≠ link.command_id ∧ ¬ competes existing link

variable {size : ContinuityDocument → Nat} {links : List ContinuityLink} {file : StoredFile}
  {document : ContinuityDocument} {request : Request}

theorem validate_after_ok {before : List ContinuityLink} (h : validate_after before links = .ok ()) :
    (∀ link ∈ links, validate_link link = .ok ()) ∧
      links.Pairwise Apart ∧ ∀ existing ∈ before, ∀ link ∈ links, Apart existing link := by
  induction links generalizing before with
  | nil => simp
  | cons link rest ih =>
    unfold validate_after at h
    simp only [bind_ok_iff, refuseIf_ok_iff] at h
    obtain ⟨_, hlink, _, hbefore, hrest⟩ := h
    obtain ⟨hvalid, hapart, hafter⟩ := ih hrest
    refine ⟨?_, ?_, ?_⟩
    · rw [List.forall_mem_cons]
      exact ⟨hlink, hvalid⟩
    · rw [List.pairwise_cons]
      exact ⟨hafter link (List.mem_append_right _ (List.mem_singleton_self link)), hapart⟩
    · intro existing hexisting
      rw [List.forall_mem_cons]
      refine ⟨⟨fun heq => hbefore ⟨existing, hexisting, .inl heq⟩,
        fun heq => hbefore ⟨existing, hexisting, .inr heq⟩⟩, ?_⟩
      exact hafter existing (List.mem_append_left _ hexisting)

/-- The first link leads from a session to which no other link leads. -/
theorem chains_end (hvalid : ∀ link ∈ links, validate_link link = .ok ())
    (h : links.Pairwise Apart) : WellFounded fun next id => Succeeds links id next := by
  induction links with
  | nil =>
    refine ⟨fun id => ⟨id, ?_⟩⟩
    rintro next ⟨link, hmem, -⟩
    cases hmem
  | cons link rest ih =>
    rw [List.forall_mem_cons] at hvalid
    obtain ⟨hfirst, hrest⟩ := List.pairwise_cons.mp h
    have hforward : link.replacement_session_id ≠ link.source_session_id :=
      fun heq => refuseIf_ok_iff.mp hvalid.1 (.inl heq.symm)
    have hothers : ∀ id, id ≠ link.source_session_id →
        Acc (fun next id => Succeeds (link :: rest) id next) id := by
      intro id
      induction id using (ih hvalid.2 hrest).induction with | h id hlater
      intro hne
      refine ⟨id, ?_⟩
      rintro next ⟨other, hmem, rfl, rfl⟩
      rcases List.mem_cons.mp hmem with rfl | hold
      · exact absurd rfl hne
      · apply hlater _ ⟨other, hold, rfl, rfl⟩
        intro hback
        exact (hfirst other hold).2 (.inr (.inr hback.symm))
    refine ⟨fun id => ?_⟩
    by_cases hid : id = link.source_session_id
    · subst hid
      refine ⟨_, ?_⟩
      rintro next ⟨other, hmem, hsource, rfl⟩
      rcases List.mem_cons.mp hmem with rfl | hold
      · exact hothers _ hforward
      · exact absurd (.inl hsource.symm) (hfirst other hold).2
    · exact hothers id hid

theorem eq_of_apart {β : Type} {f : ContinuityLink → β} (h : links.Pairwise fun x y => f x ≠ f y)
    {x y : ContinuityLink} (hx : x ∈ links) (hy : y ∈ links) (hsame : f x = f y) : x = y :=
  List.inj_on_of_nodup_map (List.pairwise_map.mpr h) hx hy hsame

theorem validate_links_ok (h : validate_links links = .ok ()) :
    (∀ link ∈ links, validate_link link = .ok ()) ∧ links.Pairwise Apart := by
  unfold validate_links at h
  obtain ⟨_, -, hafter⟩ := bind_ok_iff.mp h
  obtain ⟨hvalid, hapart, -⟩ := validate_after_ok hafter
  exact ⟨hvalid, hapart⟩

theorem simple_chains (h : validate_links links = .ok ()) : SimpleChains links := by
  obtain ⟨hvalid, hapart⟩ := validate_links_ok h
  have hends := chains_end hvalid hapart
  refine ⟨?_, ?_, hends, ?_⟩
  · rintro id a b ⟨x, hx, hxs, rfl⟩ ⟨y, hy, hys, rfl⟩
    rw [eq_of_apart (hapart.imp fun h heq => h.2 (.inl heq)) hx hy (hxs.trans hys.symm)]
  · rintro a b next ⟨x, hx, rfl, hxr⟩ ⟨y, hy, rfl, hyr⟩
    rw [eq_of_apart (hapart.imp fun h heq => h.2 (.inr (.inl heq))) hx hy (hxr.trans hyr.symm)]
  · intro id hloop
    have hback := Relation.transGen_swap.mpr hloop
    exact hends.transGen.irrefl.irrefl id hback

/-! ## One call -/

/-- Everything that a call of `record` can do. -/
inductive Recorded (size : ContinuityDocument → Nat) (request : Request) (file : StoredFile) :
    Fallible ContinuitySnapshot × StoredFile → Prop where
  | refused (e : ContinuityStoreError) : Recorded size request file (.error e, file)
  | repeated (document : ContinuityDocument) (read : read_document file = .ok document)
      (there : request.link ∈ document.links) :
      Recorded size request file (.ok (snapshot document .Full), file)
  | recorded (document next : ContinuityDocument) (result : Fallible ContinuitySnapshot)
      (read : read_document file = .ok document)
      (fresh : ∀ existing ∈ document.links, existing.command_id ≠ request.link.command_id)
      (current : document.revision = request.expected)
      (next_eq : next = { document with
        revision := document.revision + 1, links := document.links ++ [request.link] })
      (readable : read_document (.holds next (size next)) = .ok next)
      (told : result = .ok (snapshot next request.disk.durability) ∧ request.disk.write = .written ∨
        (∃ e, result = .error e) ∧ request.disk.write = .failed_after_rename) :
      Recorded size request file (result, .holds next (size next))

theorem extended_ok {expected : Revision} {link : ContinuityLink} {next : ContinuityDocument}
    (h : extended document expected link = .ok next) : document.revision = expected ∧
      next = { document with revision := document.revision + 1, links := document.links ++ [link] } := by
  unfold extended at h
  simp only [bind_ok_iff, refuseIf_ok_iff, pure_ok_iff, not_not] at h
  obtain ⟨_, hcurrent, _, -, _, -, _, -, _, -, hnext⟩ := h
  exact ⟨hcurrent, hnext.symm⟩

theorem format_of_read (h : read_document file = .ok document) :
    document.format_version ≤ CURRENT_CONTINUITY_FORMAT ∧ validate_links document.links = .ok () := by
  unfold read_document at h
  split at h
  · cases h
  · cases h
  · split at h
    · cases h
    · cases h
  · simp only [bind_ok_iff, refuseIf_ok_iff, pure_ok_iff, not_lt] at h
    obtain ⟨_, -, _, hformat, _, hvalid, rfl⟩ := h
    exact ⟨hformat, hvalid⟩

theorem recorded (size : ContinuityDocument → Nat) (request : Request) (file : StoredFile) :
    Recorded size request file (record size request file) := by
  unfold record
  split
  · exact .refused _
  split
  · exact .refused _
  split
  · exact .refused _
  rename_i document hread
  split
  · rename_i existing hfound
    split
    · rename_i heq
      exact .repeated document hread (heq ▸ List.mem_of_find?_eq_some hfound)
    · exact .refused _
  rename_i hnone
  split
  · exact .refused _
  rename_i next hextended
  obtain ⟨hcurrent, hnext⟩ := extended_ok hextended
  have hfresh : ∀ existing ∈ document.links, existing.command_id ≠ request.link.command_id := by
    intro existing hexisting
    simpa using List.find?_eq_none.mp hnone existing hexisting
  have hformat : next.format_version ≤ CURRENT_CONTINUITY_FORMAT := by
    rw [hnext]
    exact (format_of_read hread).1
  unfold write_document
  cases hvalid : validate_links next.links with
  | error e => exact .refused e
  | ok u =>
    dsimp only
    by_cases hsize : size next > MAX_CONTINUITY_DOCUMENT_BYTES
    · rw [if_pos hsize]
      exact .refused _
    rw [if_neg hsize]
    -- what is written passes the checks of the reader, which are those of the writer
    have hreadable : read_document (.holds next (size next)) = .ok next := by
      unfold read_document
      simp only [bind_ok_iff, refuseIf_ok_iff, pure_ok_iff, not_lt]
      exact ⟨(), not_lt.mp hsize, (), hformat, (), hvalid, trivial⟩
    cases hwrite : request.disk.write with
    | written =>
      exact .recorded document next _ hread hfresh hcurrent hnext hreadable (.inl ⟨rfl, hwrite⟩)
    | failed => exact .refused _
    | failed_after_rename =>
      exact .recorded document next _ hread hfresh hcurrent hnext hreadable
        (.inr ⟨⟨_, rfl⟩, hwrite⟩)

structure Kept (size : ContinuityDocument → Nat) (request : Request) (file : StoredFile) : Prop where
  /-- A link that is there already is told again, and another link of its command is refused. -/
  repeated : ∀ document, read_document file = .ok document → ∀ existing ∈ document.links,
    existing.command_id = request.link.command_id → (record size request file).2 = file ∧
      (existing = request.link → request.disk.reads = true →
        (record size request file).1 = .ok (snapshot document .Full)) ∧
      (existing ≠ request.link → ∃ e, (record size request file).1 = .error e)
  /-- A changed document has the new link and the next revision, and is read back. -/
  changed : (record size request file).2 ≠ file → ∃ document next,
    read_document file = .ok document ∧ document.revision = request.expected ∧
    next.links = document.links ++ [request.link] ∧ next.revision = request.expected + 1 ∧
    load (record size request file).2 = .ok (snapshot next .Full)
  /-- A call that fails leaves the file, unless its writer has failed after the rename. -/
  failed : ∀ e, (record size request file).1 = .error e →
    (record size request file).2 = file ∨ request.disk.write = .failed_after_rename
  /-- A call that succeeds has its link in the document. -/
  succeeded : ∀ told, (record size request file).1 = .ok told → ∃ document,
    read_document (record size request file).2 = .ok document ∧ request.link ∈ document.links ∧
      told.links = document.links ∧ told.revision = document.revision

theorem record_again (h : read_document file = .ok document) {existing : ContinuityLink}
    (hexisting : existing ∈ document.links) (hsame : existing.command_id = request.link.command_id) :
    (record size request file).2 = file ∧ (existing = request.link → request.disk.reads = true →
        (record size request file).1 = .ok (snapshot document .Full)) ∧
      (existing ≠ request.link → ∃ e, (record size request file).1 = .error e) := by
  obtain ⟨hvalid, hapart⟩ := validate_links_ok (format_of_read h).2
  have hfound : document.links.find? (·.command_id = request.link.command_id) = some existing := by
    cases hfind : document.links.find? (·.command_id = request.link.command_id) with
    | none => exact absurd hsame (by simpa using List.find?_eq_none.mp hfind existing hexisting)
    | some other =>
      have hother : other.command_id = request.link.command_id := by
        simpa using List.find?_some hfind
      rw [eq_of_apart (hapart.imp And.left) (List.mem_of_find?_eq_some hfind) hexisting
        (hother.trans hsame.symm)]
  unfold record
  split
  · rename_i e hinvalid
    refine ⟨rfl, ?_, fun _ => ⟨e, rfl⟩⟩
    rintro rfl
    rw [hvalid _ hexisting] at hinvalid
    cases hinvalid
  split
  · rename_i hreads
    exact ⟨rfl, fun _ hdisk => absurd hdisk hreads, fun _ => ⟨_, rfl⟩⟩
  simp only [h, hfound]
  split
  · rename_i heq
    exact ⟨rfl, fun _ _ => rfl, fun hne => absurd heq hne⟩
  · rename_i hne
    exact ⟨rfl, fun heq => absurd heq hne, fun _ => ⟨_, rfl⟩⟩

theorem kept (size : ContinuityDocument → Nat) (request : Request) (file : StoredFile) :
    Kept size request file := by
  have hrecorded := recorded size request file
  refine ⟨fun document h existing hexisting hsame => record_again h hexisting hsame, ?_, ?_, ?_⟩
  all_goals generalize record size request file = outcome at hrecorded
  · intro hchanged
    cases hrecorded with
    | refused e => exact absurd rfl hchanged
    | repeated document read there => exact absurd rfl hchanged
    | recorded document next result read fresh current next_eq readable told =>
      refine ⟨document, next, read, current, by rw [next_eq], by rw [next_eq, current], ?_⟩
      unfold load
      rw [readable]
      rfl
  · intro e herror
    cases hrecorded with
    | refused e => exact .inl rfl
    | repeated document read there => cases herror
    | recorded document next result read fresh current next_eq readable told =>
      rcases told with ⟨rfl, -⟩ | ⟨-, hwrite⟩
      · cases herror
      · exact .inr hwrite
  · intro answer hok
    cases hrecorded with
    | refused e => cases hok
    | repeated document read there =>
      cases hok
      exact ⟨document, read, there, rfl, rfl⟩
    | recorded document next result read fresh current next_eq readable told =>
      rcases told with ⟨rfl, -⟩ | ⟨⟨e, rfl⟩, -⟩
      · cases hok
        refine ⟨next, readable, ?_, rfl, rfl⟩
        rw [next_eq]
        exact List.mem_append_right _ (List.mem_singleton_self _)
      · cases hok

/-! ## Calls of any number of processes -/

def Repeats (request : Request) (file : StoredFile) : Prop :=
  ∃ document, read_document file = .ok document ∧ request.link ∈ document.links

/-- A document that can be read stays one, and its revision does not go back. -/
theorem revision_grows (size : ContinuityDocument → Nat) (h : read_document file = .ok document)
    (requests : List Request) :
    ∃ later, read_document (Locked.serial (record size) file requests) = .ok later ∧
      document.revision ≤ later.revision := by
  induction requests generalizing file document with
  | nil => exact ⟨document, h, le_rfl⟩
  | cons request requests ih =>
    have hstep : ∃ next, read_document (record size request file).2 = .ok next ∧
        document.revision ≤ next.revision := by
      have hrecorded := recorded size request file
      generalize record size request file = outcome at hrecorded
      cases hrecorded with
      | refused e => exact ⟨document, h, le_rfl⟩
      | repeated document' read there => exact ⟨document, h, le_rfl⟩
      | recorded document' next result read fresh current next_eq readable told =>
        rw [h] at read
        cases read
        refine ⟨next, readable, ?_⟩
        rw [next_eq]
        exact Nat.le_succ _
    obtain ⟨next, hnext, hle⟩ := hstep
    obtain ⟨later, hlater, hgrown⟩ := ih hnext
    exact ⟨later, hlater, hle.trans hgrown⟩

/-- A call that succeeds with a new link was made at the revision of the document. -/
theorem current_of_new {told : ContinuitySnapshot} (hok : (record size request file).1 = .ok told)
    (hnew : ¬ Repeats request file) : ∃ document next, read_document file = .ok document ∧
      document.revision = request.expected ∧ read_document (record size request file).2 = .ok next ∧
      next.revision = request.expected + 1 := by
  have hrecorded := recorded size request file
  generalize record size request file = outcome at hrecorded hok
  cases hrecorded with
  | refused e => cases hok
  | repeated document read there => exact absurd ⟨document, read, there⟩ hnew
  | recorded document next result read fresh current next_eq readable told =>
    exact ⟨document, next, read, current, readable, by rw [next_eq, current]⟩

/-- The calls take effect one after the other, and each keeps what a call must keep. -/
structure ChainsAreKept (size : ContinuityDocument → Nat) (file : StoredFile)
    (s : Workers.State (Locked.Shared StoredFile Request (Fallible ContinuitySnapshot))
      (Locked.Call StoredFile Request (Fallible ContinuitySnapshot))) : Prop where
  ordered : Locked.Ordered (record size) file s
  simple : ∀ document, read_document s.shared.store = .ok document → SimpleChains document.links
  kept : ∀ before request answer later, s.shared.log = before ++ (request, answer) :: later →
    Kept size request (Locked.serial (record size) file (before.map Prod.fst))
  /-- Of two calls at one revision that succeed, one has a link that was there before it. -/
  one_wins : ∀ before r a between r' a' later,
    s.shared.log = before ++ (r, .ok a) :: (between ++ (r', .ok a') :: later) →
    r.expected = r'.expected → Repeats r (Locked.serial (record size) file (before.map Prod.fst)) ∨
      Repeats r' (Locked.serial (record size) file
        ((before ++ (r, .ok a) :: between).map Prod.fst))

theorem continuity_stays_simple_chains (size : ContinuityDocument → Nat) (file : StoredFile)
    (events : List (Workers.Event Request Locked.Turn)) : ChainsAreKept size file
      (Workers.run (Locked.calls (record size)) (Locked.idle file) events) := by
  have hordered : Locked.Ordered (record size) file _ := Locked.ordered_run events
  refine ⟨hordered, fun document h => simple_chains (format_of_read h).2,
    fun before request answer later _ => kept size request _, ?_⟩
  intro before r a between r' a' later hlog hsame
  by_contra hboth
  obtain ⟨hnew, hnew'⟩ := not_or.mp hboth
  have hok := hordered.answered before r _ _ hlog
  have hok' := hordered.answered (before ++ (r, .ok a) :: between) r' (.ok a') later
    (by rw [hlog, List.append_assoc, List.cons_append])
  obtain ⟨-, next, -, -, hnext, hrevision⟩ := current_of_new hok.symm hnew
  obtain ⟨document, -, hread, hcurrent, -, -⟩ := current_of_new hok'.symm hnew'
  -- the first of the two calls has left a higher revision
  obtain ⟨grown, hgrown, hle⟩ := revision_grows size hnext (between.map Prod.fst)
  rw [List.map_append, List.map_cons] at hread
  unfold Locked.serial at hread hgrown
  rw [List.foldl_append, List.foldl_cons, hgrown] at hread
  cases hread
  rw [hrevision, hcurrent, ← hsame] at hle
  exact absurd hle (Nat.not_succ_le_self _)

/-! ## A call that is made again -/

def sampleLink (command source : Nat) : ContinuityLink :=
  ⟨command, source, source + 1, "codex", 7, 8, 10⟩

def sampleRequest (expected : Revision) (link : ContinuityLink) : Request :=
  ⟨expected, link, ⟨true, .written, .Full⟩⟩

/-- The first link is told again at the revision at which the second one is added. -/
theorem a_repeated_call_succeeds_beside_a_new_one :
    let size : ContinuityDocument → Nat := fun _ => 500
    let requests := [sampleRequest 0 (sampleLink 1 1), sampleRequest 1 (sampleLink 1 1),
      sampleRequest 1 (sampleLink 2 4)]
    let file := StoredFile.holds .default 61
    ∃ a b, (record size (sampleRequest 1 (sampleLink 1 1))
        (Locked.serial (record size) file (requests.take 1))).1 = .ok a ∧
      (record size (sampleRequest 1 (sampleLink 2 4))
        (Locked.serial (record size) file (requests.take 2))).1 = .ok b :=
  ⟨⟨1, [sampleLink 1 1], .Full⟩, ⟨2, [sampleLink 1 1, sampleLink 2 4], .Full⟩, by decide +kernel,
    by decide +kernel⟩

end multiplex_store.continuity
