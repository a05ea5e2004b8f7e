-- A list of sessions that is read page by page is one list, with every session
-- once and in its order, as long as no source comes back with the revision it
-- had and lists its sessions differently. A pane that is registered again under
-- another title does just that.
import Multiplex.Lib.Runs
import Multiplex.ControllerListener.SessionPages

open multiplex_domain.controller_devices (ControllerCapabilities)
open multiplex_domain.session (HostedSessionId HostedSession)
open multiplex_controller_listener.protocol multiplex_controller_listener.desktop_panes
open Checks

namespace multiplex_controller_listener.session_pages

/-! ## The order of the panes -/

theorem pane_order_eq (registry : DesktopPaneRegistry) :
    pane_order registry = ((registry.panes.entries.map fun e => (e.1, e.2.title)).insertionSort
      fun a b => a.2 < b.2 ∨ a.2 = b.2 ∧ a.1 ≤ b.1).map Prod.fst := by
  have hsort := List.map_insertionSort
    (r := fun a b : ControllerSessionSummary => a.title < b.title ∨
      a.title = b.title ∧ a.session_id ≤ b.session_id)
    (s := fun a b : HostedSessionId × String => a.2 < b.2 ∨ a.2 = b.2 ∧ a.1 ≤ b.1)
    (fun session : ControllerSessionSummary => (session.session_id, session.title))
    (registry.panes.entries.map fun e => DesktopPaneRegistry.summary e.1 e.2) (by simp)
  rw [List.map_map] at hsort
  have hpairs : ((fun session : ControllerSessionSummary => (session.session_id, session.title)) ∘
      fun e : HostedSessionId × DesktopPaneRecord => DesktopPaneRegistry.summary e.1 e.2) =
      fun e => (e.1, e.2.title) := by
    rfl
  rw [hpairs] at hsort
  rw [← hsort, List.map_map]
  rfl

variable {change : DesktopPaneRecord → DesktopPaneRecord} {p : Paging} {ids : List HostedSessionId}
  {revision : Nat} {s : Sources} {durable : Durable} {w : World}

theorem pane_order_with_pane (registry : DesktopPaneRegistry) (session_id : HostedSessionId)
    (h : ∀ pane, (change pane).title = pane.title) :
    pane_order (registry.with_pane session_id change) = pane_order registry := by
  have hpairs : (registry.with_pane session_id change).panes.entries.map (fun e => (e.1, e.2.title)) =
      registry.panes.entries.map fun e => (e.1, e.2.title) := by
    unfold DesktopPaneRegistry.with_pane SortedMap.map
    rw [List.map_map]
    apply List.map_congr_left
    intro e _
    simp
    split <;> simp [h]
  rw [pane_order_eq, pane_order_eq, hpairs]

theorem nodup_pane_order (registry : DesktopPaneRegistry) : (pane_order registry).Nodup := by
  have hperm : (pane_order registry).Perm (registry.panes.entries.map Prod.fst) := by
    rw [pane_order_eq]
    have hsort := List.perm_insertionSort
      (fun a b : HostedSessionId × String => a.2 < b.2 ∨ a.2 = b.2 ∧ a.1 ≤ b.1)
      (registry.panes.entries.map fun e => (e.1, e.2.title))
    simpa [Function.comp_def] using hsort.map Prod.fst
  rw [hperm.nodup_iff, List.Nodup, List.pairwise_map]
  exact registry.panes.sorted.imp fun h => ne_of_lt h

theorem push_chunks_title (pane : DesktopPaneRecord) (chunks : List (List UInt8)) :
    (push_chunks pane chunks).1.title = pane.title := by
  induction chunks generalizing pane with
  | nil => simp [push_chunks]
  | cons chunk chunks ih =>
    unfold push_chunks
    split
    · simp
    · simp [ih]

theorem append_to_title (pane : DesktopPaneRecord) (bytes snapshot : List UInt8) :
    (append_to pane bytes snapshot).title = pane.title := by
  unfold append_to
  have htitle := push_chunks_title pane (Chunks.chunks MAX_OUTPUT_CHUNK_BYTES bytes)
  simp only
  split
  · exact htitle
  · exact htitle

/-! ## The merged list -/

/-- Four lists, of which the earlier ones shadow the later ones. -/
def merge (live tmux console durable : List HostedSessionId) : List HostedSessionId :=
  let tmux := tmux.filter (· ∉ live)
  let console := console.filter (· ∉ live ++ tmux)
  live ++ tmux ++ console ++ durable.filter (· ∉ live ++ tmux ++ console)

theorem nodup_merge {live tmux console durable : List HostedSessionId} (hlive : live.Nodup)
    (htmux : tmux.Nodup) (hconsole : console.Nodup) (hdurable : durable.Nodup) :
    (merge live tmux console durable).Nodup := by
  have happend : ∀ {a b : List HostedSessionId}, a.Nodup → b.Nodup → (a ++ b.filter (· ∉ a)).Nodup := by
    intro a b ha hb
    refine List.nodup_append.mpr ⟨ha, hb.filter _, ?_⟩
    intro x hx y hy hxy
    subst hxy
    have hnot := (List.mem_filter.mp hy).2
    simp [hx] at hnot
  exact happend (happend (happend hlive htmux) hconsole) hdurable

section
variable (s : Sources) (capabilities : ControllerCapabilities)

theorem ids_eq_merge :
    s.ids capabilities = merge s.live_ids s.tmux_ids
      ((live_console_sessions s.console).map (·.session_id)) s.durable_ids := by
  have hfilter : ∀ {α : Type} (l : List α) (id : α → HostedSessionId) (seen : List HostedSessionId),
      (l.filter fun x => id x ∉ seen).map id = (l.map id).filter (· ∉ seen) := by
    intro α l id seen
    rw [List.filter_map]
    rfl
  have hlive : ∀ {c}, (s.live.2.map fun session => { session with capabilities := c }).map
      (·.session_id) = s.live_ids := by
    simp [Sources.live_ids, Function.comp_def]
  have htmux : ∀ {c} {l : List DiscoveredTmuxSession}, (l.map (tmux_session_summary c)).map
      (·.session_id) = l.map (·.session_id) := by
    simp [Function.comp_def, tmux_session_summary]
  have hconsole : ∀ {c} {l : List LiveConsoleSession}, (l.map (console_session_summary c)).map
      (·.session_id) = l.map (·.session_id) := by
    simp [Function.comp_def, console_session_summary]
  have hdurable : ∀ {c}, (s.durable.document.sessions.map (durable_session_summary s.durable c)).map
      (·.session_id) = s.durable_ids := by
    simp [Sources.durable_ids, Function.comp_def, durable_session_summary]
  unfold Sources.ids Sources.list merge
  simp only [List.map_append, hlive, htmux, hconsole, hdurable,
    hfilter s.tmux_sessions (·.session_id), hfilter (live_console_sessions s.console) (·.session_id),
    hfilter _ ControllerSessionSummary.session_id]
  rfl

theorem nodup_ids : (s.ids capabilities).Nodup := by
  rw [ids_eq_merge]
  apply nodup_merge
  · unfold Sources.live_ids Sources.live
    split
    · exact nodup_pane_order s.registry
    · exact List.nodup_nil
  · unfold Sources.tmux_ids Sources.tmux_sessions
    cases s.tmux with
    | none => exact List.nodup_nil
    | some listing => exact listing.distinct
  · have hsort := List.perm_insertionSort (fun a b : LiveConsoleSession =>
      b.started_at < a.started_at ∨ b.started_at = a.started_at ∧ a.session_id ≤ b.session_id)
      s.console.sessions
    exact (hsort.map (·.session_id)).nodup_iff.mpr s.console.distinct
  · exact s.durable.distinct

end

/-! ## One page -/

theorem fill_spec (encoded_bytes : Nat) (page rest : List ControllerSessionSummary) :
    ∃ k ≤ rest.length, fill encoded_bytes page rest = page ++ rest.take k ∧
      (page = [] → rest ≠ [] → 0 < k) := by
  induction rest generalizing encoded_bytes page with
  | nil => exact ⟨0, by simp, by simp [fill], by simp⟩
  | cons summary rest ih =>
    unfold fill
    simp only
    split
    · rename_i hfull
      exact ⟨0, by simp, by simp, fun hempty => absurd hempty hfull.1⟩
    · obtain ⟨k, hk, hfill, -⟩ := ih (encoded_bytes + (summary.text.length + 1)) (page ++ [summary])
      refine ⟨k + 1, by simpa using hk, ?_, by simp⟩
      rw [hfill, List.take_succ_cons, List.append_assoc, List.singleton_append]

/-- The state of a device that has read some pages of one list. -/
structure Read (ids : List HostedSessionId) (revision : Nat) (p : Paging) : Prop where
  revision : p.revision = some revision
  so_far : p.ids <+: ids
  pages : p.pages.length ≤ ids.length + 1
  next : p.ending = none → p.ids = ids.take p.offset ∧ p.offset < ids.length ∧
    p.offset ≤ 10000 ∧ p.pages.length ≤ p.offset
  complete : p.ending = some .Complete → p.ids = ids
  told : p.ending = none ∨ p.ending = some .Complete ∨ p.ending = some (.Refused "snapshot_changed")

theorem validate_command (hoffset : p.offset ≤ 10000) (hrevision : p.revision ≠ some 0)
    (limit : Limit) : (p.command limit.val).validate = .ok () := by
  unfold Paging.command ControllerCommand.validate
  rw [refuseIf_ok_iff]
  rintro (hzero | hlarge | hfar | hno)
  · omega
  · omega
  · omega
  · exact hrevision hno

theorem Read.reads (h : Read ids revision p) (hnodup : ids.Nodup) (hrevision : revision ≠ 0) :
    ReadsOneList p ids where
  once := hnodup
  so_far := h.so_far
  complete := h.complete
  told := h.told
  goes_on hnone limit := by
    apply validate_command (h.next hnone).2.2.1
    rw [h.revision]
    simpa using hrevision
  ends := h.pages

theorem read_page (backend : HostConnectionBackend) (command_id : CommandId) (limit : Limit)
    (hids : s.ids backend.capabilities = ids) (hlong : ids.length ≤ 10001)
    (hoffset : p.offset ≤ ids.length) (hso_far : p.ids = ids.take p.offset)
    (hpages : p.pages.length ≤ p.offset)
    (hrevision : p.revision = none ∨ p.revision = some (s.revisions backend.digests).mixed) :
    Read ids (s.revisions backend.digests).mixed (p.heard (backend.list_sessions s command_id
      p.offset limit.val p.revision)) := by
  have hlist : (s.list backend.capabilities).length = ids.length := by
    rw [← hids, Sources.ids, List.length_map]
  obtain ⟨k, hk, hfill, hone⟩ :=
    fill_spec 512 [] (((s.list backend.capabilities).drop p.offset).take limit.val)
  rw [List.nil_append, List.take_take] at hfill
  simp [hlist] at hk
  have hmin : min k limit.val = k := by omega
  rw [hmin] at hfill
  have hpage : (((s.list backend.capabilities).drop p.offset).take k).length = k := by
    rw [List.length_take, List.length_drop, hlist]
    omega
  have hread : p.ids ++ (((s.list backend.capabilities).drop p.offset).take k).map (·.session_id) =
      ids.take (p.offset + k) := by
    rw [hso_far, List.map_take, List.map_drop, ← hids, Sources.ids, List.take_add]
  have hsome : p.revision.any (· ≠ (s.revisions backend.digests).mixed) = false := by
    rcases hrevision with hnone | hsome
    · simp [hnone]
    · simp [hsome]
  have hfirst : some (p.revision.getD (s.revisions backend.digests).mixed) =
      some (s.revisions backend.digests).mixed := by
    rcases hrevision with hnone | hsome
    · simp [hnone]
    · simp [hsome]
  unfold HostConnectionBackend.list_sessions
  simp only [hsome, Bool.false_eq_true, if_false, hlist, not_lt.mpr hoffset, hfill, hpage]
  by_cases hmore : p.offset + k < ids.length
  · have hstop : min (p.offset + k) (2 ^ 32 - 1) = p.offset + k := by omega
    have hpositive : 0 < k := by
      apply hone rfl
      intro hnil
      have hlen := congrArg List.length hnil
      simp [hlist] at hlen
      omega
    rw [if_pos hmore, hstop]
    refine ⟨hfirst, ?_, ?_, fun _ => ⟨?_, hmore, ?_, ?_⟩, ?_, ?_⟩
    · simp only [Paging.heard, Paging.ids, List.flatten_append, List.flatten_singleton, List.map_append]
      rw [show p.pages.flatten.map (·.session_id) = p.ids from rfl, hread]
      exact List.take_prefix _ _
    · simp [Paging.heard]
      omega
    · simp only [Paging.heard, Paging.ids, List.flatten_append, List.flatten_singleton,
        List.map_append, Option.getD_some]
      exact hread
    · simp [Paging.heard]
      omega
    · simp [Paging.heard]
      omega
    · simp [Paging.heard]
    · simp [Paging.heard]
  · have hall : ids.take (p.offset + k) = ids := List.take_of_length_le (by omega)
    rw [hall] at hread
    rw [if_neg hmore]
    refine ⟨hfirst, ?_, ?_, ?_, fun _ => ?_, ?_⟩
    · simp only [Paging.heard, Paging.ids, List.flatten_append, List.flatten_singleton, List.map_append]
      rw [show p.pages.flatten.map (·.session_id) = p.ids from rfl, hread]
    · simp [Paging.heard]
      omega
    · simp [Paging.heard]
    · simp only [Paging.heard, Paging.ids, List.flatten_append, List.flatten_singleton, List.map_append]
      exact hread
    · simp [Paging.heard]

/-! ## Sources that change -/

/-- The sources since the first page. A counter that stands where it stood has counted nothing. -/
structure Since (f s : Sources) : Prop where
  app : f.app ≤ s.app
  registry : s.app = f.app → f.registry.revision ≤ s.registry.revision ∧
    (s.registry.revision = f.registry.revision → pane_order s.registry = pane_order f.registry)
  restores : f.restores ≤ s.restores
  durable : s.restores = f.restores →
    f.durable.session_revision ≤ s.durable.session_revision ∧
    f.durable.library_revision ≤ s.durable.library_revision ∧
    (s.durable.session_revision = f.durable.session_revision →
      s.durable_ids = f.durable_ids)
  tmux : s.tmux.isSome = f.tmux.isSome

theorem Since.refl (s : Sources) : Since s s where
  app := le_rfl
  registry _ := ⟨le_rfl, fun _ => rfl⟩
  restores := le_rfl
  durable _ := ⟨le_rfl, le_rfl, fun _ => rfl⟩
  tmux := rfl

/-- A call of the registry that either counts or leaves the order. -/
def Counted (registry registry' : DesktopPaneRegistry) : Prop :=
  registry'.revision = registry.revision + 1 ∨
    (registry'.revision = registry.revision ∧ pane_order registry' = pane_order registry)

theorem Counted.with_pane (registry : DesktopPaneRegistry) (session_id : HostedSessionId)
    (h : ∀ pane, (change pane).title = pane.title) :
    Counted registry (registry.with_pane session_id change) :=
  .inr ⟨rfl, pane_order_with_pane registry session_id h⟩

theorem next_revision_eq (h : revision + 1 < U64_LIMIT) :
    next_revision revision = revision + 1 := by
  unfold U64_LIMIT at h
  unfold next_revision
  omega

variable {registry : DesktopPaneRegistry} {backend : HostConnectionBackend}

section
variable (h : registry.revision + 1 < U64_LIMIT) (session_id : HostedSessionId)
include h

theorem counted_update_title (title : String) :
    Counted registry (registry.update_title session_id title) := by
  unfold DesktopPaneRegistry.update_title
  simp only
  split
  · exact .inl (next_revision_eq h)
  · exact .inr ⟨rfl, rfl⟩

theorem counted_remove : Counted registry (registry.remove session_id) := by
  unfold DesktopPaneRegistry.remove
  split
  · exact .inl (next_revision_eq h)
  · exact .inr ⟨rfl, rfl⟩

end

theorem counted_append_output (registry : DesktopPaneRegistry) (session_id : HostedSessionId)
    (bytes snapshot : List UInt8) :
    Counted registry (registry.append_output session_id bytes snapshot) := by
  unfold DesktopPaneRegistry.append_output
  split
  · exact .inr ⟨rfl, rfl⟩
  · exact .with_pane registry session_id fun pane => append_to_title pane bytes snapshot

theorem counted_register (h : registry.revision + 1 < U64_LIMIT) (r : DesktopPaneRegistration)
    (hkept : (registry.pane? r.session_id).isNone = true ∨
      pane_order (registry.register r) = pane_order registry) :
    Counted registry (registry.register r) := by
  unfold DesktopPaneRegistry.register at hkept ⊢
  cases hpane : registry.pane? r.session_id with
  | none => exact .inl (next_revision_eq h)
  | some pane =>
    rw [hpane] at hkept
    simp at hkept
    exact .inr ⟨rfl, hkept⟩

theorem Since.with_registry {f : Sources} (h : Since f s) (hcounted : Counted s.registry registry) :
    Since f { s with registry } where
  app := h.app
  registry happ := by
    obtain ⟨hle, heq⟩ := h.registry happ
    simp only
    rcases hcounted with hnext | ⟨hsame, horder⟩
    · omega
    · rw [hsame, horder]
      exact ⟨hle, heq⟩
  restores := h.restores
  durable := h.durable
  tmux := h.tmux

/-- What a commit does to the repositories: one counter goes up, or the sessions are the same. -/
theorem Since.with_durable {f : Sources} (h : Since f s)
    (hdocument : s.durable.session_revision ≤ durable.session_revision)
    (hlibrary : s.durable.library_revision ≤ durable.library_revision)
    (hsame : durable.session_revision = s.durable.session_revision →
      durable.document = s.durable.document) : Since f { s with durable } where
  app := h.app
  registry := h.registry
  restores := h.restores
  durable hrestores := by
    obtain ⟨hle, hle', heq⟩ := h.durable hrestores
    refine ⟨hle.trans hdocument, hle'.trans hlibrary, fun hrevision => ?_⟩
    simp only at hrevision
    have hold : s.durable.session_revision = f.durable.session_revision := by omega
    rw [← heq hold]
    unfold Sources.durable_ids
    rw [hsame (by omega)]
  tmux := h.tmux

/-! ## The same list -/

theorem live_ids_kept {f : Sources} (h : Since f s) (hkept : live_kept f s = true)
    (hrevision : s.live.1 = f.live.1) : s.live_ids = f.live_ids := by
  unfold live_kept at hkept
  simp only [hrevision, ne_eq, not_true_eq_false, decide_false, Bool.or_false, Bool.or_eq_true,
    Bool.and_eq_true, decide_eq_true_eq] at hkept
  rcases hkept with ⟨⟨happ, hbridge⟩, hzero⟩ | hsame
  · obtain ⟨hle, heq⟩ := h.registry happ
    unfold Sources.live_ids Sources.live at *
    rw [hbridge] at hrevision ⊢
    cases hanswers : f.bridge with
    | false => simp
    | true =>
      rw [hanswers] at hrevision
      simp [DesktopPaneRegistry.snapshot] at hrevision
      apply heq
      by_cases hfirst : f.registry.revision = 0
      · rw [hzero hfirst, hfirst]
      · omega
  · exact hsame

theorem toNat_durable_revision
    (h : durable.session_revision + durable.library_revision + 2 < U64_LIMIT) :
    durable.revision.toNat = durable.session_revision + durable.library_revision + 1 := by
  have hlimit : 2 ^ 64 = U64_LIMIT := by decide
  unfold Durable.revision
  rw [UInt64.toNat_ofNat', hlimit, Nat.min_eq_left (by omega), Nat.min_eq_left (by omega),
    Nat.mod_eq_of_lt (by omega)]

theorem durable_ids_kept {f : Sources} (h : Since f s) (hf : counts f = true) (hs : counts s = true)
    (hkept : durable_kept f s = true) (hrevision : s.durable.revision = f.durable.revision) :
    s.durable_ids = f.durable_ids := by
  unfold durable_kept at hkept
  simp [hrevision] at hkept
  rcases hkept with hrestores | hsame
  · obtain ⟨hle, hle', heq⟩ := h.durable hrestores
    apply heq
    simp [counts] at hf hs
    have hnat := congrArg UInt64.toNat hrevision
    rw [toNat_durable_revision hs.2, toNat_durable_revision hf.2] at hnat
    omega
  · exact hsame

theorem live_revision_lt (h : counts s = true) : s.live.1 < U64_LIMIT := by
  simp [counts] at h
  have hone : 1 < U64_LIMIT := by decide
  unfold Sources.live DesktopPaneRegistry.snapshot
  split
  · omega
  · exact hone

theorem ids_kept {f : Sources} (h : Since f s) (hf : counts f = true) (hs : counts s = true)
    (hrevisions : s.revisions backend.digests = f.revisions backend.digests)
    (hlive : live_kept f s = true) (hdurable : durable_kept f s = true)
    (htmux : tmux_kept f s = true)
    (htmux_digest : backend.digests.tmux (tmux_entries s.tmux_sessions) =
      backend.digests.tmux (tmux_entries f.tmux_sessions) →
        tmux_entries s.tmux_sessions = tmux_entries f.tmux_sessions)
    (hconsole_digest : backend.digests.console (console_entries (live_console_sessions s.console)) =
      backend.digests.console (console_entries (live_console_sessions f.console)) →
        console_entries (live_console_sessions s.console) =
          console_entries (live_console_sessions f.console)) :
    s.ids backend.capabilities = f.ids backend.capabilities := by
  have hlimit : 2 ^ 64 = U64_LIMIT := by decide
  simp [Sources.revisions] at hrevisions
  obtain ⟨hdurable_revision, hlive_revision, htmux_revision, hconsole_revision⟩ := hrevisions
  have hlive_ids : s.live_ids = f.live_ids := by
    apply live_ids_kept h hlive
    have hnat := congrArg UInt64.toNat hlive_revision
    rwa [UInt64.toNat_ofNat', UInt64.toNat_ofNat', hlimit, Nat.mod_eq_of_lt (live_revision_lt hs),
      Nat.mod_eq_of_lt (live_revision_lt hf)] at hnat
  have htmux_ids : s.tmux_ids = f.tmux_ids := by
    have hsame := h.tmux
    cases hs_tmux : s.tmux with
    | none =>
      cases hf_tmux : f.tmux with
      | none => simp [Sources.tmux_ids, Sources.tmux_sessions, hs_tmux, hf_tmux]
      | some listing => simp [hs_tmux, hf_tmux] at hsame
    | some listing =>
      cases hf_tmux : f.tmux with
      | none => simp [hs_tmux, hf_tmux] at hsame
      | some first =>
        rw [hs_tmux, hf_tmux, Option.map_some, Option.map_some, Option.some.injEq] at htmux_revision
        simp only [tmux_kept, decide_eq_true_eq] at htmux
        apply htmux
        apply htmux_digest
        simpa only [listing_revision, Sources.tmux_sessions, hs_tmux, hf_tmux, Option.elim_some] using
          htmux_revision
  have hconsole_ids : (live_console_sessions s.console).map (·.session_id) =
      (live_console_sessions f.console).map (·.session_id) := by
    have hentries := congrArg (List.map Prod.fst) (hconsole_digest hconsole_revision)
    simpa [console_entries, Function.comp_def] using hentries
  rw [ids_eq_merge, ids_eq_merge, hlive_ids, htmux_ids, hconsole_ids,
    durable_ids_kept h hf hs hdurable hdurable_revision]

/-! ## Runs -/

structure Sound (backend : HostConnectionBackend) (w : World) : Prop where
  fresh : w.first = none → w.paging = .start
  first : ∀ f, w.first = some f → counts f = true ∧ (f.ids backend.capabilities).length ≤ 10001 ∧
    Since f w.sources ∧
    Read (f.ids backend.capabilities) (f.revisions backend.digests).mixed w.paging

theorem Revisions.mixed_ne_zero (r : Revisions) : r.mixed ≠ 0 := by
  unfold Revisions.mixed
  simp only
  omega

theorem sound_start (backend : HostConnectionBackend) (sources : Sources) :
    Sound backend (.start sources) where
  fresh _ := rfl
  first := by simp [World.start]

theorem Sound.with_sources (h : Sound backend w) {sources : Sources}
    (hsince : ∀ f, w.first = some f → Since f w.sources → Since f sources) :
    Sound backend { w with sources } where
  fresh := h.fresh
  first f hf := by
    obtain ⟨hcounts, hlong, hold, hread⟩ := h.first f hf
    exact ⟨hcounts, hlong, hsince f hf hold, hread⟩

theorem sound_request (h : Sound backend w) (command_id : CommandId) (limit : Limit)
    (hassumed : no_collision backend w (.request command_id limit) = true)
    (hmoves : moves_its_revision backend w (.request command_id limit) = true) :
    Sound backend (w.request backend command_id limit) := by
  simp only [moves_its_revision, Bool.and_eq_true, decide_eq_true_eq] at hmoves
  obtain ⟨hcounts, hlong, hkept⟩ := hmoves
  have hlength : (w.sources.ids backend.capabilities).length ≤ 10001 := by
    rw [Sources.ids, List.length_map]
    exact hlong
  unfold World.request
  cases hending : w.paging.ending with
  | some ending => exact h
  | none =>
    cases hfirst : w.first with
    | none =>
      have hstart := h.fresh hfirst
      rw [hstart, validate_command (by decide) (by simp [Paging.start]) limit]
      refine ⟨by simp, fun f hf => ?_⟩
      cases hf
      refine ⟨hcounts, hlength, .refl w.sources, ?_⟩
      exact read_page (p := .start) backend command_id limit rfl hlength (Nat.zero_le _)
        (by simp [Paging.start, Paging.ids]) (by simp [Paging.start]) (.inl rfl)
    | some f =>
      obtain ⟨hf, hflong, hsince, hread⟩ := h.first f hfirst
      obtain ⟨hso_far, hoffset, hrange, hpages⟩ := hread.next hending
      have hvalid := validate_command hrange (p := w.paging)
        (by rw [hread.revision]; simpa using Revisions.mixed_ne_zero _) limit
      rw [hvalid]
      refine ⟨by simp, fun f' hf' => ?_⟩
      cases hf'
      refine ⟨hf, hflong, hsince, ?_⟩
      simp
      by_cases hmixed : (w.sources.revisions backend.digests).mixed =
          (f.revisions backend.digests).mixed
      · rw [hfirst, Option.all_some, Bool.and_eq_true, Bool.and_eq_true, Bool.and_eq_true,
          decide_eq_true_eq] at hkept
        obtain ⟨⟨⟨hrevisions, hlive⟩, hdurable⟩, htmux⟩ := hkept
        simp only [no_collision, hfirst, Option.all_some, Bool.and_eq_true,
          decide_eq_true_eq] at hassumed
        have hids := ids_kept hsince hf hcounts (hrevisions hmixed) hlive hdurable htmux hassumed.1
          hassumed.2
        rw [← hmixed]
        apply read_page backend command_id limit hids hflong hoffset.le hso_far hpages
        rw [hmixed]
        exact .inr hread.revision
      · have hchanged : w.paging.revision.any
            (· ≠ (w.sources.revisions backend.digests).mixed) = true := by
          rw [hread.revision]
          simpa using Ne.symm hmixed
        unfold HostConnectionBackend.list_sessions
        simp only [hchanged, if_true, error_with_code, Paging.heard]
        refine ⟨hread.revision, hread.so_far, hread.pages, ?_, ?_, ?_⟩
        · simp
        · simp
        · simp

theorem sound_step (h : Sound backend w) (e : Event) (hassumed : no_collision backend w e = true)
    (hmoves : moves_its_revision backend w e = true) : Sound backend (w.step backend e) := by
  have hcounts : counts w.sources = true := by
    simp [moves_its_revision] at hmoves
    exact hmoves.1
  have hrevision : w.sources.registry.revision + 1 < U64_LIMIT := by
    simp [counts] at hcounts
    exact hcounts.1
  have hregistry : ∀ registry, Counted w.sources.registry registry →
      Sound backend (w.with_registry registry) := fun registry hcounted =>
    h.with_sources fun f _ hsince => hsince.with_registry hcounted
  cases e with
  | «register» registration =>
    simp only [moves_its_revision, hcounts, Bool.true_and, Bool.or_eq_true, decide_eq_true_eq] at hmoves
    apply h.with_sources
    intro f hf hsince
    apply hsince.with_registry
    apply counted_register hrevision
    rcases hmoves with (hnew | hnone) | hkept
    · exact .inl hnew
    · rw [hf] at hnone
      cases hnone
    · exact .inr hkept
  | update_title session_id title => exact hregistry _ (counted_update_title hrevision session_id title)
  | update_size session_id columns rows => exact hregistry _ (.with_pane _ session_id fun _ => rfl)
  | append_output session_id bytes snapshot =>
    exact hregistry _ (counted_append_output _ session_id bytes snapshot)
  | set_writer session_id writer_connection controller_viewport =>
    exact hregistry _ (.with_pane _ session_id fun _ => rfl)
  | remove session_id => exact hregistry _ (counted_remove hrevision session_id)
  | start_app =>
    apply h.with_sources
    intro f _ hsince
    have happ := hsince.app
    refine ⟨happ.trans (Nat.le_succ _), fun hsame => ?_, hsince.restores, hsince.durable, hsince.tmux⟩
    simp only at hsame
    omega
  | set_bridge answers =>
    apply h.with_sources
    intro f _ hsince
    exact ⟨hsince.app, hsince.registry, hsince.restores, hsince.durable, hsince.tmux⟩
  | list_tmux listing =>
    apply h.with_sources
    intro f _ hsince
    refine ⟨hsince.app, hsince.registry, hsince.restores, hsince.durable, ?_⟩
    rw [← hsince.tmux]
    simp
  | change_consoles folder =>
    apply h.with_sources
    intro f _ hsince
    exact ⟨hsince.app, hsince.registry, hsince.restores, hsince.durable, hsince.tmux⟩
  | commit_sessions sessions distinct =>
    apply h.with_sources
    intro f _ hsince
    apply hsince.with_durable
    · exact Nat.le_succ _
    · exact le_rfl
    · intro hsame
      exact absurd hsame (Nat.succ_ne_self _)
  | commit_library group_names =>
    apply h.with_sources
    intro f _ hsince
    exact hsince.with_durable le_rfl (Nat.le_succ _) fun _ => rfl
  | write_metadata metadata =>
    apply h.with_sources
    intro f _ hsince
    exact hsince.with_durable le_rfl le_rfl fun _ => rfl
  | restore_durable durable =>
    apply h.with_sources
    intro f _ hsince
    have hrestores := hsince.restores
    refine ⟨hsince.app, hsince.registry, hrestores.trans (Nat.le_succ _), fun hsame => ?_, hsince.tmux⟩
    simp only at hsame
    omega
  | request command_id limit => exact sound_request h command_id limit hassumed hmoves

/-- The pages that a device reads are those of one list. -/
theorem paging_reads_one_list (backend : HostConnectionBackend) (sources : Sources)
    (events : List Event)
    (hsteps : Runs.steps (World.step backend) (fun w e => no_collision backend w e &&
      moves_its_revision backend w e) (.start sources) events = true) :
    ∀ first, (Runs.run (World.step backend) (.start sources) events).first = some first →
      ReadsOneList (Runs.run (World.step backend) (.start sources) events).paging
        (first.ids backend.capabilities) := by
  intro first hfirst
  have hsound := Runs.keeps (Sound backend) (fun w e h hfits => by
    rw [Bool.and_eq_true] at hfits
    exact sound_step h e hfits.1 hfits.2) (sound_start backend sources) hsteps
  obtain ⟨-, -, -, hread⟩ := hsound.first first hfirst
  exact hread.reads (nodup_ids first backend.capabilities) (Revisions.mixed_ne_zero _)

/-! ## Two panes -/

/-- A listener without tmux and shells: each digest is that of nothing. -/
def listener : HostConnectionBackend where
  capabilities := ⟨ControllerCapabilities.KNOWN_MASK⟩
  digests := ⟨fun _ => 0xe3b0c44298fc1c14, fun _ => 0xd1fba762150c532c⟩

def noSessions : Sources where
  registry := ⟨0, .empty⟩
  app := 1
  bridge := true
  tmux := none
  console := ⟨[], List.nodup_nil⟩
  durable := ⟨⟨0, []⟩, List.nodup_nil, 0, [], fun _ => none⟩
  restores := 0

def pane (session_id : HostedSessionId) (title : String) : DesktopPaneRegistration :=
  ⟨session_id, title, "zsh", 80, 24, ⟨session_id, false⟩⟩

def oneByOne : Limit := ⟨1, by decide⟩

def firstPage : List Event :=
  [.register (pane 1 "alpha"), .register (pane 2 "beta"), .request 1 oneByOne]

/-- The panes go on between the two requests. -/
theorem two_panes_are_read_one_by_one : ∃ first, (Runs.run (World.step listener) (.start noSessions)
      (firstPage ++ [.append_output 1 [0x61] [], .request 2 oneByOne])).first = some first ∧
      ReadsOneList (Runs.run (World.step listener) (.start noSessions)
        (firstPage ++ [.append_output 1 [0x61] [], .request 2 oneByOne])).paging
        (first.ids listener.capabilities) :=
  ⟨_, rfl, paging_reads_one_list listener noSessions _ (by decide +kernel) _ rfl⟩

/-- The second pane is registered again under a title that comes first, so the first pane is on both
pages. -/
theorem a_pane_that_moves_is_skipped :
    ¬ ∀ (backend : HostConnectionBackend) (sources : Sources) (events : List Event),
      Runs.steps (World.step backend) (no_collision backend) (.start sources) events = true →
      ∀ first, (Runs.run (World.step backend) (.start sources) events).first = some first →
        ReadsOneList (Runs.run (World.step backend) (.start sources) events).paging
          (first.ids backend.capabilities) := by
  intro h
  have hread := h listener noSessions
    (firstPage ++ [.register (pane 2 "aleph"), .request 2 oneByOne]) (by decide +kernel) _ rfl
  have hids := hread.complete (by decide +kernel)
  revert hids
  decide +kernel

end multiplex_controller_listener.session_pages
