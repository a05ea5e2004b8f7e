-- How long a shared host lives. The users of a session never outnumber those
-- who hold one of its hosts, and they are as many where each release reaches
-- the host it is of.
import Multiplex.ControllerListener.TmuxHosts

open multiplex_domain.session (HostedSessionId)
open multiplex_controller_listener.protocol (OccupantGeneration)

namespace multiplex_controller_listener.tmux_sessions

/-! ## Who holds what -/

def held (w : World) (id : HostedSessionId) : Nat := w.grants.countP (·.session_id = id)

def held_of (w : World) (id : HostedSessionId) (handle : SessionHostHandle) : Nat :=
  w.grants.countP fun g => g.session_id = id ∧ g.handle = handle

/-- Handles are given out once, and a host is there until it is stopped, with a user at least. -/
structure Tidy (w : World) : Prop where
  next : ∀ s ∈ w.started, s.handle < w.next_handle
  once : ∀ s ∈ w.started, ∀ s' ∈ w.started, s.handle = s'.handle → s = s'
  granted : ∀ g ∈ w.grants, ∃ s ∈ w.started, s.session_id = g.session_id ∧ s.handle = g.handle
  exited : ∀ handle ∈ w.exited, ∃ s ∈ w.started, s.handle = handle
  stopped : ∀ handle ∈ w.stopped, ∃ s ∈ w.started, s.handle = handle
  there : ∀ {id host}, w.source.hosts id = some host →
    (∃ s ∈ w.started, s.session_id = id ∧ s.handle = host.handle) ∧ host.handle ∉ w.stopped ∧
      0 < host.users ∧ host.users ≤ held w id
  ended : ∀ s ∈ w.started, s.handle ∈ w.stopped ∨
    ∃ host, w.source.hosts s.session_id = some host ∧ host.handle = s.handle

/-- The users of a host that runs are those who hold it, and who holds a host that runs has the
one that is there. -/
structure Counted (w : World) : Prop where
  users : ∀ {id host}, w.source.hosts id = some host → host.handle ∉ w.exited →
    host.users = held_of w id host.handle
  current : ∀ g ∈ w.grants, g.handle ∉ w.exited →
    ∃ host, w.source.hosts g.session_id = some host ∧ host.handle = g.handle

section
variable {fair left : Prop} {w w' : World}

variable {g : Grant} {id : HostedSessionId} {host : AttachHost}

theorem held_erase (hg : g ∈ w.grants) (id : HostedSessionId) :
    held { w with grants := w.grants.erase g } id + (if g.session_id = id then 1 else 0) = held w id := by
  have hcount := (List.perm_cons_erase hg).countP_eq (fun g => decide (g.session_id = id))
  rw [List.countP_cons] at hcount
  simpa [held] using hcount.symm

theorem held_of_erase (hg : g ∈ w.grants) (id : HostedSessionId) (handle : SessionHostHandle) :
    held_of { w with grants := w.grants.erase g } id handle +
      (if g.session_id = id ∧ g.handle = handle then 1 else 0) = held_of w id handle := by
  have hcount := (List.perm_cons_erase hg).countP_eq
    (fun g => decide (g.session_id = id ∧ g.handle = handle))
  rw [List.countP_cons] at hcount
  simpa [held_of] using hcount.symm

theorem Tidy.session_eq (h : Tidy w) {id' : HostedSessionId} {host' : AttachHost}
    (hhost : w.source.hosts id = some host) (hhost' : w.source.hosts id' = some host')
    (heq : host.handle = host'.handle) : id = id' := by
  obtain ⟨⟨s, hs, rfl, hhandle⟩, -⟩ := h.there hhost
  obtain ⟨⟨s', hs', rfl, hhandle'⟩, -⟩ := h.there hhost'
  rw [h.once s hs s' hs' (hhandle.trans (heq.trans hhandle'.symm))]

section
variable (w : World) (c : ConnectionId) (id id' : HostedSessionId)

theorem held_cons (handle : SessionHostHandle) :
    held { w with grants := ⟨c, id, handle⟩ :: w.grants } id' =
      held w id' + if id = id' then 1 else 0 := by
  simp [held, List.countP_cons]

theorem held_of_cons (handle handle' : SessionHostHandle) :
    held_of { w with grants := ⟨c, id, handle⟩ :: w.grants } id' handle' =
      held_of w id' handle' + if id = id' ∧ handle = handle' then 1 else 0 := by
  simp [held_of, List.countP_cons]

end

/-! ## What the moves keep -/

theorem Tidy.stops (h : Tidy w) (hhost : w.source.hosts id = some host) :
    Tidy { w with source := w.source.without_host id, stopped := host.handle :: w.stopped } where
  next := h.next
  once := h.once
  granted := h.granted
  exited := h.exited
  stopped := by
    intro handle hmem
    rcases List.mem_cons.mp hmem with rfl | hmem
    · obtain ⟨⟨s, hs, -, hhandle⟩, -⟩ := h.there hhost
      exact ⟨s, hs, hhandle⟩
    · exact h.stopped handle hmem
  there := by
    intro id' host' hhost'
    simp only [TmuxSessionSource.hosts_without_host] at hhost'
    split at hhost'
    · cases hhost'
    · rename_i hid
      obtain ⟨hstarted, hrunning, husers⟩ := h.there hhost'
      refine ⟨hstarted, ?_, husers⟩
      rintro hmem
      rcases List.mem_cons.mp hmem with heq | hmem
      · exact hid (h.session_eq hhost' hhost heq)
      · exact hrunning hmem
  ended := by
    intro s hs
    rcases h.ended s hs with hstopped | ⟨host', hhost', hhandle⟩
    · exact .inl (List.mem_cons_of_mem _ hstopped)
    · by_cases hid : s.session_id = id
      · rw [hid, hhost] at hhost'
        obtain rfl := Option.some.inj hhost'
        exact .inl (hhandle ▸ List.mem_cons_self)
      · exact .inr ⟨host', by simpa [hid] using hhost', hhandle⟩

theorem Tidy.starts (h : Tidy w) (c : ConnectionId) (discovered : DiscoveredTmuxSession)
    (hhost : w.source.hosts discovered.session_id = none) (generation : OccupantGeneration)
    (state : GenerationState → GenerationState) : Tidy { w with
      source := (w.source.set_generation discovered.session_id state).set_host discovered.session_id
        (some ⟨discovered.session, w.next_handle, 1⟩)
      next_handle := w.next_handle + 1
      started := ⟨discovered.session_id, generation, w.next_handle⟩ :: w.started
      grants := ⟨c, discovered.session_id, w.next_handle⟩ :: w.grants } where
  next := by
    intro s hs
    rcases List.mem_cons.mp hs with rfl | hs
    · exact Nat.lt_succ_self _
    · exact Nat.lt_succ_of_lt (h.next s hs)
  once := by
    intro s hs s' hs' heq
    rcases List.mem_cons.mp hs with rfl | hs <;> rcases List.mem_cons.mp hs' with rfl | hs'
    · rfl
    · exact absurd heq.symm (Nat.ne_of_lt (h.next s' hs'))
    · exact absurd heq (Nat.ne_of_lt (h.next s hs))
    · exact h.once s hs s' hs' heq
  granted := by
    intro g hg
    rcases List.mem_cons.mp hg with rfl | hg
    · exact ⟨_, List.mem_cons_self, rfl, rfl⟩
    · obtain ⟨s, hs, hsession, hhandle⟩ := h.granted g hg
      exact ⟨s, List.mem_cons_of_mem _ hs, hsession, hhandle⟩
  exited := by
    intro handle hmem
    obtain ⟨s, hs, hhandle⟩ := h.exited handle hmem
    exact ⟨s, List.mem_cons_of_mem _ hs, hhandle⟩
  stopped := by
    intro handle hmem
    obtain ⟨s, hs, hhandle⟩ := h.stopped handle hmem
    exact ⟨s, List.mem_cons_of_mem _ hs, hhandle⟩
  there := by
    intro id host hhost'
    simp at hhost'
    have hheld := held_cons w c discovered.session_id id w.next_handle
    unfold held at hheld ⊢
    split at hhost'
    · rename_i hid
      obtain rfl := Option.some.inj hhost'
      refine ⟨⟨_, List.mem_cons_self, hid.symm, rfl⟩, ?_, Nat.one_pos, ?_⟩
      · intro hmem
        obtain ⟨s, hs, hhandle⟩ := h.stopped _ hmem
        exact absurd hhandle (Nat.ne_of_lt (h.next s hs))
      · rw [hheld, if_pos hid.symm]
        exact Nat.le_add_left 1 _
    · obtain ⟨⟨s, hs, hsession, hhandle⟩, hrunning, hpos, husers⟩ := h.there hhost'
      refine ⟨⟨s, List.mem_cons_of_mem _ hs, hsession, hhandle⟩, hrunning, hpos, ?_⟩
      rw [hheld]
      exact Nat.le_add_right_of_le husers
  ended := by
    intro s hs
    rcases List.mem_cons.mp hs with rfl | hs
    · exact .inr ⟨⟨discovered.session, w.next_handle, 1⟩, by simp, rfl⟩
    · rcases h.ended s hs with hstopped | ⟨host, hhost', hhandle⟩
      · exact .inl hstopped
      · by_cases hid : s.session_id = discovered.session_id
        · rw [hid, hhost] at hhost'
          cases hhost'
        · exact .inr ⟨host, by simpa [hid] using hhost', hhandle⟩

theorem Tidy.users (h : Tidy w) {users : Nat} {grants : List Grant}
    (hhost : w.source.hosts id = some host) (hpos : 0 < users)
    (hgranted : ∀ g ∈ grants, ∃ s ∈ w.started, s.session_id = g.session_id ∧ s.handle = g.handle)
    (hheld : users ≤ held { w with grants } id)
    (hothers : ∀ id', id' ≠ id → held { w with grants } id' = held w id') :
    Tidy { w with source := w.source.set_host id (some { host with users }), grants } where
  next := h.next
  once := h.once
  granted := hgranted
  exited := h.exited
  stopped := h.stopped
  there := by
    intro id' host' hhost'
    simp at hhost'
    split at hhost'
    · rename_i hid
      subst hid
      obtain rfl := Option.some.inj hhost'
      obtain ⟨hstarted, hrunning, -⟩ := h.there hhost
      exact ⟨hstarted, hrunning, hpos, hheld⟩
    · rename_i hid
      obtain ⟨hstarted, hrunning, hpos', husers⟩ := h.there hhost'
      exact ⟨hstarted, hrunning, hpos', (hothers id' hid).symm ▸ husers⟩
  ended := by
    intro s hs
    rcases h.ended s hs with hstopped | ⟨host', hhost', hhandle⟩
    · exact .inl hstopped
    · by_cases hid : s.session_id = id
      · rw [hid, hhost] at hhost'
        obtain rfl := Option.some.inj hhost'
        exact .inr ⟨{ host with users }, by simp [hid], hhandle⟩
      · exact .inr ⟨host', by simpa [hid] using hhost', hhandle⟩

theorem Tidy.gives_up (h : Tidy w) (hg : g ∈ w.grants)
    (hhost : w.source.hosts g.session_id = none) : Tidy { w with grants := w.grants.erase g } where
  next := h.next
  once := h.once
  granted := fun g' hg' => h.granted g' (List.mem_of_mem_erase hg')
  exited := h.exited
  stopped := h.stopped
  there := by
    intro id host hhost'
    obtain ⟨hstarted, hrunning, hpos, husers⟩ := h.there hhost'
    refine ⟨hstarted, hrunning, hpos, ?_⟩
    have hcount := held_erase hg id
    have hid : g.session_id ≠ id := by
      rintro rfl
      rw [hhost] at hhost'
      cases hhost'
    rw [if_neg hid, Nat.add_zero] at hcount
    rwa [hcount]
  ended := h.ended

theorem Tidy.move (h : Tidy w) (hmove : Move fair left w w') : Tidy w' := by
  cases hmove with
  | passes =>
    exact { h with
      next := fun s hs => Nat.lt_succ_of_lt (h.next s hs)
      there := fun hhost => h.there hhost }
  | @exits s hs =>
    refine { h with exited := fun handle hmem => ?_, there := fun hhost => h.there hhost }
    rcases List.mem_cons.mp hmem with rfl | hmem
    · exact ⟨s, hs, rfl⟩
    · exact h.exited handle hmem
  | stops hhost _ => exact h.stops hhost
  | starts c discovered hhost _ => exact h.starts c discovered hhost _ _
  | @joins c id host hhost =>
    obtain ⟨hstarted, -, hpos, husers⟩ := h.there hhost
    refine h.users hhost (Nat.succ_pos _) ?_ ?_ ?_
    · intro g hg
      rcases List.mem_cons.mp hg with rfl | hg
      · exact hstarted
      · exact h.granted g hg
    · rw [held_cons, if_pos rfl]
      exact Nat.succ_le_succ husers
    · intro id' hid
      rw [held_cons, if_neg hid.symm]
      rfl
  | leaves_nothing hg hhost => exact h.gives_up hg hhost
  | @leaves_others g host hg hhost husers _ =>
    have hle := (h.there hhost).2.2.2
    have hcount := held_erase hg
    refine h.users hhost (by omega) (fun g' hg' => h.granted g' (List.mem_of_mem_erase hg')) ?_ ?_
    · have hcount := hcount g.session_id
      rw [if_pos rfl] at hcount
      omega
    · intro id' hid
      have hcount := hcount id'
      rwa [if_neg hid.symm, Nat.add_zero] at hcount
  | @leaves_last g host hg hhost _ _ =>
    have hstops := h.stops hhost
    refine hstops.gives_up (g := g) hg ?_
    simp

/-! ## Where counts are fair -/

theorem held_of_pos (hg : g ∈ w.grants) : 0 < held_of w g.session_id g.handle :=
  List.countP_pos_iff.mpr ⟨g, hg, by simp⟩

theorem Tidy.held_of_next (h : Tidy w) (id : HostedSessionId) : held_of w id w.next_handle = 0 := by
  rw [held_of, List.countP_eq_zero]
  intro g hg
  obtain ⟨s, hs, -, hhandle⟩ := h.granted g hg
  have hlt := h.next s hs
  simp only [decide_eq_true_eq]
  rintro ⟨-, heq⟩
  rw [hhandle, heq] at hlt
  exact absurd hlt (Nat.lt_irrefl _)

theorem Tidy.session_of_grant (h : Tidy w) (hg : g ∈ w.grants)
    (hhost : w.source.hosts id = some host) (heq : host.handle = g.handle) : g.session_id = id := by
  obtain ⟨s, hs, hsession, hhandle⟩ := h.granted g hg
  obtain ⟨⟨s', hs', hsession', hhandle'⟩, -⟩ := h.there hhost
  obtain rfl := h.once s hs s' hs' (hhandle.trans (heq.symm.trans hhandle'.symm))
  exact hsession.symm.trans hsession'

/-- Taking out a host leaves the others counted, when nobody holds it any more. -/
theorem counted_without_host (hhost : w.source.hosts id = some host)
    (husers : ∀ {id' host'}, id' ≠ id → w.source.hosts id' = some host' → host'.handle ∉ w.exited →
      host'.users = held_of w id' host'.handle) (hcurrent : ∀ g ∈ w.grants, g.handle ∉ w.exited →
      ∃ host, w.source.hosts g.session_id = some host ∧ host.handle = g.handle)
    (hnobody : ∀ g ∈ w.grants, g.handle = host.handle → g.handle ∈ w.exited) :
    Counted { w with source := w.source.without_host id, stopped := host.handle :: w.stopped } where
  users := by
    intro id' host' hhost' hexited
    simp only [TmuxSessionSource.hosts_without_host] at hhost'
    split at hhost'
    · cases hhost'
    · rename_i hid
      exact husers hid hhost' hexited
  current := by
    intro g hg hexited
    obtain ⟨host', hhost', hhandle⟩ := hcurrent g hg hexited
    refine ⟨host', ?_, hhandle⟩
    by_cases hid : g.session_id = id
    · rw [hid, hhost] at hhost'
      obtain rfl := Option.some.inj hhost'
      exact absurd (hnobody g hg hhandle.symm) hexited
    · simpa [hid] using hhost'

theorem Counted.starts (h : Counted w) (htidy : Tidy w) (c : ConnectionId)
    (discovered : DiscoveredTmuxSession) (hhost : w.source.hosts discovered.session_id = none)
    (generation : OccupantGeneration) (state : GenerationState → GenerationState) : Counted { w with
      source := (w.source.set_generation discovered.session_id state).set_host discovered.session_id
        (some ⟨discovered.session, w.next_handle, 1⟩)
      next_handle := w.next_handle + 1
      started := ⟨discovered.session_id, generation, w.next_handle⟩ :: w.started
      grants := ⟨c, discovered.session_id, w.next_handle⟩ :: w.grants } where
  users := by
    intro id host hhost' hexited
    have hheld := held_of_cons w c discovered.session_id id w.next_handle host.handle
    unfold held_of at hheld ⊢
    rw [hheld]
    simp at hhost'
    split at hhost'
    · rename_i hid
      obtain rfl := Option.some.inj hhost'
      have hnone := htidy.held_of_next id
      rw [held_of] at hnone
      rw [hnone, if_pos ⟨hid.symm, rfl⟩]
    · rename_i hid
      rw [if_neg fun hboth => hid hboth.1.symm]
      exact h.users hhost' hexited
  current := by
    intro g hg hexited
    rcases List.mem_cons.mp hg with rfl | hg
    · exact ⟨⟨discovered.session, w.next_handle, 1⟩, by simp, rfl⟩
    · obtain ⟨host, hhost', hhandle⟩ := h.current g hg hexited
      refine ⟨host, ?_, hhandle⟩
      by_cases hid : g.session_id = discovered.session_id
      · rw [hid, hhost] at hhost'
        cases hhost'
      · simpa [hid] using hhost'

theorem Counted.users_changed (h : Counted w) {users : Nat} {grants : List Grant}
    (hhost : w.source.hosts id = some host)
    (husers : host.handle ∉ w.exited → users = held_of { w with grants } id host.handle)
    (hothers : ∀ id' handle, id' ≠ id → held_of { w with grants } id' handle = held_of w id' handle)
    (hgrants : ∀ g ∈ grants, g ∈ w.grants ∨ g.session_id = id ∧ g.handle = host.handle) :
    Counted { w with source := w.source.set_host id (some { host with users }), grants } where
  users := by
    intro id' host' hhost' hexited
    simp at hhost'
    split at hhost'
    · rename_i hid
      subst hid
      obtain rfl := Option.some.inj hhost'
      exact husers hexited
    · rename_i hid
      rw [h.users hhost' hexited]
      exact (hothers id' host'.handle hid).symm
  current := by
    intro g hg hexited
    have hset : ∀ host', w.source.hosts g.session_id = some host' → host'.handle = g.handle →
        ∃ found, (w.source.set_host id (some { host with users })).hosts g.session_id = some found ∧
          found.handle = g.handle := by
      intro host' hhost' hhandle
      by_cases hid : g.session_id = id
      · rw [hid, hhost] at hhost'
        obtain rfl := Option.some.inj hhost'
        exact ⟨{ host with users }, by simp [hid], hhandle⟩
      · exact ⟨host', by simpa [hid] using hhost', hhandle⟩
    rcases hgrants g hg with hold | ⟨hsession, hhandle⟩
    · obtain ⟨host', hhost', hhandle⟩ := h.current g hold hexited
      exact hset host' hhost' hhandle
    · exact hset host (hsession ▸ hhost) hhandle.symm

theorem Counted.move (h : Counted w) (htidy : Tidy w) (hmove : Move True left w w') : Counted w' := by
  cases hmove with
  | passes => exact ⟨fun hhost => h.users hhost, h.current⟩
  | @exits s hs =>
    refine ⟨fun hhost hexited => ?_, fun g hg hexited => ?_⟩
    · exact h.users hhost fun hmem => hexited (List.mem_cons_of_mem _ hmem)
    · exact h.current g hg fun hmem => hexited (List.mem_cons_of_mem _ hmem)
  | stops hhost hfair =>
    refine counted_without_host hhost (fun _ => h.users) h.current fun g hg heq => ?_
    rcases hfair trivial with hexited | hnobody
    · exact heq ▸ hexited
    · exact absurd heq (hnobody g hg)
  | starts c discovered hhost _ => exact h.starts htidy c discovered hhost _ _
  | @joins c id host hhost =>
    refine h.users_changed hhost (fun hexited => ?_) (fun id' handle hid => ?_) fun g hg => ?_
    · rw [held_of_cons, if_pos ⟨rfl, rfl⟩, h.users hhost hexited]
    · rw [held_of_cons, if_neg fun hboth => hid hboth.1.symm]
      rfl
    · rcases List.mem_cons.mp hg with rfl | hg
      · exact .inr ⟨rfl, rfl⟩
      · exact .inl hg
  | leaves_nothing hg hhost =>
    refine ⟨fun {id host} hhost' hexited => ?_, fun g' hg' => h.current g' (List.mem_of_mem_erase hg')⟩
    have hcount := held_of_erase hg id host.handle
    rw [if_neg, Nat.add_zero] at hcount
    · rw [h.users hhost' hexited]
      exact hcount.symm
    · rintro ⟨rfl, -⟩
      rw [hhost] at hhost'
      cases hhost'
  | @leaves_others g host hg hhost husers hfair =>
    have hcount := held_of_erase hg
    refine h.users_changed hhost (fun hexited => ?_) (fun id' handle hid => ?_)
      fun g' hg' => .inl (List.mem_of_mem_erase hg')
    · have hown : host.handle = g.handle := (hfair trivial).resolve_right hexited
      have hcount := hcount g.session_id host.handle
      rw [if_pos ⟨rfl, hown.symm⟩] at hcount
      have huse := h.users hhost hexited
      omega
    · have hcount := hcount id' handle
      rwa [if_neg fun hboth => hid hboth.1.symm, Nat.add_zero] at hcount
  | @leaves_last g host hg hhost husers hfair =>
    have hcount := held_of_erase hg
    -- nobody else holds the host, or it has exited
    have hnobody : ∀ g' ∈ w.grants.erase g, g'.handle = host.handle → g'.handle ∈ w.exited := by
      intro g' hg' heq
      by_cases hexited : host.handle ∈ w.exited
      · rwa [heq]
      · have hown : host.handle = g.handle := (hfair trivial).resolve_right hexited
        have hcount := hcount g.session_id host.handle
        rw [if_pos ⟨rfl, hown.symm⟩] at hcount
        have huse := h.users hhost hexited
        have hsession := htidy.session_of_grant (List.mem_of_mem_erase hg') hhost heq.symm
        have hpos := held_of_pos (w := { w with grants := w.grants.erase g }) hg'
        rw [hsession, heq] at hpos
        omega
    refine counted_without_host (w := { w with grants := w.grants.erase g }) hhost
      (fun {id' host'} hid hhost' hexited => ?_)
      (fun g' hg' => h.current g' (List.mem_of_mem_erase hg')) hnobody
    have hcount := hcount id' host'.handle
    rw [if_neg fun hboth => hid hboth.1.symm, Nat.add_zero] at hcount
    rw [h.users hhost' hexited]
    exact hcount.symm

/-! ## Generations -/

/-- A session has a live generation as long as a host is there, and each start takes a new one. -/
structure Generated (w : World) : Prop where
  live : ∀ id, (w.source.generations id).live = (w.source.hosts id).isSome
  below : ∀ s ∈ w.started, s.generation ≤ (w.source.generations s.session_id).last_started
  distinct : DistinctGenerations w

def Ascends (w w' : World) : Prop :=
  ∀ id, (w.source.generations id).last_started ≤ (w'.source.generations id).last_started ∧
    w.source.generation id ≤ w'.source.generation id

/-- A generation is a machine integer. -/
def Bounded (w : World) : Prop := ∀ id, (w.source.generations id).last_started ≤ 2 ^ 64 - 1

theorem generation_without_host (source : TmuxSessionSource) (id id' : HostedSessionId)
    (hbound : (source.generations id).last_started ≤ 2 ^ 64 - 1) :
    source.generation id' ≤ (source.without_host id).generation id' := by
  unfold TmuxSessionSource.generation GenerationState.current
  rw [TmuxSessionSource.generations_without_host]
  by_cases hid : id' = id
  · subst hid
    simp only [if_true, Bool.false_eq_true, if_false]
    split
    · exact le_min (Nat.le_succ _) hbound
    · exact le_rfl
  · rw [if_neg hid]

theorem bounded_move (hbound : Bounded w) (hmove : Move fair left w w') : Bounded w' := by
  intro id
  cases hmove with
  | passes | exits _ | joins _ _ | leaves_nothing _ _ | leaves_others _ _ _ _ => exact hbound id
  | stops _ _ | leaves_last _ _ _ _ =>
    simp
    split
    · exact hbound _
    · exact hbound _
  | starts c discovered _ _ =>
    simp
    split
    · unfold TmuxSessionSource.generation GenerationState.current
      split
      · exact hbound _
      · exact Nat.min_le_right _ _
    · exact hbound _

section
variable (hlive : ∀ id, (w.source.generations id).live = (w.source.hosts id).isSome)
include hlive

theorem ascends_move (hbound : Bounded w) (hmove : Move fair left w w') : Ascends w w' := by
  intro id
  cases hmove with
  | passes | exits _ | joins _ _ | leaves_nothing _ _ | leaves_others _ _ _ _ =>
    exact ⟨le_rfl, le_rfl⟩
  | @stops id' host _ _ =>
    refine ⟨?_, generation_without_host w.source id' id (hbound id')⟩
    simp
    split
    · rename_i hid
      rw [hid]
    · exact le_rfl
  | @leaves_last g host _ _ _ _ =>
    refine ⟨?_, generation_without_host w.source g.session_id id (hbound g.session_id)⟩
    simp
    split
    · rename_i hid
      rw [hid]
    · exact le_rfl
  | starts c discovered hhost _ =>
    have hdead : (w.source.generations discovered.session_id).live = false := by
      rw [hlive, hhost]
      rfl
    simp [TmuxSessionSource.generation]
    by_cases hid : id = discovered.session_id
    · subst hid
      simp only [if_true, GenerationState.current, hdead, Bool.false_eq_true, if_false]
      exact ⟨le_min (Nat.le_succ _) (hbound _), le_rfl⟩
    · rw [if_neg hid]
      exact ⟨le_rfl, le_rfl⟩

theorem live_move (hmove : Move fair left w w') :
    ∀ id, (w'.source.generations id).live = (w'.source.hosts id).isSome := by
  intro id
  have changed : ∀ {id' host} {host' : AttachHost}, w.source.hosts id' = some host →
      (w.source.generations id).live = ((w.source.set_host id' (some host')).hosts id).isSome := by
    intro id' host host' hhost
    rw [hlive, TmuxSessionSource.hosts_set_host]
    split
    · rename_i hid
      rw [hid, hhost]
      rfl
    · rfl
  cases hmove with
  | passes | exits _ | leaves_nothing _ _ => exact hlive id
  | joins _ hhost => exact changed hhost
  | leaves_others _ hhost _ _ => exact changed hhost
  | stops _ _ | leaves_last _ _ _ _ =>
    simp
    split
    · rfl
    · exact hlive id
  | starts c discovered _ _ =>
    simp
    split
    · rfl
    · exact hlive id

end

theorem Generated.move (h : Generated w) (hbound : Bounded w)
    (hmove : Move fair True w w') : Generated w' where
  live := live_move h.live hmove
  below := by
    have hascends := ascends_move h.live hbound hmove
    intro s hs
    have hold : s ∈ w.started → s.generation ≤ (w'.source.generations s.session_id).last_started :=
      fun hs => Nat.le_trans (h.below s hs) (hascends s.session_id).1
    cases hmove with
    | starts c discovered _ _ =>
      rcases List.mem_cons.mp hs with rfl | hs
      · simp
      · exact hold hs
    | _ => exact hold hs
  distinct := by
    cases hmove with
    | starts c discovered hhost hleft =>
      have hdead : (w.source.generations discovered.session_id).live = false := by
        rw [h.live, hhost]
        rfl
      -- the new generation is above all before it
      have hnew : ∀ s ∈ w.started, s.session_id = discovered.session_id →
          s.generation < w.source.generation discovered.session_id := by
        intro s hs hid
        have hbelow := h.below s hs
        rw [hid] at hbelow
        have hroom := hleft trivial
        simp only [TmuxSessionSource.generation, GenerationState.current, hdead, Bool.false_eq_true,
          if_false]
        exact Nat.lt_of_le_of_lt hbelow (lt_min (Nat.lt_succ_self _) hroom)
      intro s hs s' hs' hid hhandle
      rcases List.mem_cons.mp hs with rfl | hs <;> rcases List.mem_cons.mp hs' with rfl | hs'
      · exact absurd rfl hhandle
      · exact Nat.ne_of_gt (hnew s' hs' hid.symm)
      · exact Nat.ne_of_lt (hnew s hs hid)
      · exact h.distinct s hs s' hs' hid hhandle
    | _ => exact h.distinct

end

/-! ## Runs -/

/-- What holds of the hosts whatever happens. -/
structure Kept (w : World) : Prop where
  tidy : Tidy w
  live : ∀ id, (w.source.generations id).live = (w.source.hosts id).isSome
  bound : Bounded w

section
variable {w : World} {e : HostEvent}

theorem kept_initial : Kept World.initial where
  tidy :=
    { next := fun _ hs => absurd hs List.not_mem_nil
      once := fun _ hs => absurd hs List.not_mem_nil
      granted := fun _ hg => absurd hg List.not_mem_nil
      exited := fun _ hmem => absurd hmem List.not_mem_nil
      stopped := fun _ hmem => absurd hmem List.not_mem_nil
      there := fun hhost => by cases hhost
      ended := fun _ hs => absurd hs List.not_mem_nil }
  live := fun _ => rfl
  bound := fun _ => Nat.zero_le _

theorem Kept.move {fair left : Prop} {w' : World} (h : Kept w) (hmove : Move fair left w w') :
    Kept w' where
  tidy := h.tidy.move hmove
  live := live_move h.live hmove
  bound := bounded_move h.bound hmove

theorem moves_anyway (w : World) (e : HostEvent) :
    Relation.ReflTransGen (Move False False) w (w.step e) :=
  moves_step False.elim False.elim

theorem Kept.step (h : Kept w) (e : HostEvent) : Kept (w.step e) :=
  Runs.keeps_moves Kept Kept.move h (moves_anyway w e)

theorem Kept.generation_le (h : Kept w) (e : HostEvent) (id : HostedSessionId) :
    w.source.generation id ≤ (w.step e).source.generation id := by
  have hboth : Kept (w.step e) ∧ w.source.generation id ≤ (w.step e).source.generation id := by
    refine Runs.keeps_moves (fun w' => Kept w' ∧ w.source.generation id ≤ w'.source.generation id)
      ?_ ⟨h, le_rfl⟩ (moves_anyway w e)
    rintro s s' ⟨hkept, hle⟩ hmove
    exact ⟨hkept.move hmove, Nat.le_trans hle (ascends_move hkept.live hkept.bound hmove id).2⟩
  exact hboth.2

theorem Kept.ends_when_released (h : Kept w) : EndsWhenReleased w := by
  intro hnone
  have hhosts : ∀ id, w.source.hosts id = none := by
    intro id
    cases hhost : w.source.hosts id with
    | none => rfl
    | some host =>
      obtain ⟨-, -, hpos, husers⟩ := h.tidy.there hhost
      rw [held, hnone, List.countP_nil] at husers
      omega
  refine ⟨hhosts, fun s hs => ?_⟩
  rcases h.tidy.ended s hs with hstopped | ⟨host, hhost, -⟩
  · exact hstopped
  · rw [hhosts] at hhost
    cases hhost

theorem Counted.step (h : Kept w ∧ Counted w) (hcounts : counts_its_own w e = true) :
    Kept (w.step e) ∧ Counted (w.step e) := by
  have hmoves : Relation.ReflTransGen (Move True False) w (w.step e) :=
    moves_step (fun _ => hcounts) False.elim
  refine Runs.keeps_moves (fun w => Kept w ∧ Counted w) ?_ h hmoves
  rintro s s' ⟨hkept, hcounted⟩ hmove
  exact ⟨hkept.move hmove, hcounted.move hkept.tidy hmove⟩

theorem Generated.step (h : Kept w ∧ Generated w) (hleft : has_generation_left w e = true) :
    Kept (w.step e) ∧ Generated (w.step e) := by
  have hmoves : Relation.ReflTransGen (Move False True) w (w.step e) :=
    moves_step False.elim (fun _ => hleft)
  refine Runs.keeps_moves (fun w => Kept w ∧ Generated w) ?_ h hmoves
  rintro s s' ⟨hkept, hgenerated⟩ hmove
  exact ⟨hkept.move hmove, hgenerated.move hkept.bound hmove⟩

theorem lives_while_held (h : Kept w) (hcounted : Counted w) : LivesWhileHeld w := by
  intro g hg hexited
  obtain ⟨host, hhost, hhandle⟩ := hcounted.current g hg hexited
  exact ⟨hhandle ▸ (h.tidy.there hhost).2.1, host, hhost, hhandle⟩

end

theorem kept_run (events : List HostEvent) : Kept (World.run events) :=
  Runs.keeps_always Kept (fun _ e h => h.step e) kept_initial events

/-- No two hosts of one session run at a time, not even after one has died. -/
theorem sessions_have_one_host (events : List HostEvent) :
    let w := World.run events
    Set.InjOn Started.session_id {s | s ∈ w.started ∧ s.handle ∉ w.stopped} := by
  rintro w s ⟨hs, hruns⟩ s' ⟨hs', hruns'⟩ hid
  have h := (kept_run events).tidy
  obtain ⟨host, hhost, hhandle⟩ := (h.ended s hs).resolve_left hruns
  obtain ⟨host', hhost', hhandle'⟩ := (h.ended s' hs').resolve_left hruns'
  rw [hid, hhost'] at hhost
  cases hhost
  exact h.once s hs s' hs' (hhandle.symm.trans hhandle')

/-- Hosts end with their last user, and generations never go down. A host lives as long as it is
held where each release reaches the host it is of, and no generation comes twice before they end. -/
theorem hosts_live_as_long_as_they_are_held (events : List HostEvent) (e : HostEvent) :
    let w := World.run events
    EndsWhenReleased (w.step e) ∧
      (∀ id, w.source.generation id ≤ (w.step e).source.generation id) ∧
      (World.steps counts_its_own (events ++ [e]) = true → LivesWhileHeld (w.step e)) ∧
      (World.steps has_generation_left (events ++ [e]) = true → DistinctGenerations (w.step e)) := by
  intro w
  have hkept := kept_run events
  have hrun : World.run (events ++ [e]) = w.step e := Runs.run_append_singleton _ _ _
  refine ⟨(hkept.step e).ends_when_released, hkept.generation_le e, fun hcounts => ?_, fun hleft => ?_⟩
  · have hboth : Kept (World.run (events ++ [e])) ∧ Counted (World.run (events ++ [e])) :=
      Runs.keeps (fun w => Kept w ∧ Counted w) (fun _ _ h hcounts => Counted.step h hcounts)
        ⟨kept_initial, fun hhost => (by cases hhost), fun _ hg => absurd hg List.not_mem_nil⟩ hcounts
    rw [hrun] at hboth
    exact lives_while_held hboth.1 hboth.2
  · have hboth : Kept (World.run (events ++ [e])) ∧ Generated (World.run (events ++ [e])) :=
      Runs.keeps (fun w => Kept w ∧ Generated w) (fun _ _ h hleft => Generated.step h hleft)
        ⟨kept_initial, fun _ => rfl, fun _ hs => absurd hs List.not_mem_nil,
          fun _ hs => absurd hs List.not_mem_nil⟩ hleft
    rw [hrun] at hboth
    exact hboth.2.distinct

/-- Two connections share a host, and the first of them leaves. -/
theorem the_second_user_keeps_the_host :
    let session := DiscoveredTmuxSession.mk 5 ⟨"$1", 1700000000⟩
    let events : List HostEvent := [.acquire 1 session true true, .acquire 2 session true true]
    LivesWhileHeld ((World.run events).step (.release ⟨1, 5, 0⟩)) ∧
      DistinctGenerations ((World.run events).step (.release ⟨1, 5, 0⟩)) ∧
      (⟨2, 5, 0⟩ : Grant) ∈ ((World.run events).step (.release ⟨1, 5, 0⟩)).grants := by
  intro session events
  obtain ⟨-, -, hlives, hdistinct⟩ := hosts_live_as_long_as_they_are_held events (.release ⟨1, 5, 0⟩)
  exact ⟨hlives (by decide +kernel), hdistinct (by decide +kernel), by decide +kernel⟩

/-- A host dies while a connection holds it, another connection gets the one in its place, and the
first one leaves. -/
theorem a_user_of_a_dead_host_stops_the_next :
    let session := DiscoveredTmuxSession.mk 5 ⟨"$1", 1700000000⟩
    ¬ LivesWhileHeld (World.run [.acquire 1 session true true, .exits 0,
      .acquire 2 session true true, .release ⟨1, 5, 0⟩]) := by
  intro session h
  exact absurd (by decide +kernel) (h ⟨2, 5, 1⟩ (by decide +kernel) (by decide +kernel)).1

end multiplex_controller_listener.tmux_sessions
