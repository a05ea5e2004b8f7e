-- Calls that take turns at one lock. A call reads the store under the lock and
-- later writes what it made of that, while others wait or give up. Whatever
-- the order of the steps, the calls take effect one after the other.
import Multiplex.Lib.Workers

namespace Locked

variable {σ ι α : Type}

/-- The store, its lock, and the calls that are through with their answers. -/
structure Shared (σ ι α : Type) where
  store : σ
  locked : Bool
  log : List (ι × α)

inductive Call (σ ι α : Type) where
  | waiting (input : ι)
  | holding (input : ι)
  /-- The call goes by what it has seen of the store. -/
  | loaded (input : ι) (seen : σ)
  | through (input : ι) (answer : α)
  | gave_up

inductive Turn where
  | go
  | give_up

/-- A step of a call whose effect on the store is `exec`. -/
def act (exec : ι → σ → α × σ) (turn : Turn) (s : Shared σ ι α) (call : Call σ ι α) :
    Shared σ ι α × Call σ ι α :=
  match turn, call with
  | .go, .waiting input =>
    if s.locked then (s, .waiting input) else ({ s with locked := true }, .holding input)
  | .go, .holding input => (s, .loaded input s.store)
  | .go, .loaded input seen =>
    let (answer, store) := exec input seen
    ({ store, locked := false, log := s.log ++ [(input, answer)] }, .through input answer)
  | .give_up, .waiting _ => (s, .gave_up)
  | _, call => (s, call)

def calls (exec : ι → σ → α × σ) : Workers.Program (Shared σ ι α) (Call σ ι α) ι Turn where
  start input s := (s, some (.waiting input))
  act := act exec

def idle (store : σ) : Workers.State (Shared σ ι α) (Call σ ι α) := ⟨⟨store, false, []⟩, []⟩

def serial (exec : ι → σ → α × σ) (store : σ) (inputs : List ι) : σ :=
  inputs.foldl (fun store input => (exec input store).2) store

/-- Every answer is the one its call gives on what the calls before it have left. -/
def Serial (exec : ι → σ → α × σ) (store : σ) (log : List (ι × α)) : Prop :=
  ∀ before input answer later, log = before ++ (input, answer) :: later →
    answer = (exec input (serial exec store (before.map Prod.fst))).1

variable {exec : ι → σ → α × σ} {store : σ}

theorem serial_concat {inputs : List ι} {input : ι} :
    serial exec store (inputs ++ [input]) = (exec input (serial exec store inputs)).2 := by
  unfold serial
  rw [List.foldl_append]
  rfl

theorem serial_log_concat {log : List (ι × α)} {input : ι} {answer : α} (h : Serial exec store log)
    (hanswer : answer = (exec input (serial exec store (log.map Prod.fst))).1) :
    Serial exec store (log ++ [(input, answer)]) := by
  intro before i a later heq
  rcases List.eq_nil_or_concat later with rfl | ⟨rest, last, rfl⟩
  · obtain ⟨rfl, hlast⟩ := List.append_inj' heq rfl
    obtain ⟨⟨rfl, rfl⟩, -⟩ := hlast
    exact hanswer
  · rw [List.concat_eq_append, ← List.cons_append, ← List.append_assoc] at heq
    exact h before i a rest (List.append_inj' heq rfl).1

/-! ## At most one call is inside -/

def Call.inside : Call σ ι α → Nat
  | .holding _ | .loaded _ _ => 1
  | _ => 0

def Shared.free (s : Shared σ ι α) : Nat := if s.locked then 0 else 1

theorem spends : Workers.Spends (calls exec) Shared.free Call.inside fun _ _ _ => 0 where
  start input s := by simp [calls, Call.inside]
  act turn s call := by
    unfold calls act
    dsimp only
    split
    · split
      · simp [Call.inside]
      · rename_i hfree
        simp [Shared.free, Call.inside, hfree]
    · simp [Call.inside]
    · simp [Shared.free, Call.inside]
    · simp [Call.inside]
    · simp

/-! ## Every run is one call after the other -/

structure Ordered (exec : ι → σ → α × σ) (store : σ) (s : Workers.State (Shared σ ι α) (Call σ ι α)) :
    Prop where
  replayed : s.shared.store = serial exec store (s.shared.log.map Prod.fst)
  answered : Serial exec store s.shared.log
  told : ∀ (n : Nat) input answer, s.workers[n]? = some (.through input answer) →
    (input, answer) ∈ s.shared.log
  seen : ∀ (n : Nat) input seen, s.workers[n]? = some (.loaded input seen) → seen = s.shared.store
  one : Workers.weigh Shared.free Call.inside s ≤ 1

theorem ordered_idle : Ordered exec store (idle store) where
  replayed := rfl
  answered := by
    intro before input answer later h
    exact (List.append_ne_nil_of_right_ne_nil _ (List.cons_ne_nil _ _) h.symm).elim
  told n input answer h := by simp [idle] at h
  seen n input seen h := by simp [idle] at h
  one := Nat.le_refl 1

variable {s : Workers.State (Shared σ ι α) (Call σ ι α)}

/-- A step that leaves the store and the log keeps the order. -/
theorem Ordered.quiet (h : Ordered exec store s) {shared : Shared σ ι α}
    {workers : List (Call σ ι α)} (hstore : shared.store = s.shared.store)
    (hlog : shared.log = s.shared.log)
    (htold : ∀ (n : Nat) input answer, workers[n]? = some (.through input answer) →
      ∃ m : Nat, s.workers[m]? = some (.through input answer))
    (hseen : ∀ (n : Nat) input seen, workers[n]? = some (.loaded input seen) →
      seen = s.shared.store ∨ ∃ m : Nat, s.workers[m]? = some (.loaded input seen))
    (hone : Workers.weigh Shared.free Call.inside ⟨shared, workers⟩ ≤ 1) :
    Ordered exec store ⟨shared, workers⟩ where
  replayed := by rw [hstore, hlog]; exact h.replayed
  answered := by rw [hlog]; exact h.answered
  told n input answer hn := by
    obtain ⟨m, hm⟩ := htold n input answer hn
    rw [hlog]
    exact h.told m input answer hm
  seen n input seen hn := by
    rw [hstore]
    rcases hseen n input seen hn with hnow | ⟨m, hm⟩
    · exact hnow
    · exact h.seen m input seen hm
  one := hone

theorem of_set {β : Type} {l : List β} {m n : Nat} {b c : β} (h : (l.set n b)[m]? = some c) :
    c = b ∨ m ≠ n ∧ l[m]? = some c := by
  rw [List.getElem?_set] at h
  split at h
  · split at h
    · exact .inl (Option.some.inj h).symm
    · cases h
  · rename_i hne
    exact .inr ⟨Ne.symm hne, h⟩

theorem of_concat {β : Type} {l : List β} {m : Nat} {b c : β} (h : (l ++ [b])[m]? = some c) :
    c = b ∨ l[m]? = some c := by
  rw [List.getElem?_append] at h
  split at h
  · exact .inr h
  · exact .inl (List.mem_singleton.mp (List.mem_of_getElem? h))

theorem Ordered.alone (h : Ordered exec store s) {m n : Nat} {call other : Call σ ι α}
    (hm : s.workers[m]? = some call) (hn : s.workers[n]? = some other) (hcall : call.inside = 1)
    (hother : other.inside = 1) : m = n := by
  by_contra hne
  have hone := h.one
  unfold Workers.weigh at hone
  rcases Nat.lt_or_gt_of_ne hne with hlt | hlt
  · have := Workers.add_le_sum (g := Call.inside) hlt hm hn
    omega
  · have := Workers.add_le_sum (g := Call.inside) hlt hn hm
    omega

theorem ordered_step (e : Workers.Event ι Turn) (h : Ordered exec store s) :
    Ordered exec store (Workers.step (calls exec) s e) := by
  have hone : Workers.weigh Shared.free Call.inside (Workers.step (calls exec) s e) ≤ 1 :=
    ((Nat.le_add_left _ _).trans (Workers.weigh_step spends e)).trans h.one
  cases e with
  | start input =>
    refine h.quiet rfl rfl ?_ ?_ hone
    · intro n i answer hn
      rcases of_concat hn with hnew | hold
      · cases hnew
      · exact ⟨n, hold⟩
    · intro n i seen hn
      rcases of_concat hn with hnew | hold
      · cases hnew
      · exact .inr ⟨n, hold⟩
  | act n turn =>
    cases hcall : s.workers[n]? with
    | none => simpa only [Workers.step, hcall] using h
    | some call =>
      simp only [Workers.step, hcall, calls] at hone ⊢
      -- Whatever the step puts in the place of the call that is no answer, and goes by the store.
      have hquiet : ∀ shared next, act exec turn s.shared call = (shared, next) →
          shared.store = s.shared.store → shared.log = s.shared.log →
          (∀ i answer, next = .through i answer → call = next) →
          (∀ i seen, next = .loaded i seen → seen = s.shared.store ∨ call = next) →
          Ordered exec store ⟨(act exec turn s.shared call).1,
            s.workers.set n (act exec turn s.shared call).2⟩ := by
        intro shared next hact hstore hlog htold hseen
        rw [hact] at hone ⊢
        refine h.quiet hstore hlog ?_ ?_ hone
        · intro m i answer hm
          rcases of_set hm with hnew | hold
          · exact ⟨n, by rw [hcall, htold i answer hnew.symm, hnew]⟩
          · exact ⟨m, hold.2⟩
        · intro m i seen hm
          rcases of_set hm with hnew | hold
          · rcases hseen i seen hnew.symm with hnow | hsame
            · exact .inl hnow
            · exact .inr ⟨n, by rw [hcall, hsame, hnew]⟩
          · exact .inr ⟨m, hold.2⟩
      cases turn with
      | give_up =>
        cases call with
        | waiting | holding | loaded | through | gave_up =>
          exact hquiet _ _ rfl rfl rfl (by simp) (by simp)
      | go =>
        cases call with
        | waiting input =>
          by_cases hlocked : s.shared.locked = true
          · refine hquiet s.shared (.waiting input) ?_ rfl rfl (by simp) (by simp)
            simp [act, hlocked]
          · refine hquiet { s.shared with locked := true } (.holding input) ?_ rfl rfl (by simp) (by simp)
            simp [act, hlocked]
        | holding input => exact hquiet _ _ rfl rfl rfl (by simp) (by simp)
        | through input answer => exact hquiet _ _ rfl rfl rfl (by simp) (by simp)
        | gave_up => exact hquiet _ _ rfl rfl rfl (by simp) (by simp)
        | loaded input seen =>
          obtain rfl := h.seen n input seen hcall
          have hreplayed := h.replayed
          simp only [act] at hone ⊢
          constructor
          · rw [List.map_append, List.map_singleton, serial_concat, ← hreplayed]
          · exact serial_log_concat h.answered (by rw [← hreplayed])
          · intro m i answer hm
            rcases of_set hm with hnew | hold
            · obtain ⟨rfl, rfl⟩ := hnew
              exact List.mem_append_right _ (List.mem_singleton.mpr rfl)
            · exact List.mem_append_left _ (h.told m i answer hold.2)
          · intro m i seen hm
            rcases of_set hm with hnew | ⟨hne, hold⟩
            · cases hnew
            · exact (hne (h.alone hold hcall rfl rfl)).elim
          · exact hone

theorem ordered_run (events : List (Workers.Event ι Turn)) :
    Ordered exec store (Workers.run (calls exec) (idle store) events) := by
  have hfine : Workers.Along (calls exec) (fun _ _ => True) (idle store) events := ?_
  · exact Workers.run_keeps (fun s e _ => ordered_step e) hfine ordered_idle
  generalize idle store = s
  induction events generalizing s with
  | nil => trivial
  | cons e events ih => exact ⟨trivial, ih _⟩

section
variable (s : Workers.State (Shared σ ι α) (Call σ ι α))

/-- What has taken effect stays before all that takes effect later. -/
theorem log_step (e : Workers.Event ι Turn) :
    s.shared.log <+: (Workers.step (calls exec) s e).shared.log := by
  cases e with
  | start input => exact List.prefix_rfl
  | act n turn =>
    cases hcall : s.workers[n]? with
    | none => simp [Workers.step, hcall]
    | some call =>
      simp only [Workers.step, hcall, calls]
      unfold act
      split
      · split <;> exact List.prefix_rfl
      · exact List.prefix_rfl
      · exact List.prefix_append _ _
      · exact List.prefix_rfl
      · exact List.prefix_rfl

theorem log_run (events : List (Workers.Event ι Turn)) :
    s.shared.log <+: (Workers.run (calls exec) s events).shared.log := by
  induction events generalizing s with
  | nil => exact List.prefix_rfl
  | cons e events ih => exact (log_step s e).trans (ih _)

end

end Locked
