-- Finite maps whose entries are kept in the order of their keys. The first
-- entry is the oldest when keys count up, so a bound on the size can drop
-- entries from the front.
import Mathlib.Data.List.Basic
import Mathlib.Data.List.Pairwise
import Mathlib.Order.Basic
import Mathlib.Tactic

variable {κ α : Type} [LinearOrder κ]

@[ext]
structure SortedMap (κ α : Type) [LinearOrder κ] where
  entries : List (κ × α)
  sorted : entries.Pairwise fun a b => a.1 < b.1

namespace SortedMap

/-! ## Operations -/

def empty : SortedMap κ α := ⟨[], List.Pairwise.nil⟩

instance : Inhabited (SortedMap κ α) := ⟨empty⟩

instance [DecidableEq α] : DecidableEq (SortedMap κ α) :=
  fun m m' => decidable_of_iff (m.entries = m'.entries) SortedMap.ext_iff.symm

def get? (m : SortedMap κ α) (k : κ) : Option α :=
  (m.entries.find? fun e => decide (e.1 = k)).map Prod.snd

def contains (m : SortedMap κ α) (k : κ) : Bool := (m.get? k).isSome

def size (m : SortedMap κ α) : Nat := m.entries.length

def insertEntry (k : κ) (a : α) : List (κ × α) → List (κ × α)
  | [] => [(k, a)]
  | e :: rest =>
    if k < e.1 then (k, a) :: e :: rest
    else if k = e.1 then (k, a) :: rest
    else e :: insertEntry k a rest

variable {e : κ × α} {l : List (κ × α)} {bound : Nat}

theorem mem_insertEntry {k : κ} {a : α} (h : e ∈ insertEntry k a l) : e = (k, a) ∨ e ∈ l := by
  induction l with
  | nil => exact .inl (List.mem_singleton.mp h)
  | cons f rest ih =>
    unfold insertEntry at h
    split at h
    · exact List.mem_cons.mp h
    · split at h
      · exact (List.mem_cons.mp h).imp id (List.mem_cons_of_mem f)
      · rcases List.mem_cons.mp h with rfl | h
        · exact .inr List.mem_cons_self
        · exact (ih h).imp id (List.mem_cons_of_mem f)

theorem sorted_insertEntry (k : κ) (a : α) (h : l.Pairwise fun a b => a.1 < b.1) :
    (insertEntry k a l).Pairwise fun a b => a.1 < b.1 := by
  induction l with
  | nil => exact List.pairwise_singleton _ _
  | cons e rest ih =>
    obtain ⟨hhead, htail⟩ := List.pairwise_cons.mp h
    unfold insertEntry
    split
    case isTrue hlt =>
      refine List.pairwise_cons.mpr ⟨fun f hf => ?_, h⟩
      rcases List.mem_cons.mp hf with rfl | hf
      · exact hlt
      · exact lt_trans hlt (hhead f hf)
    case isFalse hlt =>
      split
      case isTrue heq =>
        subst heq
        exact List.pairwise_cons.mpr ⟨hhead, htail⟩
      case isFalse hne =>
        refine List.pairwise_cons.mpr ⟨fun f hf => ?_, ih htail⟩
        rcases mem_insertEntry hf with rfl | hf
        · exact lt_of_le_of_ne (not_lt.mp hlt) (Ne.symm hne)
        · exact hhead f hf

def insert (m : SortedMap κ α) (k : κ) (a : α) : SortedMap κ α :=
  ⟨insertEntry k a m.entries, sorted_insertEntry k a m.sorted⟩

def erase (m : SortedMap κ α) (k : κ) : SortedMap κ α :=
  ⟨m.entries.filter fun e => decide (e.1 ≠ k), m.sorted.filter _⟩

/-- Every value changed, with its key at hand. -/
def map {β : Type} (m : SortedMap κ α) (f : κ → α → β) : SortedMap κ β :=
  ⟨m.entries.map fun e => (e.1, f e.1 e.2), List.pairwise_map.mpr m.sorted⟩

def filter (m : SortedMap κ α) (keep : κ → α → Bool) : SortedMap κ α :=
  ⟨m.entries.filter fun e => keep e.1 e.2, m.sorted.filter _⟩

def keepLast (m : SortedMap κ α) (bound : Nat) : SortedMap κ α :=
  ⟨m.entries.drop (m.entries.length - bound), m.sorted.drop⟩

/-! ## Entries and keys -/

variable {m : SortedMap κ α} {k k' : κ} {a a' : α}

theorem key_injective {f : κ × α} (he : e ∈ m.entries) (hf : f ∈ m.entries) (h : e.1 = f.1) :
    e = f := by
  by_contra hne
  have hkeys : m.entries.Pairwise fun a b => a.1 ≠ b.1 := m.sorted.imp fun hlt => hlt.ne
  have : Std.Symm fun a b : κ × α => a.1 ≠ b.1 := ⟨fun _ _ => Ne.symm⟩
  exact hkeys.forall he hf hne h

theorem get?_eq_some_iff : m.get? k = some a ↔ (k, a) ∈ m.entries := by
  unfold get?
  constructor
  · intro h
    obtain ⟨e, he, rfl⟩ := Option.map_eq_some_iff.mp h
    have hk : e.1 = k := by simpa using List.find?_some he
    rw [← hk]
    exact List.mem_of_find?_eq_some he
  · intro h
    have hsome : (m.entries.find? fun e => decide (e.1 = k)).isSome :=
      List.find?_isSome.mpr ⟨(k, a), h, decide_eq_true rfl⟩
    obtain ⟨e, he⟩ := Option.isSome_iff_exists.mp hsome
    have hk : e.1 = k := by simpa using List.find?_some he
    rw [he, key_injective (List.mem_of_find?_eq_some he) h hk]
    rfl

theorem get?_eq_none_iff : m.get? k = none ↔ ∀ a, (k, a) ∉ m.entries := by
  rw [Option.eq_none_iff_forall_ne_some]
  exact forall_congr' fun a => not_congr get?_eq_some_iff

theorem ext_get? {m' : SortedMap κ α} (h : ∀ k, m.get? k = m'.get? k) : m = m' := by
  have hmem : ∀ e, e ∈ m.entries ↔ e ∈ m'.entries := by
    intro e
    rw [← get?_eq_some_iff (k := e.1) (a := e.2), h, get?_eq_some_iff]
  have hperm : m.entries.Perm m'.entries := by
    refine (List.perm_ext_iff_of_nodup ?_ ?_).mpr hmem
    · exact m.sorted.imp fun hlt heq => hlt.ne (congrArg Prod.fst heq)
    · exact m'.sorted.imp fun hlt heq => hlt.ne (congrArg Prod.fst heq)
  apply SortedMap.ext
  exact hperm.eq_of_pairwise (fun a b _ _ hab hba => absurd hba hab.not_gt) m.sorted m'.sorted

theorem mem_insertEntry_iff (hsorted : l.Pairwise fun a b => a.1 < b.1) :
    e ∈ insertEntry k a l ↔ e = (k, a) ∨ e ∈ l ∧ e.1 ≠ k := by
  induction l with
  | nil => simp [insertEntry]
  | cons f rest ih =>
    obtain ⟨hhead, htail⟩ := List.pairwise_cons.mp hsorted
    unfold insertEntry
    split
    case isTrue hlt =>
      have hne : e ∈ f :: rest → e.1 ≠ k := by
        intro he
        rcases List.mem_cons.mp he with rfl | he
        · exact hlt.ne'
        · exact (lt_trans hlt (hhead e he)).ne'
      rw [List.mem_cons]
      exact or_congr_right ⟨fun he => ⟨he, hne he⟩, And.left⟩
    case isFalse hlt =>
      split
      case isTrue heq =>
        subst heq
        rw [List.mem_cons, List.mem_cons]
        refine or_congr_right ⟨fun he => ⟨.inr he, (hhead e he).ne'⟩, ?_⟩
        rintro ⟨rfl | he, hne⟩
        · exact absurd rfl hne
        · exact he
      case isFalse hne =>
        rw [List.mem_cons, ih htail, List.mem_cons]
        constructor
        · rintro (rfl | rfl | ⟨he, hek⟩)
          · exact .inr ⟨.inl rfl, Ne.symm hne⟩
          · exact .inl rfl
          · exact .inr ⟨.inr he, hek⟩
        · rintro (rfl | ⟨rfl | he, hek⟩)
          · exact .inr (.inl rfl)
          · exact .inl rfl
          · exact .inr (.inr ⟨he, hek⟩)

theorem mem_insert : e ∈ (m.insert k a).entries ↔ e = (k, a) ∨ e ∈ m.entries ∧ e.1 ≠ k :=
  mem_insertEntry_iff m.sorted

theorem mem_erase : e ∈ (m.erase k).entries ↔ e ∈ m.entries ∧ e.1 ≠ k := by
  unfold erase
  rw [List.mem_filter, decide_eq_true_eq]

@[simp] theorem get?_empty : (empty : SortedMap κ α).get? k = none := rfl

@[simp] theorem get?_insert_self : (m.insert k a).get? k = some a :=
  get?_eq_some_iff.mpr (mem_insert.mpr (.inl rfl))

theorem get?_insert_of_ne (h : k' ≠ k) : (m.insert k a).get? k' = m.get? k' := by
  ext b
  simp [get?_eq_some_iff, mem_insert, h]

theorem insert_insert (m : SortedMap κ α) (k : κ) (a b : α) :
    (m.insert k a).insert k b = m.insert k b := by
  apply ext_get?
  intro k'
  by_cases h : k' = k
  · subst h
    rw [get?_insert_self, get?_insert_self]
  · rw [get?_insert_of_ne h, get?_insert_of_ne h, get?_insert_of_ne h]

@[simp] theorem get?_erase_self : (m.erase k).get? k = none :=
  get?_eq_none_iff.mpr fun _ h => (mem_erase.mp h).2 rfl

theorem get?_erase_of_ne (h : k' ≠ k) : (m.erase k).get? k' = m.get? k' := by
  ext b
  simp [get?_eq_some_iff, mem_erase, h]

/-! ### The two ends -/

theorem insertEntry_append {l' : List (κ × α)} (h : ∀ e ∈ l, e.1 < k) :
    insertEntry k a (l ++ l') = l ++ insertEntry k a l' := by
  induction l with
  | nil => rfl
  | cons e l ih =>
    have he := h e List.mem_cons_self
    rw [List.cons_append, insertEntry, if_neg he.not_gt, if_neg he.ne',
      ih fun f hf => h f (List.mem_cons_of_mem e hf)]
    rfl

theorem lt_last (h : m.entries = l ++ [e]) : ∀ f ∈ l, f.1 < e.1 := by
  have hsorted := m.sorted
  rw [h, List.pairwise_append] at hsorted
  exact fun f hf => hsorted.2.2 f hf e (List.mem_singleton_self e)

theorem entries_insert_new (h : ∀ e ∈ m.entries, e.1 < k) :
    (m.insert k a).entries = m.entries ++ [(k, a)] := by
  have hsplit : insertEntry k a (m.entries ++ []) = m.entries ++ insertEntry k a [] :=
    insertEntry_append h
  rwa [List.append_nil] at hsplit

/-- Entries that are inserted in their order come out as they are. -/
theorem foldlM_insert_entries {β ε : Type} (add : SortedMap κ α → β → Except ε (SortedMap κ α))
    (write : κ × α → β) {rest : List (κ × α)} :
    ∀ {m : SortedMap κ α}, (m.entries ++ rest).Pairwise (fun a b => a.1 < b.1) →
    (∀ e ∈ rest, ∀ m : SortedMap κ α, m.contains e.1 = false →
      add m (write e) = .ok (m.insert e.1 e.2)) →
    ∃ m', (rest.map write).foldlM add m = .ok m' ∧ m'.entries = m.entries ++ rest := by
  induction rest with
  | nil => exact fun _ _ => ⟨_, rfl, (List.append_nil _).symm⟩
  | cons e rest ih =>
    intro m hsorted hinsert
    obtain ⟨he, hrest⟩ := List.forall_mem_cons.mp hinsert
    have hlast : ∀ f ∈ m.entries, f.1 < e.1 := by
      intro f hf
      exact (List.pairwise_append.mp hsorted).2.2 f hf e List.mem_cons_self
    have hnew : m.contains e.1 = false := by
      unfold contains
      rw [Option.isSome_eq_false_iff, Option.isNone_iff_eq_none, get?_eq_none_iff]
      exact fun a ha => (hlast _ ha).ne rfl
    have hentries : (m.insert e.1 e.2).entries = m.entries ++ [e] := entries_insert_new hlast
    obtain ⟨m', hfold, hall⟩ := ih (m := m.insert e.1 e.2)
      (by rw [hentries, List.append_assoc, List.singleton_append]; exact hsorted) hrest
    refine ⟨m', ?_, ?_⟩
    · rw [List.map_cons, List.foldlM_cons, he m hnew]
      exact hfold
    · rw [hall, hentries, List.append_assoc, List.singleton_append]

variable {r : List (κ × α)} {b : α} {keys : Finset κ}

theorem entries_insert_at (h : m.entries = l ++ (k, b) :: r) :
    (m.insert k a).entries = l ++ (k, a) :: r := by
  have hsorted := m.sorted
  rw [h, List.pairwise_append] at hsorted
  change insertEntry k a m.entries = _
  rw [h, insertEntry_append fun e he => hsorted.2.2 e he (k, b) List.mem_cons_self]
  unfold insertEntry
  rw [if_neg (lt_irrefl k), if_pos rfl]

theorem entries_insert_last (h : m.entries = l ++ [(k, b)]) :
    (m.insert k a).entries = l ++ [(k, a)] := entries_insert_at h

theorem get?_at (h : m.entries = l ++ (k, b) :: r) : m.get? k = some b :=
  get?_eq_some_iff.mpr (h ▸ List.mem_append_right l List.mem_cons_self)

theorem get?_last (h : m.entries = l ++ [(k, b)]) : m.get? k = some b := get?_at h

theorem entries_erase_first (h : m.entries = (k, b) :: l) : (m.erase k).entries = l := by
  have hsorted := m.sorted
  rw [h, List.pairwise_cons] at hsorted
  change m.entries.filter (fun e => decide (e.1 ≠ k)) = l
  rw [h, List.filter_cons_of_neg (by simp), List.filter_eq_self]
  intro e he
  exact decide_eq_true (hsorted.1 e he).ne'

@[simp] theorem get?_map {β : Type} (f : κ → α → β) : (m.map f).get? k = (m.get? k).map (f k) := by
  ext b
  rw [get?_eq_some_iff, Option.map_eq_some_iff]
  unfold map
  simp only [List.mem_map, Prod.mk.injEq]
  constructor
  · rintro ⟨e, he, rfl, rfl⟩
    exact ⟨e.2, get?_eq_some_iff.mpr he, rfl⟩
  · rintro ⟨a, ha, rfl⟩
    exact ⟨(k, a), get?_eq_some_iff.mp ha, rfl, rfl⟩

@[simp] theorem get?_filter (keep : κ → α → Bool) :
    (m.filter keep).get? k = (m.get? k).filter (keep k) := by
  ext a
  rw [get?_eq_some_iff, Option.filter_eq_some_iff, get?_eq_some_iff]
  unfold filter
  rw [List.mem_filter]

/-! ## Sizes -/

theorem countP_insert (p : α → Bool) :
    (m.insert k a).entries.countP (fun e => p e.2) + (m.get? k).toList.countP p =
      m.entries.countP (fun e => p e.2) + [a].countP p := by
  obtain ⟨entries, sorted⟩ := m
  change (insertEntry k a entries).countP (fun e => p e.2) +
    ((entries.find? fun e => decide (e.1 = k)).map Prod.snd).toList.countP p = _
  induction entries with
  | nil => simp [insertEntry, List.countP_cons]
  | cons e rest ih =>
    obtain ⟨hhead, htail⟩ := List.pairwise_cons.mp sorted
    have ih := ih htail
    unfold insertEntry
    split
    case isTrue hlt =>
      -- the key comes before all others, so it was not there
      have hnone : (e :: rest).find? (fun e => decide (e.1 = k)) = none := by
        rw [List.find?_eq_none]
        intro f hf
        rw [decide_eq_true_eq]
        rcases List.mem_cons.mp hf with rfl | hf
        · exact hlt.ne'
        · exact (lt_trans hlt (hhead f hf)).ne'
      rw [hnone]
      simp only [List.countP_cons, Option.map_none, Option.toList_none, List.countP_nil]
      omega
    case isFalse hlt =>
      split
      case isTrue heq =>
        rw [List.find?_cons_of_pos (by simp [heq])]
        simp [List.countP_cons]
        omega
      case isFalse hne =>
        rw [List.find?_cons_of_neg (by simpa using Ne.symm hne)]
        simp only [List.countP_cons] at ih ⊢
        omega

theorem keepLast_of_size_le (h : m.size ≤ bound) : m.keepLast bound = m := by
  ext1
  change m.entries.drop (m.size - bound) = m.entries
  rw [Nat.sub_eq_zero_of_le h, List.drop_zero]

theorem mem_of_mem_keepLast (h : e ∈ (m.keepLast bound).entries) :
    e ∈ m.entries := List.mem_of_mem_drop h

/-- An entry stays when no more than `bound` entries are as late as it is. -/
theorem mem_keepLast (he : e ∈ m.entries)
    (h : (m.entries.filter fun f => decide (e.1 ≤ f.1)).length ≤ bound) :
    e ∈ (m.keepLast bound).entries := by
  obtain ⟨before, after, hsplit⟩ := List.append_of_mem he
  have hsorted := m.sorted
  rw [hsplit] at hsorted
  obtain ⟨-, htail, hcross⟩ := List.pairwise_append.mp hsorted
  have hlate : (m.entries.filter fun f => decide (e.1 ≤ f.1)).length = after.length + 1 := by
    have hbefore : before.filter (fun f => decide (e.1 ≤ f.1)) = [] := by
      apply List.filter_eq_nil_iff.mpr
      intro f hf
      simpa using hcross f hf e List.mem_cons_self
    have hafter : (e :: after).filter (fun f => decide (e.1 ≤ f.1)) = e :: after := by
      apply List.filter_eq_self.mpr
      intro f hf
      rcases List.mem_cons.mp hf with rfl | hf
      · simp
      · simpa using ((List.pairwise_cons.mp htail).1 f hf).le
    rw [hsplit, List.filter_append, hbefore, hafter]
    rfl
  unfold keepLast
  simp only
  rw [hsplit, List.drop_append_of_le_length (by simp; omega)]
  exact List.mem_append_right _ List.mem_cons_self

theorem not_mem_dropped (he : e ∈ (m.keepLast bound).entries) :
    e.1 ∉ (m.entries.take (m.size - bound)).map Prod.fst := by
  intro hdropped
  obtain ⟨f, hf, hkey⟩ := List.mem_map.mp hdropped
  have hsorted := m.sorted
  rw [← List.take_append_drop (m.size - bound) m.entries] at hsorted
  exact ((List.pairwise_append.mp hsorted).2.2 f hf e he).ne hkey

theorem get?_foldl_erase (keys : List κ) (h : k ∉ keys) :
    ∀ m : SortedMap κ α, (keys.foldl (fun m k => m.erase k) m).get? k = m.get? k := by
  induction keys with
  | nil => exact fun m => rfl
  | cons k' keys ih =>
    intro m
    rw [List.mem_cons, not_or] at h
    rw [List.foldl_cons, ih h.2, get?_erase_of_ne h.1]

/-- A map has no more entries than a set that holds its keys. -/
theorem size_le_card (h : ∀ e ∈ m.entries, e.1 ∈ keys) : m.size ≤ keys.card := by
  have hnodup : (m.entries.map Prod.fst).Nodup :=
    List.pairwise_map.mpr (m.sorted.imp fun hlt => hlt.ne)
  calc m.size = (m.entries.map Prod.fst).length := (List.length_map _).symm
    _ = (m.entries.map Prod.fst).toFinset.card := (List.toFinset_card_of_nodup hnodup).symm
    _ ≤ keys.card := by
      apply Finset.card_le_card
      intro k hk
      obtain ⟨e, he, rfl⟩ := List.mem_map.mp (List.mem_toFinset.mp hk)
      exact h e he

theorem length_filter_le_card {late : κ × α → Bool}
    (h : ∀ e ∈ m.entries, late e = true → e.1 ∈ keys) :
    (m.entries.filter late).length ≤ keys.card := by
  let part : SortedMap κ α := ⟨m.entries.filter late, m.sorted.filter _⟩
  have hpart : ∀ e ∈ part.entries, e.1 ∈ keys := by
    intro e he
    obtain ⟨he, hlate⟩ := List.mem_filter.mp he
    exact h e he hlate
  exact size_le_card hpart

/-- An entry that is no older than a few others survives a bound. -/
theorem get?_keepLast (keys : Finset κ) (h : ∀ e ∈ m.entries, k ≤ e.1 → e.1 ∈ keys)
    (hcard : keys.card ≤ bound) : (m.keepLast bound).get? k = m.get? k := by
  ext a
  rw [get?_eq_some_iff, get?_eq_some_iff]
  constructor
  · exact mem_of_mem_keepLast
  · intro ha
    apply mem_keepLast ha
    refine le_trans (length_filter_le_card ?_) hcard
    intro e he hle
    exact h e he (of_decide_eq_true hle)

end SortedMap
