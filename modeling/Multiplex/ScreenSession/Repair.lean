-- What the repair of the motion stream does with an honest stream: groups of
-- frames, each with the parity that the host builds for it. Closing a group
-- either rebuilds exactly the missing frames or changes nothing.
import Multiplex.ScreenSession.Group
import Multiplex.ScreenSession.Video

namespace multiplex_screen_session

open multiplex_screen_protocol multiplex_screen_host

/-! ## A stream -/

/-- The frames that one encoder of the host sends, in groups of `n`, and how many parity shards it
sends for each group. -/
structure VideoStream where
  surface : UInt32
  n : Nat
  groups : Nat
  sent : Nat → VideoFrame
  shards : Nat → Nat
  n_pos : 0 < n
  /-- The sequence counter does not overflow. -/
  counted : groups * n + 1 < 2 ^ 64
  numbered : ∀ q, 1 ≤ q → q ≤ groups * n → (sent q).sequence.toNat = q
  same : ∀ q, (sent q).surface = surface

namespace VideoStream

variable (st : VideoStream)

def sequences (g : Nat) : List Nat := List.range' (g * st.n + 1) st.n

/-- The parity shards that the host sends for a group. -/
def parity (g : Nat) : List Parity :=
  match parity_for st.surface (UInt64.ofNat g) ((st.sequences g).map st.sent) (st.shards g) with
  | .ok parity => parity
  | .error _ => []

/-- What the link can bring of the stream. -/
def Sends : Arrival → Prop
  | .Frame frame => ∃ q, 1 ≤ q ∧ q ≤ st.groups * st.n ∧ frame = st.sent q ∧
      ∃ bytes, frame.encode = .ok bytes
  | .Shard parity => ∃ g < st.groups, parity ∈ st.parity g

def groupOf : Arrival → Nat
  | .Frame frame => (frame.sequence.toNat - 1) / st.n
  | .Shard parity => parity.group.toNat

end VideoStream

variable {st : VideoStream} {g : Nat}

theorem mem_sequences {q : Nat} : q ∈ st.sequences g ↔ g * st.n + 1 ≤ q ∧ q < g * st.n + 1 + st.n := by
  unfold VideoStream.sequences
  rw [List.mem_range'_1]

section
variable (hg : g < st.groups)
include hg

theorem group_end_le : g * st.n + st.n ≤ st.groups * st.n := by
  calc g * st.n + st.n = (g + 1) * st.n := by ring
    _ ≤ st.groups * st.n := Nat.mul_le_mul_right _ hg

theorem le_of_mem_sequences {q : Nat} (hq : q ∈ st.sequences g) : 1 ≤ q ∧ q ≤ st.groups * st.n := by
  have hend := group_end_le hg
  rw [mem_sequences] at hq
  omega

theorem group_sequences_eq : group_sequences g st.n = st.sequences g := by
  have hend := group_end_le hg
  have hcount := st.counted
  unfold group_sequences VideoStream.sequences wrap64
  simp only
  rw [Nat.mod_eq_of_lt (by omega : g * st.n < 2 ^ 64), Nat.mod_eq_of_lt (by omega),
    Nat.mod_eq_of_lt (by omega), Nat.add_sub_cancel_left]

theorem groupOf_frame {q : Nat} (hq : q ∈ st.sequences g) :
    st.groupOf (.Frame (st.sent q)) = g := by
  have hbounds := le_of_mem_sequences hg hq
  rw [mem_sequences] at hq
  unfold VideoStream.groupOf
  simp only
  rw [st.numbered q hbounds.1 hbounds.2]
  have hq' : q - 1 = (q - 1 - g * st.n) + g * st.n := by omega
  rw [hq', Nat.add_mul_div_right _ _ st.n_pos, Nat.div_eq_of_lt (by omega), Nat.zero_add]

end

theorem exists_group {q : Nat} (h1 : 1 ≤ q) (h2 : q ≤ st.groups * st.n) :
    ∃ g < st.groups, q ∈ st.sequences g := by
  have hdiv := Nat.div_add_mod (q - 1) st.n
  have hmod := Nat.mod_lt (q - 1) st.n_pos
  refine ⟨(q - 1) / st.n, (Nat.div_lt_iff_lt_mul st.n_pos).mpr (by omega), ?_⟩
  rw [mem_sequences, Nat.mul_comm]
  omega

/-! ## The parity of a group -/

theorem bind_ok {ε α β : Type} {x : Except ε α} {f : α → Except ε β} {b : β}
    (h : (x >>= f) = .ok b) : ∃ a, x = .ok a ∧ f a = .ok b := by
  cases x with
  | error e => cases h
  | ok a => exact ⟨a, rfl, h⟩

theorem mapM_ok {ε α β : Type} {f : α → Except ε β} {l : List α} :
    ∀ {r : List β}, l.mapM f = .ok r → List.Forall₂ (fun a b => f a = .ok b) l r := by
  induction l with
  | nil =>
    intro r h
    cases h
    exact List.Forall₂.nil
  | cons a l ih =>
    intro r h
    rw [List.mapM_cons] at h
    obtain ⟨b, hb, h⟩ := bind_ok h
    obtain ⟨r', hr, h⟩ := bind_ok h
    cases h
    exact List.Forall₂.cons hb (ih hr)

/-- How the parity of a group is made: the encoded frames in shards of one length, and the rows of a
code with `k` of them. -/
structure Coded (st : VideoStream) (g k length : Nat) (packed : List Shard) : Prop where
  fits : st.n + k ≤ MAX_SHARDS
  count : packed.length = st.n
  long : 0 < length
  sized : ∀ s ∈ packed, s.length = length
  frames : ∀ i < st.n, ∃ bytes, (st.sent (g * st.n + 1 + i)).encode = .ok bytes ∧
    pack_shard bytes length = .ok (packed.getD i [])
  parity : st.parity g = (List.range k).map fun i =>
    ⟨st.surface, UInt64.ofNat g, UInt8.ofNat i, UInt8.ofNat st.n,
      (cauchyCode st.n k).parity_shard length packed i⟩

theorem parity_for_ok {surface : UInt32} {group : UInt64} {frames : List VideoFrame} {shards : Nat}
    {parity : List Parity} (h : parity_for surface group frames shards = .ok parity)
    (hne : parity ≠ []) : ∃ encoded packed fec code,
      List.Forall₂ (fun f bytes => f.encode = .ok bytes) frames encoded ∧
      List.Forall₂ (fun bytes shard => pack_shard bytes (shard_length encoded) = .ok shard)
        encoded packed ∧ Fec.new frames.length shards = .ok fec ∧ fec.encode packed = .ok code ∧
      parity = code.zipIdx.map fun p =>
        ⟨surface, group, UInt8.ofNat p.2, UInt8.ofNat frames.length, p.1⟩ := by
  unfold parity_for at h
  split at h
  · cases h
    exact absurd rfl hne
  · obtain ⟨encoded, hencoded, h⟩ := bind_ok h
    simp only at h
    split at h
    · cases h
      exact absurd rfl hne
    · obtain ⟨packed, hpacked, h⟩ := bind_ok h
      obtain ⟨fec, hfec, h⟩ := bind_ok h
      obtain ⟨code, hcode, h⟩ := bind_ok h
      cases h
      exact ⟨encoded, packed, fec, code, mapM_ok hencoded, mapM_ok hpacked, hfec, hcode, rfl⟩

theorem new_ok {data parity : Nat} {fec : Fec} (h : Fec.new data parity = .ok fec) :
    0 < data ∧ 0 < parity ∧ data + parity ≤ MAX_SHARDS ∧ fec = cauchyCode data parity := by
  unfold Fec.new at h
  split at h
  · cases h
  · cases h
    exact ⟨by omega, by omega, by omega, rfl⟩

theorem coded_of_parity (h : st.parity g ≠ []) : ∃ k length packed, Coded st g k length packed := by
  have hlen : ((st.sequences g).map st.sent).length = st.n := by
    simp [VideoStream.sequences]
  obtain ⟨parity, hok, hparity⟩ : ∃ parity, parity_for st.surface (UInt64.ofNat g)
      ((st.sequences g).map st.sent) (st.shards g) = .ok parity ∧ st.parity g = parity := by
    unfold VideoStream.parity at h ⊢
    split at h
    · rename_i hok
      exact ⟨_, hok, rfl⟩
    · exact absurd rfl h
  obtain ⟨encoded, packed, fec, code, hencoded, hpacked, hfec, hcode, rfl⟩ :=
    parity_for_ok hok (hparity ▸ h)
  rw [hlen] at hfec hparity
  obtain ⟨-, hk, hfits, rfl⟩ := new_ok hfec
  have hcount : packed.length = st.n := by
    rw [← hlen, hencoded.length_eq, hpacked.length_eq]
  have hsized : ∀ s ∈ packed, s.length = shard_length encoded := by
    intro s hs
    obtain ⟨i, hi, rfl⟩ := List.getElem_of_mem hs
    exact length_pack_shard (hpacked.get (by rw [hpacked.length_eq]; exact hi) hi)
  have hlong : 0 < shard_length encoded := by
    unfold shard_length
    omega
  rw [encode_eq st.n_pos hcount hlong hsized] at hcode
  cases hcode
  refine ⟨st.shards g, shard_length encoded, packed, hfits, hcount, hlong, hsized, ?_, ?_⟩
  · intro i hi
    have h1 : i < ((st.sequences g).map st.sent).length := by rw [hlen]; exact hi
    have h2 : i < encoded.length := by rw [← hencoded.length_eq]; exact h1
    have h3 : i < packed.length := by rw [hcount]; exact hi
    refine ⟨encoded[i], ?_, ?_⟩
    · have := hencoded.get h1 h2
      simpa [VideoStream.sequences] using this
    · have := hpacked.get h2 h3
      rw [List.getD_eq_getElem?_getD, List.getElem?_eq_getElem h3]
      exact this
  · rw [hparity]
    apply List.ext_getElem (by simp)
    simp

structure ShardOf (st : VideoStream) (g k length : Nat) (packed : List Shard) (p : Parity) :
    Prop where
  surface : p.surface = st.surface
  group : p.group.toNat = g
  index : p.index.toNat < k
  data_shards : p.data_shards.toNat = st.n
  payload : p.payload = (cauchyCode st.n k).parity_shard length packed p.index.toNat

variable {k length : Nat} {packed : List Shard}

theorem Coded.shard (h : Coded st g k length packed) (hg : g < st.groups) {p : Parity}
    (hp : p ∈ st.parity g) : ShardOf st g k length packed p := by
  have hmax : MAX_SHARDS = 256 := by decide
  have hfits := h.fits
  have hpos := st.n_pos
  have hcount := st.counted
  have hgroup : g < 2 ^ 64 := by
    have := Nat.le_mul_of_pos_right st.groups hpos
    omega
  rw [h.parity] at hp
  obtain ⟨i, hi, rfl⟩ := List.mem_map.mp hp
  rw [List.mem_range] at hi
  have hi256 : i < 256 := by omega
  have hn256 : st.n < 256 := by omega
  have hindex : (UInt8.ofNat i).toNat = i := UInt8.toNat_ofNat_of_lt' hi256
  refine ⟨rfl, UInt64.toNat_ofNat_of_lt' hgroup, ?_, UInt8.toNat_ofNat_of_lt' hn256, ?_⟩
  · rw [hindex]
    exact hi
  · simp only [hindex]

theorem ShardOf.payload_length (h : Coded st g k length packed) {p : Parity}
    (hp : ShardOf st g k length packed p) : p.payload.length = length := by
  rw [hp.payload]
  exact (fits_parity h.count h.sized _ _).sized

theorem shard_of_parity (hg : g < st.groups) {p : Parity} (hp : p ∈ st.parity g) :
    p.group.toNat = g ∧ p.data_shards.toNat = st.n := by
  obtain ⟨k, length, packed, hc⟩ := coded_of_parity (List.ne_nil_of_mem hp)
  exact ⟨(hc.shard hg hp).group, (hc.shard hg hp).data_shards⟩

theorem Coded.shard_unique (h : Coded st g k length packed) {p q : Parity}
    (hp : p ∈ st.parity g) (hq : q ∈ st.parity g) (hindex : p.index = q.index) : p = q := by
  have hmax : MAX_SHARDS = 256 := by decide
  have hfits := h.fits
  rw [h.parity] at hp hq
  obtain ⟨i, hi, rfl⟩ := List.mem_map.mp hp
  obtain ⟨j, hj, rfl⟩ := List.mem_map.mp hq
  rw [List.mem_range] at hi hj
  rw [ofNat_injective (by omega) (by omega) hindex]

/-! ## What is kept of the stream -/

/-- Shards held of a group: some of those that were sent, each index once. -/
structure HeldOf (st : VideoStream) (g : Nat) (held : List (Nat × Shard)) : Prop where
  sent : ∀ h ∈ held, ∃ p ∈ st.parity g, h = (p.index.toNat, p.payload)
  distinct : (held.map Prod.fst).Nodup

structure Kept (st : VideoStream) (s : Surface) : Prop where
  frames : ∀ q bytes, (q, bytes) ∈ s.frames.entries →
    1 ≤ q ∧ q ≤ st.groups * st.n ∧ (st.sent q).encode = .ok bytes
  parity : ∀ g held, (g, held) ∈ s.parity.entries → HeldOf st g held

def VideoStream.missing (st : VideoStream) (s : Surface) (g : Nat) : List Nat :=
  (st.sequences g).filter fun q => !s.frames.contains q

theorem HeldOf.length_le {held : List (Nat × Shard)} (h : HeldOf st g held)
    (hc : Coded st g k length packed) (hg : g < st.groups) : held.length ≤ k := by
  have hsub : (held.map Prod.fst).Subperm (List.range k) := by
    apply h.distinct.subperm
    intro i hi
    obtain ⟨e, he, rfl⟩ := List.mem_map.mp hi
    obtain ⟨p, hp, rfl⟩ := h.sent e he
    exact List.mem_range.mpr (hc.shard hg hp).index
  simpa using hsub.length_le

theorem HeldOf.coded {held : List (Nat × Shard)} (h : HeldOf st g held) (hne : held ≠ []) :
    ∃ k length packed, Coded st g k length packed := by
  obtain ⟨e, rest, rfl⟩ := List.exists_cons_of_ne_nil hne
  obtain ⟨p, hp, -⟩ := h.sent e List.mem_cons_self
  exact coded_of_parity (List.ne_nil_of_mem hp)

theorem HeldOf.first_length {held : List (Nat × Shard)} (h : HeldOf st g held)
    (hc : Coded st g k length packed) (hg : g < st.groups) (hne : held ≠ []) :
    (held.headD (0, [])).2.length = length := by
  obtain ⟨e, rest, rfl⟩ := List.exists_cons_of_ne_nil hne
  obtain ⟨p, hp, rfl⟩ := h.sent e List.mem_cons_self
  exact ShardOf.payload_length hc (hc.shard hg hp)

/-! ## Closing a group -/

section Close

variable {s : Surface} {held : List (Nat × Shard)}

/-- The shards of the frames that are here, as `close` packs them. -/
def packedHere (s : Surface) (length : Nat) (sequences : List Nat) : List (Option Shard) :=
  sequences.map fun q => (s.frames.get? q).map fun bytes =>
    (pack_shard bytes length).toOption.getD []

section
variable (hk : Kept st s) (hc : Coded st g k length packed)
include hk hc

theorem packed_frame {i : Nat} (hi : i < st.n) {bytes : List UInt8}
    (hget : s.frames.get? (g * st.n + 1 + i) = some bytes) :
    (pack_shard bytes length).toOption.getD [] = packed.getD i [] := by
  obtain ⟨-, -, henc⟩ := hk.frames _ _ (SortedMap.get?_eq_some_iff.mp hget)
  obtain ⟨bytes', henc', hpack⟩ := hc.frames i hi
  rw [henc] at henc'
  cases henc'
  rw [hpack]
  rfl

theorem getElem?_packedHere {i : Nat} {shard : Shard}
    (hi : (packedHere s length (st.sequences g))[i]? = some (some shard)) :
    packed[i]? = some shard := by
  unfold packedHere VideoStream.sequences at hi
  rw [List.getElem?_map, Option.map_eq_some_iff] at hi
  obtain ⟨q, hq, hshard⟩ := hi
  obtain ⟨hin, rfl⟩ := List.getElem?_eq_some_iff.mp hq
  rw [List.length_range'] at hin
  obtain ⟨bytes, hget, rfl⟩ := Option.map_eq_some_iff.mp hshard
  simp at hget
  rw [packed_frame hk hc hin hget, List.getD_eq_getElem?_getD,
    List.getElem?_eq_getElem (hc.count ▸ hin), Option.getD_some]

theorem packedHere_sized {shard : Shard}
    (hs : shard ∈ (packedHere s length (st.sequences g)).filterMap id) : shard.length = length := by
  simp at hs
  obtain ⟨i, hi⟩ := List.mem_iff_getElem?.mp hs
  exact hc.sized shard (List.mem_of_getElem? (getElem?_packedHere hk hc hi))

end

theorem arrived_close (hk : Kept st s) (hg : g < st.groups) (hc : Coded st g k length packed)
    (hheld : HeldOf st g held) (hindex : ∀ h ∈ held, h.1 < held.length) :
    Arrived st.n held.length length packed (packedHere s length (st.sequences g)) held := by
  refine ⟨hc.count, hc.sized, by simp [packedHere, VideoStream.sequences], ?_, hindex, ?_,
    hheld.distinct⟩
  · exact fun i shard hi => getElem?_packedHere hk hc hi
  · intro h hh
    obtain ⟨p, hp, rfl⟩ := hheld.sent h hh
    exact (hc.shard hg hp).payload

theorem packedHere_not_all (length : Nat) (hmissing : st.missing s g ≠ []) :
    ¬(packedHere s length (st.sequences g)).all Option.isSome = true := by
  obtain ⟨q, rest, hq⟩ := List.exists_cons_of_ne_nil hmissing
  have hmem : q ∈ st.missing s g := by rw [hq]; exact List.mem_cons_self
  obtain ⟨hin, hnot⟩ := List.mem_filter.mp hmem
  intro hall
  have hsome := List.all_eq_true.mp hall _ (List.mem_map_of_mem hin)
  simp at hsome
  unfold SortedMap.contains at hnot
  simp [hsome] at hnot

theorem survivors_close (st : VideoStream) (s : Surface) (length g : Nat)
    (held : List (Nat × Shard)) :
    survivors (packedHere s length (st.sequences g)) held + (st.missing s g).length =
      st.n + held.length := by
  have hcount : (packedHere s length (st.sequences g)).countP Option.isSome =
      (st.sequences g).countP fun q => s.frames.contains q := by
    unfold packedHere
    rw [List.countP_map]
    apply List.countP_congr
    simp [SortedMap.contains]
  have hsplit := List.length_eq_countP_add_countP (fun q => s.frames.contains q) (l := st.sequences g)
  unfold survivors VideoStream.missing
  rw [hcount, ← List.countP_eq_length_filter]
  have hlen : (st.sequences g).length = st.n := by simp [VideoStream.sequences]
  have hnot : (st.sequences g).countP (fun q => !s.frames.contains q) =
      (st.sequences g).countP fun q => decide ¬s.frames.contains q = true := by
    simp
  omega

theorem expected_surface_eq (hk : Kept st s) (q : Nat) :
    s.expected_surface.all (fun id => (st.sent q).surface == id) = true := by
  unfold Surface.expected_surface
  split
  · rfl
  · rename_i first rest heq
    obtain ⟨-, -, henc⟩ := hk.frames first.1 first.2 (by rw [heq]; exact List.mem_cons_self)
    rw [decode_encode henc]
    simp [st.same]

theorem accept_packed (hk : Kept st s) (hg : g < st.groups) (hc : Coded st g k length packed)
    {i : Nat} (hi : i < st.n) :
    accept_shard s.expected_surface (g * st.n + 1 + i) (packed.getD i []) =
      some (st.sent (g * st.n + 1 + i)) := by
  have hend := group_end_le hg
  obtain ⟨bytes, henc, hpack⟩ := hc.frames i hi
  unfold accept_shard
  rw [unpack_pack (encode_ne_nil henc) hpack]
  simp only [decode_encode henc]
  rw [if_pos ⟨st.numbered _ (by omega) (by omega), expected_surface_eq hk _⟩]

/-- The missing frames, as the loop over the rebuilt frames takes them. -/
def VideoStream.rebuilt (st : VideoStream) (s : Surface) (g : Nat) : List (Nat × Option VideoFrame) :=
  (st.missing s g).map fun q => (q, some (st.sent q))

theorem rebuilt_eq (hk : Kept st s) (hg : g < st.groups) (hc : Coded st g k length packed) :
    (((st.sequences g).zip (packed.map some)).filter fun d => !s.frames.contains d.1).map
      (fun d => (d.1, d.2.bind (accept_shard s.expected_surface d.1))) = st.rebuilt s g := by
  have hmem : ∀ d ∈ (st.sequences g).zip (packed.map some),
      (d.1, d.2.bind (accept_shard s.expected_surface d.1)) = (d.1, some (st.sent d.1)) := by
    intro d hd
    obtain ⟨i, hi, rfl⟩ := List.getElem_of_mem hd
    have hin : i < st.n := by
      simp [VideoStream.sequences] at hi
      omega
    have hp : i < packed.length := hc.count ▸ hin
    have haccept := accept_packed hk hg hc hin
    rw [List.getD_eq_getElem?_getD, List.getElem?_eq_getElem hp, Option.getD_some] at haccept
    simp [VideoStream.sequences, haccept]
  have hfst : ((st.sequences g).zip (packed.map some)).map Prod.fst = st.sequences g := by
    apply List.map_fst_zip
    simp [VideoStream.sequences, hc.count]
  unfold VideoStream.rebuilt VideoStream.missing
  rw [List.map_congr_left fun d hd => hmem d (List.mem_of_mem_filter hd)]
  conv_rhs => rw [← hfst, List.filter_map, List.map_map]
  rfl

/-- What closing a group does: nothing when the shards held do not suffice, and otherwise it writes
back exactly the missing frames. -/
theorem close_eq (hk : Kept st s) (hg : g < st.groups) (hshape : s.shape.get? g = some st.n)
    (hget : s.parity.get? g = some held) (repaired : Repaired) : s.close g repaired =
      if st.missing s g = [] then (s.forget g, repaired)
      else if Solvable (held.map Prod.fst) (st.missing s g).length then
        let r := (st.rebuilt s g).foldl write_rebuilt (s, repaired)
        (r.1.forget g, r.2)
      else (s, repaired) := by
  have hheld := hk.parity g held (SortedMap.get?_eq_some_iff.mp hget)
  have hcount : (st.sequences g).countP (fun q => !s.frames.contains q) =
      (st.missing s g).length := by
    rw [List.countP_eq_length_filter]
    rfl
  unfold Surface.close
  rw [hshape, hget]
  simp only [group_sequences_eq hg, hcount, List.length_eq_zero_iff]
  split
  case isTrue => rfl
  case isFalse hmissing =>
    have hpos : 0 < (st.missing s g).length := List.length_pos_of_ne_nil hmissing
    by_cases hfew : (st.missing s g).length > held.length
    · rw [if_pos hfew, if_neg]
      intro hsolve
      have := hsolve.1
      rw [List.length_map] at this
      omega
    rw [if_neg hfew]
    have hne : held ≠ [] := List.ne_nil_of_length_pos (by omega)
    obtain ⟨k, length, packed, hc⟩ := hheld.coded hne
    rw [hheld.first_length hc hg hne, if_neg]
    · have hk_le := hheld.length_le hc hg
      have hfits := hc.fits
      rw [Nat.max_eq_left (by omega), new_eq st.n_pos (by omega) (by omega)]
      simp only
      by_cases hindex : ∀ h ∈ held, h.1 < held.length
      · have hsurvivors := survivors_close st s length g held
        have harrived := arrived_close hk hg hc hheld hindex
        have hrebuild := harrived.rebuild_enough (by omega) st.n_pos hc.long (by omega)
        unfold packedHere at hrebuild
        rw [hrebuild, if_pos]
        · simp only [rebuilt_eq hk hg hc]
        · exact ⟨by rw [List.length_map]; omega, by simpa using hindex⟩
      · have hnot : ¬Solvable (held.map Prod.fst) (st.missing s g).length := by
          intro hsolve
          apply hindex
          intro h hh
          simpa using hsolve.2 h.1 (List.mem_map_of_mem hh)
        push Not at hindex
        obtain ⟨h, hh, hbeyond⟩ := hindex
        have hrefused := rebuild_index_refused (cauchyCode st.n held.length)
          (packedHere_not_all length hmissing) hh hbeyond
        unfold packedHere at hrefused
        rw [hrefused, if_neg hnot]
    · simp only [List.any_eq_true, decide_eq_true_eq, not_exists, not_and, not_not]
      exact fun shard hs => packedHere_sized hk hc hs

/-- The surface with frames of the stream written back. -/
structure Restored (st : VideoStream) (missing : List Nat) (s : Surface) (repaired : Repaired)
    (r : Surface × Repaired) : Prop where
  frames : ∀ q bytes, (q, bytes) ∈ r.1.frames.entries ↔
    q ∈ missing ∧ (st.sent q).encode = .ok bytes ∨ q ∉ missing ∧ (q, bytes) ∈ s.frames.entries
  gaps : r.1.gaps = s.gaps.filter fun gap => decide (gap ∉ missing)
  parity : r.1.parity = s.parity
  highest : r.1.highest = s.highest
  group : r.1.group = s.group
  emitted : r.2 = { repaired with frames := repaired.frames ++ missing.map st.sent }

theorem restored_write (st : VideoStream) (missing : List Nat)
    (hencode : ∀ q ∈ missing, ∃ bytes, (st.sent q).encode = .ok bytes) :
    ∀ (s : Surface) (repaired : Repaired), Restored st missing s repaired
      ((missing.map fun q => (q, some (st.sent q))).foldl write_rebuilt (s, repaired)) := by
  induction missing with
  | nil => exact fun s repaired => ⟨by simp, by simp, rfl, rfl, rfl, by simp⟩
  | cons q missing ih =>
    intro s repaired
    obtain ⟨bytes, hbytes⟩ := hencode q List.mem_cons_self
    have h := ih (fun q' hq' => hencode q' (List.mem_cons_of_mem q hq'))
      (write_rebuilt (s, repaired) (q, some (st.sent q))).1
      (write_rebuilt (s, repaired) (q, some (st.sent q))).2
    simp only [write_rebuilt, hbytes] at h
    rw [List.map_cons, List.foldl_cons]
    simp only [write_rebuilt, hbytes]
    refine ⟨?_, ?_, h.parity, h.highest, h.group, ?_⟩
    · intro q' bytes'
      rw [h.frames, List.mem_cons]
      simp [Surface.drop_gap, SortedMap.mem_insert]
      by_cases hq' : q' = q
      · subst hq'
        by_cases hin : q' ∈ missing
        · simp [hin]
        · simp [hin, hbytes]
          exact eq_comm
      · simp [hq']
    · rw [h.gaps]
      simp [Surface.drop_gap]
      simp [Bool.and_comm]
    · rw [h.emitted]
      simp

end Close

/-! ## The maps after an arrival -/

variable {p : Parity} {q : Nat} {r : Surface × Repaired}

theorem HeldOf.push {held : List (Nat × Shard)} (h : HeldOf st g held) (hp : p ∈ st.parity g) :
    HeldOf st g (push_shard held p.index.toNat p.payload) := by
  unfold push_shard
  split
  · exact h
  · rename_i hnew
    refine ⟨?_, ?_⟩
    · intro e he
      rcases List.mem_append.mp he with he | he
      · exact h.sent e he
      · exact ⟨p, hp, List.mem_singleton.mp he⟩
    · simp only [List.any_eq_true, decide_eq_true_eq, not_exists, not_and] at hnew
      rw [List.map_append, List.map_singleton]
      apply List.Nodup.append h.distinct (List.nodup_singleton _)
      intro i hi hmem
      rw [List.mem_singleton] at hmem
      obtain ⟨e, he, rfl⟩ := List.mem_map.mp hi
      exact hnew e he hmem

theorem kept_default (st : VideoStream) : Kept st .default := by
  refine ⟨?_, ?_⟩
  · intro q bytes h
    cases h
  · intro g held h
    cases h

@[simp] theorem notice_gaps_frames (s : Surface) (q : Nat) : (s.notice_gaps q).frames = s.frames := by
  unfold Surface.notice_gaps
  split <;> rfl

@[simp] theorem notice_gaps_parity (s : Surface) (q : Nat) : (s.notice_gaps q).parity = s.parity := by
  unfold Surface.notice_gaps
  split <;> rfl

@[simp] theorem notice_gaps_group (s : Surface) (q : Nat) : (s.notice_gaps q).group = s.group := by
  unfold Surface.notice_gaps
  split <;> rfl

section
variable (s : Surface) (f : VideoFrame) (bytes : List UInt8)

theorem frame_frames :
    (s.frame f bytes).1.frames =
      (s.frames.insert f.sequence.toNat bytes).keepLast REMEMBERED_FRAMES := by
  simp [Surface.frame, Surface.age_gaps, Surface.drop_gap]

theorem frame_parity : (s.frame f bytes).1.parity = s.parity := by
  simp [Surface.frame, Surface.age_gaps, Surface.drop_gap]

end

variable {s : Surface}

theorem kept_frame (hk : Kept st s) (h1 : 1 ≤ q) (h2 : q ≤ st.groups * st.n)
    {bytes : List UInt8} (henc : (st.sent q).encode = .ok bytes) :
    Kept st (s.frame (st.sent q) bytes).1 := by
  refine ⟨?_, ?_⟩
  · intro q' bytes' h
    rw [frame_frames, st.numbered q h1 h2] at h
    rcases SortedMap.mem_insert.mp (SortedMap.mem_of_mem_keepLast h) with heq | ⟨hold, -⟩
    · cases heq
      exact ⟨h1, h2, henc⟩
    · exact hk.frames q' bytes' hold
  · intro g held h
    rw [frame_parity] at h
    exact hk.parity g held h

def Surface.held (s : Surface) (g : Nat) : List (Nat × Shard) := (s.parity.get? g).getD []

theorem Kept.held (hk : Kept st s) (g : Nat) : HeldOf st g (s.held g) := by
  unfold Surface.held
  cases h : s.parity.get? g with
  | none => exact ⟨by simp, by simp⟩
  | some held => exact hk.parity g held (SortedMap.get?_eq_some_iff.mp h)

theorem keep_shard_parity (s : Surface) (p : Parity) :
    (s.keep_shard p).parity = (s.parity.insert p.group.toNat
      (push_shard (s.held p.group.toNat) p.index.toNat p.payload)).keepLast REMEMBERED_GROUPS := rfl

theorem kept_keep_shard (hk : Kept st s) (hp : p ∈ st.parity g)
    (hgroup : p.group.toNat = g) : Kept st (s.keep_shard p) := by
  refine ⟨hk.frames, ?_⟩
  intro g' held h
  rw [keep_shard_parity, hgroup] at h
  rcases SortedMap.mem_insert.mp (SortedMap.mem_of_mem_keepLast h) with heq | ⟨hold, -⟩
  · cases heq
    exact (hk.held _).push hp
  · exact hk.parity g' held hold

theorem keep_shard_shape (s : Surface) (p : Parity) {held : List (Nat × Shard)}
    (h : (s.keep_shard p).parity.get? p.group.toNat = some held) :
    (s.keep_shard p).shape.get? p.group.toNat = some p.data_shards.toNat := by
  have hstays := SortedMap.not_mem_dropped (SortedMap.get?_eq_some_iff.mp h)
  unfold Surface.keep_shard Surface.drop_groups
  rw [SortedMap.get?_foldl_erase _ hstays, SortedMap.get?_insert_self]

/-- What recording a shard does, from closing its group: nothing is missing, or the missing frames
are written back, or the shard is kept and nothing else. -/
inductive Recorded (st : VideoStream) (s : Surface) (g : Nat) (p : Parity) : Surface × Repaired → Prop
  | complete (h : st.missing s g = []) : Recorded st s g p
      (((s.keep_shard p).forget g).age_gaps ⟨p.surface, [], []⟩)
  | solved (h : st.missing s g ≠ [])
      (hsolve : Solvable ((push_shard (s.held g) p.index.toNat p.payload).map Prod.fst)
        (st.missing s g).length)
      {r : Surface × Repaired}
      (hr : Restored st (st.missing s g) (s.keep_shard p) ⟨p.surface, [], []⟩ r) :
      Recorded st s g p ((r.1.forget g).age_gaps r.2)
  | waiting (h : st.missing s g ≠ [])
      (hsolve : ¬Solvable ((push_shard (s.held g) p.index.toNat p.payload).map Prod.fst)
        (st.missing s g).length) :
      Recorded st s g p ((s.keep_shard p).age_gaps ⟨p.surface, [], []⟩)

theorem sent_encodes (hc : Coded st g k length packed) (hq : q ∈ st.sequences g) :
    ∃ bytes, (st.sent q).encode = .ok bytes := by
  rw [mem_sequences] at hq
  obtain ⟨bytes, henc, -⟩ := hc.frames (q - (g * st.n + 1)) (by omega)
  rw [Nat.add_sub_cancel' hq.1] at henc
  exact ⟨bytes, henc⟩

theorem recorded (hk : Kept st s) (hg : g < st.groups) (hp : p ∈ st.parity g)
    (hstays : (s.keep_shard p).parity.get? g =
      some (push_shard (s.held g) p.index.toNat p.payload)) :
    Recorded st s g p (s.record_parity p) := by
  obtain ⟨k, length, packed, hc⟩ := coded_of_parity (List.ne_nil_of_mem hp)
  have hshard := hc.shard hg hp
  have hkept := kept_keep_shard hk hp hshard.group
  have hshape : (s.keep_shard p).shape.get? g = some st.n := by
    rw [← hshard.data_shards]
    have hkept := hstays
    rw [← hshard.group] at hkept ⊢
    exact keep_shard_shape s p hkept
  have hmissing : st.missing (s.keep_shard p) g = st.missing s g := rfl
  unfold Surface.record_parity
  rw [hshard.group, close_eq hkept hg hshape hstays, hmissing]
  by_cases hnone : st.missing s g = []
  · rw [if_pos hnone]
    exact Recorded.complete hnone
  · rw [if_neg hnone]
    by_cases hsolve : Solvable ((push_shard (s.held g) p.index.toNat p.payload).map Prod.fst)
        (st.missing s g).length
    · rw [if_pos hsolve]
      refine Recorded.solved hnone hsolve (restored_write st _ ?_ _ _)
      exact fun q hq => sent_encodes hc (List.mem_of_mem_filter hq)
    · rw [if_neg hsolve]
      exact Recorded.waiting hnone hsolve

theorem recorded_dropped
    (hdropped : (s.keep_shard p).parity.get? p.group.toNat = none) :
    s.record_parity p = (s.keep_shard p).age_gaps ⟨p.surface, [], []⟩ := by
  have hclose : ∀ repaired, (s.keep_shard p).close p.group.toNat repaired =
      (s.keep_shard p, repaired) := by
    intro repaired
    unfold Surface.close
    rw [hdropped]
    cases (s.keep_shard p).shape.get? p.group.toNat <;> rfl
  unfold Surface.record_parity
  rw [hclose]

/-! ## A group as the surface has it -/

def VideoStream.whole (st : VideoStream) (g : Nat) : Finset Nat := (st.sequences g).toFinset

def VideoStream.view (st : VideoStream) (s : Surface) (g : Nat) : Group :=
  ⟨(st.whole g).filter fun q => s.frames.contains q, (s.held g).map Prod.fst⟩

theorem push_shard_indices (held : List (Nat × Shard)) (index : Nat) (payload : Shard) :
    (push_shard held index payload).map Prod.fst = pushIndex (held.map Prod.fst) index := by
  unfold push_shard pushIndex
  by_cases h : index ∈ held.map Prod.fst
  · rw [if_pos h, if_pos]
    obtain ⟨e, he, rfl⟩ := List.mem_map.mp h
    exact List.any_eq_true.mpr ⟨e, he, by simp⟩
  · rw [if_neg h, if_neg]
    · simp
    · intro hany
      obtain ⟨e, he, hindex⟩ := List.any_eq_true.mp hany
      exact h (List.mem_map.mpr ⟨e, he, by simpa using hindex⟩)

section
variable (st : VideoStream) (s : Surface) (g : Nat)

theorem missing_toFinset : (st.missing s g).toFinset = st.whole g \ (st.view s g).present := by
  ext q
  simp [VideoStream.missing, VideoStream.view, VideoStream.whole]
  cases s.frames.contains q <;> simp

theorem length_missing : (st.missing s g).length = (st.whole g \ (st.view s g).present).card := by
  rw [← missing_toFinset, List.toFinset_card_of_nodup]
  exact (List.nodup_range').filter _

theorem missing_eq_nil : st.missing s g = [] ↔ st.whole g ⊆ (st.view s g).present := by
  rw [← Finset.sdiff_eq_empty_iff_subset, ← missing_toFinset, List.toFinset_eq_empty_iff]

end

theorem view_frame (h1 : 1 ≤ q) (h2 : q ≤ st.groups * st.n) {bytes : List UInt8}
    (hstays : ∀ q' ∈ st.sequences g, (s.frame (st.sent q) bytes).1.frames.get? q' =
      (s.frames.insert q bytes).get? q') : st.view (s.frame (st.sent q) bytes).1 g =
      if q ∈ st.sequences g then (st.view s g).arrive (st.whole g) (.frame q) else st.view s g := by
  have hheld : (s.frame (st.sent q) bytes).1.held g = s.held g := by
    unfold Surface.held
    rw [frame_parity]
  have hpresent : ∀ q' ∈ st.sequences g, ((s.frame (st.sent q) bytes).1.frames.contains q' = true ↔
      q' = q ∨ s.frames.contains q' = true) := by
    intro q' hq'
    unfold SortedMap.contains
    rw [hstays q' hq']
    by_cases heq : q' = q
    · subst heq
      simp
    · rw [SortedMap.get?_insert_of_ne heq]
      simp [heq]
  unfold VideoStream.view
  rw [hheld]
  split
  case isTrue hq =>
    simp [Group.arrive]
    ext q'
    simp [VideoStream.whole]
    constructor
    · rintro ⟨hq', hc⟩
      exact ((hpresent q' hq').mp hc).imp id fun h => ⟨hq', h⟩
    · rintro (rfl | ⟨hq', hc⟩)
      · exact ⟨hq, (hpresent q' hq).mpr (.inl rfl)⟩
      · exact ⟨hq', (hpresent q' hq').mpr (.inr hc)⟩
  case isFalse hq =>
    simp
    apply Finset.filter_congr
    intro q' hq'
    rw [VideoStream.whole, List.mem_toFinset] at hq'
    rw [hpresent q' hq']
    exact or_iff_right fun heq => hq (heq ▸ hq')

theorem sequences_disjoint {g' : Nat} (hne : g' ≠ g) (hq : q ∈ st.sequences g)
    (hq' : q ∈ st.sequences g') : False := by
  rw [mem_sequences] at hq hq'
  rcases Nat.lt_or_gt_of_ne hne with hlt | hlt
  · have : (g' + 1) * st.n ≤ g * st.n := Nat.mul_le_mul_right _ hlt
    rw [Nat.add_mul, Nat.one_mul] at this
    omega
  · have : (g + 1) * st.n ≤ g' * st.n := Nat.mul_le_mul_right _ hlt
    rw [Nat.add_mul, Nat.one_mul] at this
    omega

theorem forget_held (s : Surface) (g : Nat) (repaired : Repaired) :
    ((s.forget g).age_gaps repaired).1.held g = [] := by
  simp [Surface.held, Surface.age_gaps, Surface.forget]

theorem Restored.contains {missing : List Nat} {repaired : Repaired}
    (h : Restored st missing s repaired r)
    (hencode : ∀ q ∈ missing, ∃ bytes, (st.sent q).encode = .ok bytes) (q : Nat) :
    r.1.frames.contains q = true ↔ q ∈ missing ∨ s.frames.contains q = true := by
  unfold SortedMap.contains
  simp only [Option.isSome_iff_exists, SortedMap.get?_eq_some_iff, h.frames]
  constructor
  · rintro ⟨bytes, ⟨hq, -⟩ | ⟨-, hmem⟩⟩
    · exact .inl hq
    · exact .inr ⟨bytes, hmem⟩
  · rintro (hq | ⟨bytes, hmem⟩)
    · obtain ⟨bytes, henc⟩ := hencode q hq
      exact ⟨bytes, .inl ⟨hq, henc⟩⟩
    · by_cases hq : q ∈ missing
      · obtain ⟨bytes, henc⟩ := hencode q hq
        exact ⟨bytes, .inl ⟨hq, henc⟩⟩
      · exact ⟨bytes, .inr ⟨hq, hmem⟩⟩

theorem Recorded.view_own (h : Recorded st s g p r) (hc : Coded st g k length packed)
    (hstays : (s.keep_shard p).parity.get? g =
      some (push_shard (s.held g) p.index.toNat p.payload)) :
    st.view r.1 g = (st.view s g).arrive (st.whole g) (.shard p.index.toNat) := by
  unfold Group.arrive
  have hpush : pushIndex (st.view s g).held p.index.toNat =
      (push_shard (s.held g) p.index.toNat p.payload).map Prod.fst :=
    (push_shard_indices _ _ _).symm
  simp only [hpush, ← missing_eq_nil, ← length_missing]
  cases h with
  | complete hnone =>
    rw [if_pos hnone]
    unfold VideoStream.view
    rw [forget_held]
    rfl
  | @solved hnone hsolve r hr =>
    rw [if_neg hnone, if_pos hsolve]
    have hcontains := hr.contains fun q hq => sent_encodes hc (List.mem_of_mem_filter hq)
    unfold VideoStream.view
    rw [forget_held]
    simp
    change (st.whole g).filter (fun q => r.1.frames.contains q) = _
    ext q
    simp [hcontains, ← List.mem_toFinset, missing_toFinset, VideoStream.view]
    change _ ∧ (_ ∨ s.frames.contains q = true) ↔ _
    by_cases hq : q ∈ st.whole g <;> by_cases hin : s.frames.contains q = true <;> simp [hq, hin]
  | waiting hnone hsolve =>
    rw [if_neg hnone, if_neg hsolve]
    unfold VideoStream.view
    simp
    refine ⟨rfl, ?_⟩
    change (((s.keep_shard p).parity.get? g).getD []).map Prod.fst = _
    rw [hstays]
    rfl

theorem Recorded.view_other (h : Recorded st s g p r)
    (hc : Coded st g k length packed) {g' : Nat} (hne : g' ≠ g)
    (hstays : (s.keep_shard p).parity.get? g' = s.parity.get? g') :
    st.view r.1 g' = st.view s g' := by
  have hforget : ∀ (s' : Surface) (repaired : Repaired), s'.parity = (s.keep_shard p).parity →
      ((s'.forget g).age_gaps repaired).1.held g' = s.held g' := by
    intro s' repaired hs'
    change ((s'.parity.erase g).get? g').getD [] = (s.parity.get? g').getD []
    rw [SortedMap.get?_erase_of_ne hne, hs', hstays]
  cases h with
  | complete hnone =>
    unfold VideoStream.view
    rw [hforget _ _ rfl]
    rfl
  | @solved hnone hsolve r hr =>
    have hcontains := hr.contains fun q hq => sent_encodes hc (List.mem_of_mem_filter hq)
    unfold VideoStream.view
    rw [hforget _ _ hr.parity]
    simp
    change (st.whole g').filter (fun q => r.1.frames.contains q) = _
    apply Finset.filter_congr
    intro q hq
    rw [hcontains]
    apply or_iff_right
    intro hmissing
    exact sequences_disjoint hne (List.mem_of_mem_filter hmissing) (List.mem_toFinset.mp hq)
  | waiting hnone hsolve =>
    unfold VideoStream.view
    simp
    refine ⟨rfl, ?_⟩
    change (((s.keep_shard p).parity.get? g').getD []).map Prod.fst = _
    rw [hstays]
    rfl

theorem Recorded.kept (h : Recorded st s g p r) (hk : Kept st (s.keep_shard p))
    (hg : g < st.groups) : Kept st r.1 := by
  have hforget : ∀ (s' : Surface) (repaired : Repaired), Kept st s' →
      Kept st ((s'.forget g).age_gaps repaired).1 := by
    intro s' repaired hs'
    exact ⟨hs'.frames, fun g' held hmem => hs'.parity g' held (SortedMap.mem_erase.mp hmem).1⟩
  cases h with
  | complete => exact hforget _ _ hk
  | @solved hnone hsolve r hr =>
    apply hforget
    refine ⟨?_, ?_⟩
    · intro q bytes hmem
      rcases (hr.frames q bytes).mp hmem with ⟨hq, henc⟩ | ⟨-, hold⟩
      · obtain ⟨h1, h2⟩ := le_of_mem_sequences hg (List.mem_of_mem_filter hq)
        exact ⟨h1, h2, henc⟩
      · exact hk.frames q bytes hold
    · intro g' held hmem
      rw [hr.parity] at hmem
      exact hk.parity g' held hmem
  | waiting => exact ⟨hk.frames, hk.parity⟩

theorem Recorded.emits (h : Recorded st s g p r) (hc : Coded st g k length packed)
    (hg : g < st.groups) : (∀ f ∈ r.2.frames, ∃ q ∈ st.sequences g, f = st.sent q) ∧
      ∀ q, r.1.frames.contains q = true ↔
        s.frames.contains q = true ∨ ∃ f ∈ r.2.frames, f.sequence.toNat = q := by
  cases h with
  | complete hnone =>
    refine ⟨fun f hf => absurd hf List.not_mem_nil, fun q => ?_⟩
    exact (or_iff_left fun h => absurd h.choose_spec.1 List.not_mem_nil).symm
  | @solved hnone hsolve r hr =>
    have hcontains := hr.contains fun q hq => sent_encodes hc (List.mem_of_mem_filter hq)
    have hout : ((r.1.forget g).age_gaps r.2).2.frames = (st.missing s g).map st.sent := by
      rw [hr.emitted]
      rfl
    rw [hout]
    refine ⟨?_, ?_⟩
    · intro f hf
      obtain ⟨q, hq, rfl⟩ := List.mem_map.mp hf
      exact ⟨q, List.mem_of_mem_filter hq, rfl⟩
    · intro q
      change r.1.frames.contains q = true ↔ _
      rw [hcontains]
      have hnumbered : ∀ q' ∈ st.missing s g, (st.sent q').sequence.toNat = q' := by
        intro q' hq'
        obtain ⟨h1, h2⟩ := le_of_mem_sequences hg (List.mem_of_mem_filter hq')
        exact st.numbered q' h1 h2
      constructor
      · rintro (hq | hold)
        · exact .inr ⟨_, List.mem_map_of_mem hq, hnumbered q hq⟩
        · exact .inl hold
      · rintro (hold | ⟨f, hf, rfl⟩)
        · exact .inr hold
        · obtain ⟨q', hq', rfl⟩ := List.mem_map.mp hf
          rw [hnumbered q' hq']
          exact .inl hq'
  | waiting hnone hsolve =>
    refine ⟨fun f hf => absurd hf List.not_mem_nil, fun q => ?_⟩
    exact (or_iff_left fun h => absurd h.choose_spec.1 List.not_mem_nil).symm

theorem Recorded.parity_mem (h : Recorded st s g p r) (hgroup : p.group.toNat = g)
    {e : Nat × List (Nat × Shard)} (he : e ∈ r.1.parity.entries) :
    e.1 = g ∨ e ∈ s.parity.entries := by
  have hkeep : ∀ e ∈ (s.keep_shard p).parity.entries, e.1 = g ∨ e ∈ s.parity.entries := by
    intro e he
    rw [keep_shard_parity, hgroup] at he
    rcases SortedMap.mem_insert.mp (SortedMap.mem_of_mem_keepLast he) with rfl | ⟨hold, -⟩
    · exact .inl rfl
    · exact .inr hold
  cases h with
  | complete => exact hkeep e (SortedMap.mem_erase.mp he).1
  | @solved hnone hsolve r hr =>
    have he' := (SortedMap.mem_erase.mp he).1
    rw [hr.parity] at he'
    exact hkeep e he'
  | waiting => exact hkeep e he

theorem recorded_of_kept (hk : Kept st s) (hg : g < st.groups) (hp : p ∈ st.parity g)
    {held : List (Nat × Shard)} (hget : (s.keep_shard p).parity.get? g = some held) :
    Recorded st s g p (s.record_parity p) := by
  have hgroup := (shard_of_parity hg hp).1
  apply recorded hk hg hp
  have hmem := SortedMap.get?_eq_some_iff.mp hget
  rw [keep_shard_parity, hgroup] at hmem
  rcases SortedMap.mem_insert.mp (SortedMap.mem_of_mem_keepLast hmem) with heq | ⟨-, hne⟩
  · rw [hget, (Prod.mk.inj heq).2]
  · exact absurd rfl hne

theorem recorded_or_dropped (hk : Kept st s) (hg : g < st.groups)
    (hp : p ∈ st.parity g) : Recorded st s g p (s.record_parity p) ∨
      s.record_parity p = (s.keep_shard p).age_gaps ⟨p.surface, [], []⟩ := by
  have hgroup := (shard_of_parity hg hp).1
  cases hget : (s.keep_shard p).parity.get? g with
  | none => exact .inr (recorded_dropped (by rw [hgroup]; exact hget))
  | some held => exact .inl (recorded_of_kept hk hg hp hget)

/-- How long a gap may stay open, for a group of this size. -/
def patienceOf (group : Nat) : Nat :=
  wrap64 ((if group = 0 then ASSUMED_GROUP else group) * GAP_PATIENCE_GROUPS)

/-- The gap `q` is given up once a frame numbered `top` is the highest seen. -/
def GivenUp (patience q top : Nat) : Prop := wrap64 (q + patience) < top

instance (patience q top : Nat) : Decidable (GivenUp patience q top) := by
  unfold GivenUp
  infer_instance

/-- What recording a shard does to the gaps: those of frames that come back close, and then the
rest ages. -/
theorem record_gaps (hk : Kept st s) (hg : g < st.groups) (hp : p ∈ st.parity g) :
    (s.record_parity p).1.highest = s.highest ∧ (s.record_parity p).1.group = st.n ∧
      ∃ gaps : List Nat, (∀ x ∈ gaps, x ∈ s.gaps) ∧
        (∀ x ∈ s.gaps, x ∈ gaps ∨ x ∈ st.missing s g ∧ Solvable
          ((push_shard (s.held g) p.index.toNat p.payload).map Prod.fst) (st.missing s g).length) ∧
        (s.record_parity p).1.gaps =
          gaps.filter (fun x => !decide (GivenUp (patienceOf st.n) x s.highest)) ∧
        (s.record_parity p).2.lost =
          gaps.filter fun x => decide (GivenUp (patienceOf st.n) x s.highest) := by
  have hgroup : (s.keep_shard p).group = st.n := (shard_of_parity hg hp).2
  have hage : ∀ (s' : Surface) (repaired : Repaired), s'.group = st.n → s'.highest = s.highest →
      (s'.age_gaps repaired).1.gaps =
        s'.gaps.filter (fun x => !decide (GivenUp (patienceOf st.n) x s.highest)) ∧
      (s'.age_gaps repaired).2.lost = repaired.lost ++
        s'.gaps.filter fun x => decide (GivenUp (patienceOf st.n) x s.highest) := by
    intro s' repaired h1 h2
    unfold Surface.age_gaps Surface.aged Surface.patience GivenUp patienceOf
    rw [h1, h2]
    exact ⟨rfl, rfl⟩
  have hkeep : ∀ x ∈ s.gaps, x ∈ s.gaps ∨ x ∈ st.missing s g ∧ Solvable
      ((push_shard (s.held g) p.index.toNat p.payload).map Prod.fst) (st.missing s g).length :=
    fun x hx => .inl hx
  rcases recorded_or_dropped hk hg hp with hrec | hdropped
  · generalize s.record_parity p = out at hrec
    cases hrec with
    | complete hnone =>
      obtain ⟨h1, h2⟩ := hage ((s.keep_shard p).forget g) ⟨p.surface, [], []⟩ hgroup rfl
      exact ⟨rfl, hgroup, s.gaps, fun x hx => hx, hkeep, h1, h2⟩
    | @solved hnone hsolve r hr =>
      obtain ⟨h1, h2⟩ := hage (r.1.forget g) r.2 (hr.group.trans hgroup) hr.highest
      refine ⟨hr.highest, hr.group.trans hgroup, s.gaps.filter (fun gap => decide (gap ∉ st.missing s g)),
        fun x hx => List.mem_of_mem_filter hx, ?_, ?_, ?_⟩
      · intro x hx
        by_cases hmissing : x ∈ st.missing s g
        · exact .inr ⟨hmissing, hsolve⟩
        · exact .inl (List.mem_filter.mpr ⟨hx, decide_eq_true hmissing⟩)
      · rw [h1]
        change r.1.gaps.filter _ = _
        rw [hr.gaps]
        rfl
      · rw [h2, hr.emitted]
        change [] ++ r.1.gaps.filter _ = _
        rw [hr.gaps]
        rfl
    | waiting hnone hsolve =>
      obtain ⟨h1, h2⟩ := hage (s.keep_shard p) ⟨p.surface, [], []⟩ hgroup rfl
      exact ⟨rfl, hgroup, s.gaps, fun x hx => hx, hkeep, h1, h2⟩
  · obtain ⟨h1, h2⟩ := hage (s.keep_shard p) ⟨p.surface, [], []⟩ hgroup rfl
    rw [hdropped]
    exact ⟨rfl, hgroup, s.gaps, fun x hx => hx, hkeep, h1, h2⟩

/-- The frames that come back are no gaps any more, and are not reported. -/
theorem Recorded.solved_gaps (h : Recorded st s g p r)
    (hsolve : Solvable ((push_shard (s.held g) p.index.toNat p.payload).map Prod.fst)
      (st.missing s g).length) (hq : q ∈ st.missing s g) : q ∉ r.1.gaps ∧ q ∉ r.2.lost := by
  cases h with
  | complete hnone =>
    rw [hnone] at hq
    cases hq
  | @solved hnone hsolve r hr =>
    have hgone : q ∉ (r.1.forget g).gaps := by
      change q ∉ r.1.gaps
      rw [hr.gaps]
      intro hin
      exact of_decide_eq_true (List.mem_filter.mp hin).2 hq
    refine ⟨fun hin => hgone (List.mem_of_mem_filter hin), ?_⟩
    intro hin
    rcases List.mem_append.mp hin with hin | hin
    · rw [hr.emitted] at hin
      cases hin
    · exact hgone (List.mem_of_mem_filter hin)
  | waiting hnone hnot => exact absurd hsolve hnot

end multiplex_screen_session
