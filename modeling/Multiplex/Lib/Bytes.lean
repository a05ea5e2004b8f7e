-- Binary formats. Big-endian integers, and readers that take bytes off the
-- front of a list. A reader is canonical for a writer when it accepts exactly
-- what the writer wrote.
import Mathlib.Tactic

namespace Bytes

/-! ## Big-endian integers -/

/-- The last `w` base-256 digits of `n`, the highest first. -/
def beBytes : Nat → Nat → List UInt8
  | 0, _ => []
  | w + 1, n => UInt8.ofNat (n / 256 ^ w) :: beBytes w n

def beNat : List UInt8 → Nat
  | [] => 0
  | b :: rest => b.toNat * 256 ^ rest.length + beNat rest

variable (w : Nat) (l : List UInt8) (n : Nat)

@[simp] theorem length_beBytes : (beBytes w n).length = w := by
  induction w with
  | zero => rfl
  | succ w ih => simp [beBytes, ih]

theorem beNat_lt : beNat l < 256 ^ l.length := by
  induction l with
  | nil => simp [beNat]
  | cons b l ih =>
    have hb : b.toNat < 256 := b.toNat_lt
    calc beNat (b :: l) = b.toNat * 256 ^ l.length + beNat l := rfl
      _ < b.toNat * 256 ^ l.length + 256 ^ l.length := by omega
      _ = (b.toNat + 1) * 256 ^ l.length := by ring
      _ ≤ 256 * 256 ^ l.length := Nat.mul_le_mul_right _ (by omega)
      _ = 256 ^ (b :: l).length := by rw [List.length_cons, pow_succ]; ring

theorem beNat_beBytes_mod : beNat (beBytes w n) = n % 256 ^ w := by
  induction w with
  | zero => simp [beBytes, beNat, Nat.mod_one]
  | succ w ih =>
    have hdigit : (UInt8.ofNat (n / 256 ^ w)).toNat = n / 256 ^ w % 256 := by simp
    rw [beBytes, beNat, length_beBytes, ih, hdigit, pow_succ, Nat.mod_mul]
    ring

theorem beNat_beBytes {w n : Nat} (h : n < 256 ^ w) : beNat (beBytes w n) = n := by
  rw [beNat_beBytes_mod, Nat.mod_eq_of_lt h]

/-- The digits below `256 ^ w` do not see a multiple of it. -/
theorem beBytes_add_mul (k m : Nat) (h : w ≤ m) : beBytes w (k * 256 ^ m + n) = beBytes w n := by
  induction w with
  | zero => rfl
  | succ w ih =>
    have hpow : k * 256 ^ m = 256 ^ w * (256 * (k * 256 ^ (m - (w + 1)))) := by
      rw [show m = w + 1 + (m - (w + 1)) by omega, pow_add, pow_succ]
      rw [show w + 1 + (m - (w + 1)) - (w + 1) = m - (w + 1) by omega]
      ring
    have hhead : UInt8.ofNat ((k * 256 ^ m + n) / 256 ^ w) = UInt8.ofNat (n / 256 ^ w) := by
      rw [hpow, Nat.add_comm, Nat.add_mul_div_left _ _ (by positivity)]
      simp
    rw [beBytes, beBytes, hhead, ih (by omega)]

theorem beBytes_beNat : beBytes l.length (beNat l) = l := by
  induction l with
  | nil => rfl
  | cons b l ih =>
    have hhead : (b.toNat * 256 ^ l.length + beNat l) / 256 ^ l.length = b.toNat := by
      rw [Nat.mul_comm, Nat.mul_add_div (by positivity), Nat.div_eq_of_lt (beNat_lt l),
        Nat.add_zero]
    rw [List.length_cons, beBytes, beNat, hhead, beBytes_add_mul _ _ _ _ le_rfl, ih]
    simp

/-! ## Readers -/

/-- A reader of some value: it takes bytes off the front, or fails. -/
abbrev Reader (ε α : Type) := StateT (List UInt8) (Except ε) α

section

variable {ε α β : Type}

def takeBytes (short : ε) (count : Nat) : Reader ε (List UInt8) := fun bytes =>
  if bytes.length < count then .error short else .ok (bytes.take count, bytes.drop count)

/-- The next byte. -/
def oneByte (short : ε) : Reader ε UInt8 := fun bytes =>
  match bytes with
  | [] => .error short
  | b :: rest => .ok (b, rest)

/-- A big-endian integer of `w` bytes. -/
def beInt (short : ε) (w : Nat) : Reader ε Nat := do
  let bytes ← takeBytes short w
  return beNat bytes

/-- `check` must not fail; nothing is read. -/
def guardThat (failure : ε) (check : Bool) : Reader ε Unit :=
  if check then pure () else throw failure

/-- The same reader `count` times over. -/
def readMany (reader : Reader ε α) : Nat → Reader ε (List α)
  | 0 => pure []
  | count + 1 => do
    let a ← reader
    let rest ← readMany reader count
    return a :: rest

/-- The reader accepts `bytes` in front of anything and gives `a` for them. -/
def Accepts (reader : Reader ε α) (bytes : List UInt8) (a : α) : Prop :=
  ∀ rest, reader.run (bytes ++ rest) = .ok (a, rest)

/-- The reader accepts exactly what `write` writes for the values that satisfy `ok`. -/
structure Canonical (reader : Reader ε α) (write : α → List UInt8) (ok : α → Prop) : Prop where
  accepts : ∀ a, ok a → Accepts reader (write a) a
  only : ∀ bytes a rest, reader.run bytes = .ok (a, rest) → ok a ∧ bytes = write a ++ rest

variable {reader : Reader ε α} {write : α → List UInt8} {ok : α → Prop} {next : α → Reader ε β}
  {bytes : List UInt8} {failure : ε}

variable {rest : List UInt8} {a : α} {b : β}

theorem run_bind_ok (h : (reader >>= next).run bytes = .ok (b, rest)) :
    ∃ a middle, reader.run bytes = .ok (a, middle) ∧ (next a).run middle = .ok (b, rest) := by
  rw [StateT.run_bind] at h
  cases hr : reader.run bytes with
  | error e => rw [hr] at h; cases h
  | ok r => rw [hr] at h; exact ⟨r.1, r.2, rfl, h⟩

theorem Accepts.pure (a : α) : Accepts (ε := ε) (Pure.pure a) [] a := fun _ => rfl

theorem Accepts.run_bind {first : List UInt8} (h : Accepts reader first a) (rest : List UInt8) :
    (reader >>= next).run (first ++ rest) = (next a).run rest := by
  rw [StateT.run_bind, h]
  rfl

theorem run_guard_bind (failure : ε) (check : Bool) (next : Unit → Reader ε β)
    (bytes : List UInt8) : (guardThat failure check >>= next).run bytes =
      if check then (next ()).run bytes else .error failure := by
  cases check <;> rfl

theorem Accepts.bind {first second : List UInt8} (h1 : Accepts reader first a)
    (h2 : Accepts (next a) second b) : Accepts (reader >>= next) (first ++ second) b := by
  intro rest
  rw [List.append_assoc, h1.run_bind]
  exact h2 rest

theorem Accepts.map (h : Accepts reader bytes a) (f : α → β) :
    Accepts (reader >>= fun x => Pure.pure (f x)) bytes (f a) := by
  intro rest
  rw [StateT.run_bind, h]
  rfl

theorem Accepts.guard {check : Bool} {next : Unit → Reader ε β} (hc : check = true)
    (h : Accepts (next ()) bytes b) : Accepts (guardThat failure check >>= next) bytes b := by
  intro rest
  subst hc
  exact h rest

/-- A check on the bytes left that holds for the bytes to be read, whatever follows them. -/
theorem Accepts.guardLeft {check : List UInt8 → Bool} {next : Unit → Reader ε β}
    (hc : ∀ rest, check (bytes ++ rest) = true) (h : Accepts (next ()) bytes b) :
    Accepts (get >>= fun left => guardThat failure (check left) >>= next) bytes b := by
  intro rest
  exact Accepts.guard (hc rest) h rest

theorem guardThat_ok {check : Bool} {u : Unit}
    (h : (guardThat failure check).run bytes = .ok (u, rest)) : check = true ∧ rest = bytes := by
  unfold guardThat at h
  split at h
  · rename_i hc
    cases h
    exact ⟨hc, rfl⟩
  · cases h

theorem pure_ok {b : α} (h : (Pure.pure a : Reader ε α).run bytes = .ok (b, rest)) :
    b = a ∧ rest = bytes := by
  cases h
  exact ⟨rfl, rfl⟩

variable (short : ε)

theorem canonical_takeBytes (count : Nat) :
    Canonical (takeBytes short count) id (fun l => l.length = count) where
  accepts l hl rest := by
    simp only [takeBytes, StateT.run, id_eq, List.length_append, hl]
    rw [if_neg (by omega), ← hl, List.take_left, List.drop_left]
  only bytes l rest h := by
    simp only [takeBytes, StateT.run] at h
    split at h
    · cases h
    · cases h
      exact ⟨by simp; omega, (List.take_append_drop count bytes).symm⟩

theorem canonical_oneByte : Canonical (oneByte short) (fun b => [b]) (fun _ => True) where
  accepts _ _ _ := rfl
  only bytes b rest h := by
    cases bytes with
    | nil => cases h
    | cons a bytes =>
      cases h
      exact ⟨trivial, rfl⟩

theorem canonical_beInt (w : Nat) :
    Canonical (beInt short w) (beBytes w) (fun n => n < 256 ^ w) where
  accepts n hn := by
    have h : Accepts (beInt short w) (beBytes w n) (beNat (beBytes w n)) :=
      ((canonical_takeBytes short w).accepts (beBytes w n) (by simp)).map beNat
    rwa [beNat_beBytes hn] at h
  only bytes n rest h := by
    obtain ⟨l, middle, h1, h2⟩ := run_bind_ok h
    obtain ⟨hl, rfl⟩ := (canonical_takeBytes short w).only _ _ _ h1
    obtain ⟨rfl, rfl⟩ := pure_ok h2
    refine ⟨hl ▸ beNat_lt l, ?_⟩
    rw [← hl, beBytes_beNat]
    rfl

theorem beInt_only {short : ε} {w n : Nat} (h : (beInt short w).run bytes = .ok (n, rest)) :
    n < 256 ^ w ∧ bytes = beBytes w n ++ rest :=
  (canonical_beInt short w).only bytes n rest h

/-- A canonical reader of one value gives one for as many values as wanted. -/
theorem canonical_readMany (h : Canonical reader write ok) (count : Nat) :
    Canonical (readMany reader count) (fun l => l.flatMap write)
      (fun l => l.length = count ∧ ∀ a ∈ l, ok a) := by
  induction count with
  | zero =>
    refine ⟨?_, ?_⟩
    · rintro l ⟨hl, -⟩
      rw [List.length_eq_zero_iff] at hl
      subst hl
      exact Accepts.pure []
    · intro bytes l rest hr
      obtain ⟨rfl, rfl⟩ := pure_ok hr
      exact ⟨⟨rfl, by simp⟩, rfl⟩
  | succ count ih =>
    refine ⟨?_, ?_⟩
    · rintro l ⟨hl, hok⟩
      cases l with
      | nil => simp at hl
      | cons a l =>
        have htail := ih.accepts l ⟨by simpa using hl, fun b hb => hok b (by simp [hb])⟩
        exact (h.accepts a (hok a (by simp))).bind (htail.map (a :: ·))
    · intro bytes l rest hr
      obtain ⟨a, m1, h1, hr⟩ := run_bind_ok hr
      obtain ⟨l', m2, h2, hr⟩ := run_bind_ok hr
      obtain ⟨rfl, rfl⟩ := pure_ok hr
      obtain ⟨ha, rfl⟩ := h.only _ _ _ h1
      obtain ⟨⟨hlen, hl⟩, rfl⟩ := ih.only _ _ _ h2
      refine ⟨⟨by simp [hlen], ?_⟩, by simp⟩
      intro b hb
      rcases List.mem_cons.mp hb with rfl | hb
      · exact ha
      · exact hl b hb

theorem Canonical.run_iff (h : Canonical reader write ok) (bytes : List UInt8) (a : α)
    (rest : List UInt8) : reader.run bytes = .ok (a, rest) ↔ ok a ∧ bytes = write a ++ rest := by
  refine ⟨h.only bytes a rest, ?_⟩
  rintro ⟨hok, rfl⟩
  exact h.accepts a hok rest

/-! ## What a reader gives, as an equivalence -/

theorem run_bind_iff (reader : Reader ε α) (next : α → Reader ε β) (bytes : List UInt8) (b : β)
    (rest : List UInt8) : (reader >>= next).run bytes = .ok (b, rest) ↔
      ∃ a middle, reader.run bytes = .ok (a, middle) ∧ (next a).run middle = .ok (b, rest) := by
  refine ⟨run_bind_ok, ?_⟩
  rintro ⟨a, middle, h1, h2⟩
  rw [StateT.run_bind, h1]
  exact h2

theorem run_pure_iff (a b : α) (bytes rest : List UInt8) :
    (pure a : Reader ε α).run bytes = .ok (b, rest) ↔ b = a ∧ bytes = rest := by
  refine ⟨fun h => ⟨(pure_ok h).1, (pure_ok h).2.symm⟩, ?_⟩
  rintro ⟨rfl, rfl⟩
  rfl

theorem run_guard_iff (failure : ε) (check : Bool) (bytes rest : List UInt8) (u : Unit) :
    (guardThat failure check).run bytes = .ok (u, rest) ↔ check = true ∧ bytes = rest := by
  refine ⟨fun h => ⟨(guardThat_ok h).1, (guardThat_ok h).2.symm⟩, ?_⟩
  rintro ⟨rfl, rfl⟩
  rfl

section
variable (h : Canonical reader write ok)
include h

theorem run_one (f : α → β) (bytes : List UInt8) (b : β) (rest : List UInt8) :
    (reader >>= fun a => pure (f a)).run bytes = .ok (b, rest) ↔
      ∃ a, ok a ∧ b = f a ∧ bytes = write a ++ rest := by
  simp only [run_bind_iff, h.run_iff, run_pure_iff]
  constructor
  · rintro ⟨a, _, ⟨ha, rfl⟩, rfl, rfl⟩
    exact ⟨a, ha, rfl, rfl⟩
  · rintro ⟨a, ha, rfl, rfl⟩
    exact ⟨a, _, ⟨ha, rfl⟩, rfl, rfl⟩

theorem run_two {γ : Type} {write' : β → List UInt8} {ok' : α → β → Prop}
    (h' : ∀ a, Canonical (next a) write' (ok' a)) (f : α → β → γ) (bytes : List UInt8) (c : γ)
    (rest : List UInt8) :
    (reader >>= fun a => next a >>= fun b => pure (f a b)).run bytes = .ok (c, rest) ↔
      ∃ a b, (ok a ∧ ok' a b) ∧ c = f a b ∧ bytes = write a ++ (write' b ++ rest) := by
  simp only [run_bind_iff, h.run_iff, fun a => (h' a).run_iff, run_pure_iff]
  constructor
  · rintro ⟨a, _, ⟨ha, rfl⟩, b, _, ⟨hb, rfl⟩, rfl, rfl⟩
    exact ⟨a, b, ⟨ha, hb⟩, rfl, rfl⟩
  · rintro ⟨a, b, ⟨ha, hb⟩, rfl, rfl⟩
    exact ⟨a, _, ⟨ha, rfl⟩, b, _, ⟨hb, rfl⟩, rfl, rfl⟩

theorem run_field (next : α → Reader ε β) (bytes : List UInt8) (b : β) (rest : List UInt8) :
    (reader >>= next).run bytes = .ok (b, rest) ↔
      ∃ a middle, ok a ∧ bytes = write a ++ middle ∧ (next a).run middle = .ok (b, rest) := by
  simp only [run_bind_iff, h.run_iff]
  constructor
  · rintro ⟨a, middle, ⟨ha, rfl⟩, hn⟩
    exact ⟨a, middle, ha, rfl, hn⟩
  · rintro ⟨a, middle, ha, rfl, hn⟩
    exact ⟨a, middle, ⟨ha, rfl⟩, hn⟩

theorem Canonical.map {ok' : β → Prop} (f : α → β) (g : β → α)
    (hto : ∀ a, ok a → g (f a) = a ∧ ok' (f a)) (hfrom : ∀ b, ok' b → f (g b) = b ∧ ok (g b)) :
    Canonical (reader >>= fun a => Pure.pure (f a)) (fun b => write (g b)) ok' where
  accepts b hb := by
    have hread := (h.accepts (g b) (hfrom b hb).2).map f
    rwa [(hfrom b hb).1] at hread
  only bytes b rest hr := by
    obtain ⟨a, middle, h1, h2⟩ := run_bind_ok hr
    obtain ⟨rfl, rfl⟩ := pure_ok h2
    obtain ⟨ha, rfl⟩ := h.only _ _ _ h1
    exact ⟨(hto a ha).2, by rw [(hto a ha).1]⟩

theorem Canonical.check (failure : ε) (check : α → Bool) :
    Canonical (reader >>= fun a => guardThat failure (check a) >>= fun _ => Pure.pure a) write
      (fun a => ok a ∧ check a = true) where
  accepts a ha := by
    intro rest
    have hguard : Accepts (guardThat failure (check a) >>= fun _ => (Pure.pure a : Reader ε α)) []
        a := Accepts.guard ha.2 (Accepts.pure a)
    rw [(h.accepts a ha.1).run_bind]
    exact hguard rest
  only bytes a rest hr := by
    obtain ⟨b, middle, h1, h2⟩ := run_bind_ok hr
    obtain ⟨u, middle', h3, h4⟩ := run_bind_ok h2
    obtain ⟨hc, rfl⟩ := guardThat_ok h3
    obtain ⟨rfl, rfl⟩ := pure_ok h4
    obtain ⟨hb, rfl⟩ := h.only _ _ _ h1
    exact ⟨⟨hb, hc⟩, rfl⟩

end

/-! ## Refusals -/

/-- The reader fails on `bytes`, whatever follows them. -/
def Refuses (reader : Reader ε α) (bytes : List UInt8) : Prop :=
  ∀ rest, ∃ e, reader.run (bytes ++ rest) = .error e

theorem Refuses.first {first second : List UInt8} (h : Refuses reader first) :
    Refuses (reader >>= next) (first ++ second) := by
  intro rest
  obtain ⟨e, he⟩ := h (second ++ rest)
  exact ⟨e, by rw [StateT.run_bind, List.append_assoc, he]; rfl⟩

theorem Accepts.refuses {first second : List UInt8} (h1 : Accepts reader first a)
    (h2 : Refuses (next a) second) : Refuses (reader >>= next) (first ++ second) := by
  intro rest
  rw [List.append_assoc, h1.run_bind]
  exact h2 rest

theorem Refuses.guard {check : Bool} {next : Unit → Reader ε β} (hc : check = false) :
    Refuses (guardThat failure check >>= next) bytes := by
  subst hc
  exact fun _ => ⟨failure, rfl⟩

theorem Refuses.afterGuard {check : Bool} {next : Unit → Reader ε β} (hc : check = true)
    (h : Refuses (next ()) bytes) : Refuses (guardThat failure check >>= next) bytes := by
  subst hc
  exact h

theorem Canonical.refuses_check (h : Canonical reader write ok) {check : α → Bool} (ha : ok a)
    (hc : check a = false) :
    Refuses (reader >>= fun a => guardThat failure (check a) >>= fun _ => Pure.pure a)
      (write a) := by
  intro rest
  have hguard : Refuses (guardThat failure (check a) >>= fun _ => (Pure.pure a : Reader ε α)) [] :=
    Refuses.guard hc
  rw [(h.accepts a ha).run_bind]
  exact hguard rest

/-- One value that is refused makes the whole list refused, when those before it are accepted. -/
theorem Refuses.readMany (l : List α) (haccept : ∀ a ∈ l, ok a → Accepts reader (write a) a)
    (hrefuse : ∀ a ∈ l, ¬ ok a → Refuses reader (write a)) (h : ∃ a ∈ l, ¬ ok a) :
    Refuses (readMany reader l.length) (l.flatMap write) := by
  induction l with
  | nil => simp at h
  | cons a l ih =>
    by_cases ha : ok a
    · have hrest : ∃ b ∈ l, ¬ ok b := by
        obtain ⟨b, hb, hbad⟩ := h
        rcases List.mem_cons.mp hb with rfl | hb
        · exact absurd ha hbad
        · exact ⟨b, hb, hbad⟩
      have htail := ih (fun b hb => haccept b (by simp [hb])) (fun b hb => hrefuse b (by simp [hb]))
        hrest
      have hlist : Refuses (Bytes.readMany reader l.length >>= fun rest => Pure.pure (a :: rest))
          (l.flatMap write ++ []) := htail.first
      rw [List.append_nil] at hlist
      exact (haccept a (by simp) ha).refuses hlist
    · exact (hrefuse a (by simp) ha).first

end

end Bytes
