-- The host's shadow beside the viewer's cache. While the shadow is the newest end
-- of what the viewer holds, whatever the host uses and sends keeps it so, and the
-- viewer resolves every reference that the shadow promised.
import Multiplex.ScreenCodec.CacheMaps

namespace multiplex_screen_codec

/-! ## Caches that calls lead to -/

/-- What calls make of a viewer's new cache. -/
inductive ViewerReached (budget : Nat) : ViewerTiles → Prop
  | new : ViewerReached budget (.new budget)
  | get {v : ViewerTiles} (hash : TileHash) :
      ViewerReached budget v → ViewerReached budget (v.get hash).2
  | insert {v v' : ViewerTiles} (hash : TileHash) (tile : TilePixels) :
      ViewerReached budget v → v.insert hash tile = some v' → ViewerReached budget v'
  | clear {v : ViewerTiles} : ViewerReached budget v → ViewerReached budget v.clear

/-- What calls make of a host's new shadow. -/
inductive ShadowReached (budget : Nat) : TileShadow → Prop
  | new : ShadowReached budget (.new budget)
  | use {s : TileShadow} (hash : TileHash) :
      ShadowReached budget s → ShadowReached budget (s.use_if_held hash).2
  | send {s s' : TileShadow} (hash : TileHash) (bytes : Nat) :
      ShadowReached budget s → s.record_sent hash bytes = some s' → ShadowReached budget s'
  | forget {s : TileShadow} (hash : TileHash) :
      ShadowReached budget s → ShadowReached budget (s.forget hash)
  | clear {s : TileShadow} : ShadowReached budget s → ShadowReached budget s.clear

variable {budget : Nat}

theorem ViewerReached.holds {v : ViewerTiles} (h : ViewerReached budget v) :
    Holds v ∧ v.index.budget = budget := by
  induction h with
  | new => exact ⟨⟨agree_new budget, fun hash hk => by simp [ViewerTiles.new, CacheMaps.new] at hk⟩,
      rfl⟩
  | get hash _ ih =>
    obtain ⟨hheld, hindex, -⟩ := ih.1.get hash
    exact ⟨hheld, by rw [hindex, (ih.1.agree.touch hash).2.2.2.1, ih.2]⟩
  | insert hash tile _ hinsert ih =>
    obtain ⟨v', hsome, hheld, hbudget, -⟩ := ih.1.insert hash tile
    rw [hinsert] at hsome
    cases hsome
    exact ⟨hheld, hbudget.trans ih.2⟩
  | clear _ ih =>
    exact ⟨⟨agree_clear _, fun hash hk => by simp [ViewerTiles.clear, CacheMaps.clear] at hk⟩, ih.2⟩

theorem record_sent_spec {s : TileShadow} (h : Agree s.index) (hash : TileHash) (bytes : Nat) :
    ∃ s', s.record_sent hash bytes = some s' ∧ Agree s'.index ∧ s'.index.budget = s.index.budget ∧
      s'.index.recency = Recency.store s.index.budget hash bytes s.index.recency := by
  obtain ⟨evicted, index, hinsert, hagree, hrecency, hbudget, -⟩ := h.insert hash bytes
  exact ⟨⟨index⟩, by simp [TileShadow.record_sent, hinsert], hagree, hbudget, hrecency⟩

theorem ShadowReached.agree {s : TileShadow} (h : ShadowReached budget s) :
    Agree s.index ∧ s.index.budget = budget := by
  induction h with
  | new => exact ⟨agree_new budget, rfl⟩
  | use hash _ ih =>
    obtain ⟨-, hagree, -, hbudget, -⟩ := ih.1.touch hash
    exact ⟨hagree, hbudget.trans ih.2⟩
  | send hash bytes _ hsend ih =>
    obtain ⟨s', hsome, hagree, hbudget, -⟩ := record_sent_spec ih.1 hash bytes
    rw [hsend] at hsome
    cases hsome
    exact ⟨hagree, hbudget.trans ih.2⟩
  | forget hash _ ih => exact ⟨ih.1.remove hash, (remove_budget hash).trans ih.2⟩
  | clear _ ih => exact ⟨agree_clear _, ih.2⟩

/-! ## Host and viewer, step by step -/

/-- What the host does next: it asks for a tile by its hash, or sends its pixels. -/
inductive TileStep
  | Reference (hash : TileHash)
  | Pixels (hash : TileHash) (tile : TilePixels)

structure Beside where
  shadow : TileShadow
  viewer : ViewerTiles

/-- One step on both sides. The viewer is asked for the tile only when the shadow says it is held,
and what it answers then is kept. -/
def Beside.step (b : Beside) : TileStep → Option (Beside × Option (Option TilePixels))
  | .Reference hash =>
    match b.shadow.use_if_held hash with
    | (false, shadow) => some (⟨shadow, b.viewer⟩, none)
    | (true, shadow) =>
      let (tile, viewer) := b.viewer.get hash
      some (⟨shadow, viewer⟩, some tile)
  | .Pixels hash tile => do
    let shadow ← b.shadow.record_sent hash tile.bgra.length
    let viewer ← b.viewer.insert hash tile
    return (⟨shadow, viewer⟩, none)

/-- The state after all the steps, and the answers to the references promised. -/
def Beside.run (b : Beside) : List TileStep → Option (Beside × List (Option TilePixels))
  | [] => some (b, [])
  | step :: steps => do
    let (b, answer) ← b.step step
    let (b, answers) ← b.run steps
    return (b, answer.toList ++ answers)

/-- Both sides count to one budget, and the shadow is the newest end of what the viewer holds. -/
structure Promises (budget : Nat) (b : Beside) : Prop where
  shadow : Agree b.shadow.index
  viewer : Holds b.viewer
  shadow_budget : b.shadow.index.budget = budget
  viewer_budget : b.viewer.index.budget = budget
  ends : b.shadow.index.recency <:+ b.viewer.index.recency

theorem Promises.step {b : Beside} (h : Promises budget b) (step : TileStep) :
    ∃ b' answer, b.step step = some (b', answer) ∧ Promises budget b' ∧
      ∀ tile ∈ answer, tile.isSome := by
  cases step with
  | Reference hash =>
    obtain ⟨hheld, hagree, hrecency, hbudget, -⟩ := h.shadow.touch hash
    simp only [Beside.step, TileShadow.use_if_held]
    rcases htouch : b.shadow.index.touch hash with ⟨held, index⟩
    rw [htouch] at hheld hagree hrecency hbudget
    cases held with
    | false =>
      refine ⟨_, none, rfl, ⟨hagree, h.viewer, hbudget.trans h.shadow_budget, h.viewer_budget, ?_⟩,
        by simp⟩
      have hnone : Recency.find hash b.shadow.index.recency = none := by simpa using hheld.symm
      rw [hrecency, Recency.touch, hnone]
      exact h.ends
    | true =>
      obtain ⟨hholds, hindex, htile⟩ := h.viewer.get hash
      obtain ⟨-, -, hviewer, hviewer_budget, -⟩ := h.viewer.agree.touch hash
      obtain ⟨e, hfind⟩ := Option.isSome_iff_exists.mp hheld.symm
      have hbig := Recency.find_suffix h.ends h.viewer.agree.distinct hfind
      refine ⟨_, _, rfl, ⟨hagree, hholds, hbudget.trans h.shadow_budget, ?_, ?_⟩, ?_⟩
      · rw [hindex, hviewer_budget, h.viewer_budget]
      · rw [hindex, hviewer, hrecency]
        exact Recency.suffix_touch h.ends h.viewer.agree.distinct (by simp [hfind])
      · simp [htile, hbig]
  | Pixels hash tile =>
    obtain ⟨shadow, hsend, hagree, hbudget, hrecency⟩ :=
      record_sent_spec h.shadow hash tile.bgra.length
    obtain ⟨viewer, hinsert, hholds, hviewer_budget, hviewer⟩ := h.viewer.insert hash tile
    refine ⟨⟨shadow, viewer⟩, none, by simp [Beside.step, hsend, hinsert],
      ⟨hagree, hholds, hbudget.trans h.shadow_budget, hviewer_budget.trans h.viewer_budget, ?_⟩,
      by simp⟩
    rw [hrecency, hviewer, h.shadow_budget, h.viewer_budget]
    exact Recency.suffix_store h.ends budget hash tile.bgra.length

theorem Promises.run {b : Beside} (h : Promises budget b) (steps : List TileStep) :
    ∃ b' answers, b.run steps = some (b', answers) ∧ Promises budget b' ∧
      ∀ tile ∈ answers, tile.isSome := by
  induction steps generalizing b with
  | nil => exact ⟨b, [], rfl, h, by simp⟩
  | cons step steps ih =>
    obtain ⟨b', answer, hstep, hnext, hanswer⟩ := h.step step
    obtain ⟨b'', answers, hrun, hlast, hanswers⟩ := ih hnext
    refine ⟨b'', answer.toList ++ answers, by simp [Beside.run, hstep, hrun], hlast, ?_⟩
    intro tile htile
    rcases List.mem_append.mp htile with hfirst | hrest
    · exact hanswer tile (by simpa using hfirst)
    · exact hanswers tile hrest

/-- For a viewer's cache and a shadow that calls have led to, of one budget, where the shadow is the
newest end of the viewer's order: whatever the host uses and sends, no `expect` fails, the shadow
stays the newest end, every reference it promised is resolved, and both count exactly the bytes
of their entries, within the budget. -/
theorem shadow_never_promises_more (budget : Nat) (shadow : TileShadow) (viewer : ViewerTiles)
    (hshadow : ShadowReached budget shadow) (hviewer : ViewerReached budget viewer)
    (hends : shadow.index.recency <:+ viewer.index.recency) (steps : List TileStep) :
    ∃ b answers, (Beside.mk shadow viewer).run steps = some (b, answers) ∧
      b.shadow.index.recency <:+ b.viewer.index.recency ∧ (∀ tile ∈ answers, tile.isSome) ∧
      (b.shadow.index.used = Recency.total b.shadow.index.recency ∧ b.shadow.index.used ≤ budget) ∧
      (b.viewer.index.used = Recency.total b.viewer.index.recency ∧
        b.viewer.index.used ≤ budget) := by
  have hstart : Promises budget ⟨shadow, viewer⟩ := {
    shadow := hshadow.agree.1
    viewer := hviewer.holds.1
    shadow_budget := hshadow.agree.2
    viewer_budget := hviewer.holds.2
    ends := hends }
  obtain ⟨b, answers, hrun, hlast, hanswers⟩ := hstart.run steps
  refine ⟨b, answers, hrun, hlast.ends, hanswers, ⟨hlast.shadow.used, ?_⟩,
    ⟨hlast.viewer.agree.used, ?_⟩⟩
  · exact hlast.shadow.fits.trans hlast.shadow_budget.le
  · exact hlast.viewer.agree.fits.trans hlast.viewer_budget.le

/-- A shadow that was just reset, beside a viewer that holds a tile. -/
theorem a_reset_shadow_promises_nothing_lost :
    ∃ viewer, ViewerReached 8 viewer ∧ viewer.index.recency = [(1, 4)] ∧ ∃ b answers,
        (Beside.mk (.new 8) viewer).run [.Pixels 3 ⟨1, 1, [0, 0, 0, 0]⟩, .Reference 3, .Reference 1] =
          some (b, answers) ∧ b.shadow.index.recency <:+ b.viewer.index.recency ∧
        (∀ tile ∈ answers, tile.isSome) ∧
        (b.shadow.index.used = Recency.total b.shadow.index.recency ∧ b.shadow.index.used ≤ 8) ∧
        (b.viewer.index.used = Recency.total b.viewer.index.recency ∧ b.viewer.index.used ≤ 8) := by
  have hviewer : ∃ viewer, ViewerReached 8 viewer ∧ viewer.index.recency = [(1, 4)] :=
    ⟨_, .insert 1 ⟨1, 1, [0, 0, 0, 0]⟩ .new rfl, by decide +kernel⟩
  obtain ⟨viewer, hreached, hrecency⟩ := hviewer
  refine ⟨viewer, hreached, hrecency,
    shadow_never_promises_more 8 (.new 8) viewer .new hreached ?_ _⟩
  apply List.nil_suffix

end multiplex_screen_codec
