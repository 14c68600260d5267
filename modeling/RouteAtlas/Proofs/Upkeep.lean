import RouteAtlas.Proofs.Coalescing

/-!
# Owners that keep up

An owner may look at the world again whenever changes are delivered, and so make up for what it has
missed (`Handling.KeepsUp`). Then the collector is either up to date or has something to deliver
(`Collector.Settled`): that is kept by all that is noted, and a change of a path that matters brings
it about (`Collector.noteAll_keepsUp`).
-/

namespace RouteAtlas.Watch

variable {σ : Type}

/-- In a sound world the owner is never at a loss about a path that is known to it and hears of every
path that matters, and what is delivered to it makes the world fresh. -/
structure Handling.KeepsUp (h : Handling σ) (Sound Fresh : σ → Prop) (Known Matters : String → Prop) :
    Prop where
  ordinary : h.Ordinary
  decides : ∀ (c : Collector σ) path, Sound c.world → Known path →
    ∃ wanted, c.wants h path = .ok wanted
  wants : ∀ (c : Collector σ) path, Sound c.world → Matters path → c.wants h path = .ok true
  sound : ∀ s batch, Sound s → Sound (h.deliver s batch).1
  fresh : ∀ s batch, Sound s → Fresh (h.deliver s batch).1

namespace Collector

variable {h : Handling σ} {Sound Fresh : σ → Prop} {Known Matters : String → Prop} {c : Collector σ}

/-- The world is fresh, or something waits that will make it so. -/
def Settled (Fresh : σ → Prop) (c : Collector σ) : Prop := c.waiting ≠ [] ∨ Fresh c.world

theorem flush_keepsUp (hk : h.KeepsUp Sound Fresh Known Matters) (hc : Sound c.world) :
    Sound (c.flush h).1.world ∧ (c.Settled Fresh → Fresh (c.flush h).1.world) := by
  rw [flush_fst]
  by_cases hwaiting : c.waiting = []
  · simp only [hwaiting, if_true]
    exact ⟨hc, fun hsettled => hsettled.resolve_left fun hne => hne hwaiting⟩
  · simp only [hwaiting, if_false]
    exact ⟨hk.sound _ _ hc, fun _ => hk.fresh _ _ hc⟩

theorem waiting_keep (c : Collector σ) (change : FileChange) : (c.keep change).waiting ≠ [] := by
  intro hnil
  have hempty : (c.pending.put change.path change.kind).entries = [] := List.map_eq_nil_iff.mp hnil
  have hkey : change.path ∈ (c.pending.put change.path change.kind).keys :=
    Table.mem_keys_put.mpr (Or.inl rfl)
  rw [Table.keys, hempty] at hkey
  exact List.not_mem_nil hkey

theorem note_keepsUp (hk : h.KeepsUp Sound Fresh Known Matters) (hc : Sound c.world)
    {change : FileChange} (hknown : Known change.path) :
    (c.note h change).2 = .ok () ∧ Sound (c.note h change).1.world ∧
      (c.Settled Fresh ∨ Matters change.path → (c.note h change).1.Settled Fresh) := by
  obtain ⟨wanted, hwants⟩ := hk.decides c change.path hc hknown
  cases wanted with
  | false =>
    rw [note_of_unwanted hwants]
    refine ⟨rfl, hc, ?_⟩
    rintro (hsettled | hmatters)
    · exact hsettled
    · rw [hk.wants c _ hc hmatters] at hwants
      exact absurd (Except.ok.inj hwants) (by decide)
  | true =>
    have hwaiting := waiting_keep c change
    cases himmediate : h.immediate with
    | true =>
      -- the change waits for a moment, and the delivery makes the world fresh
      obtain ⟨hsound, hfresh⟩ := flush_keepsUp (c := c.keep change) hk hc
      rw [note_of_immediate hk.ordinary himmediate hwants]
      exact ⟨rfl, hsound, fun _ => Or.inr (hfresh (Or.inl hwaiting))⟩
    | false =>
      rw [note_of_waiting himmediate hwants]
      exact ⟨rfl, hc, fun _ => Or.inl hwaiting⟩

theorem noteAll_keepsUp (hk : h.KeepsUp Sound Fresh Known Matters) {changes : List FileChange}
    (hc : Sound c.world) (hknown : ∀ change ∈ changes, Known change.path) :
    (c.noteAll h changes).2 = .ok () ∧ Sound (c.noteAll h changes).1.world ∧
      ((c.Settled Fresh ∨ ∃ change ∈ changes, Matters change.path) →
        (c.noteAll h changes).1.Settled Fresh) := by
  induction changes generalizing c with
  | nil => exact ⟨rfl, hc, by simp [noteAll]⟩
  | cons change rest ih =>
    obtain ⟨hfirst, hrest⟩ := List.forall_mem_cons.mp hknown
    obtain ⟨hok, hsound, hsettled⟩ := note_keepsUp hk hc hfirst
    obtain ⟨hrestOk, hrestSound, hrestSettled⟩ := ih hsound hrest
    rw [noteAll_of_ok hok]
    refine ⟨hrestOk, hrestSound, ?_⟩
    rintro (hbefore | ⟨wanted, hmem, hmatters⟩)
    · exact hrestSettled (Or.inl (hsettled (Or.inl hbefore)))
    · rcases List.mem_cons.mp hmem with rfl | hmem
      · exact hrestSettled (Or.inl (hsettled (Or.inr hmatters)))
      · exact hrestSettled (Or.inr ⟨wanted, hmem, hmatters⟩)

end Collector

end RouteAtlas.Watch
