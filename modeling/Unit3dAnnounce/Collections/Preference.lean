import Unit3dAnnounce.Collections.IndexMap

/-!
# Preferred entries

The entries of a map fall into classes, and each class prefers its entry of least weight. No two
entries weigh the same, so a class prefers at most one. Changing one entry changes what is preferred
only where that entry was preferred before or is preferred after.
-/

namespace IndexMap

variable {K V C W : Type} [DecidableEq K] [LinearOrder W] (classOf : V → C) (weight : K → V → W)

/-- The entry at `k` is the lightest of its class. -/
def Prefers (m : IndexMap K V) (c : C) (k : K) : Prop :=
  ∃ v, m.get? k = some v ∧ classOf v = c ∧
    ∀ k' v', m.get? k' = some v' → classOf v' = c → weight k v ≤ weight k' v'

variable {classOf weight} {m n : IndexMap K V} {c : C} {k k' : K}

lemma Prefers.unique (hweight : ∀ k v k' v', weight k v = weight k' v' → k = k')
    (h : m.Prefers classOf weight c k) (h' : m.Prefers classOf weight c k') : k = k' := by
  obtain ⟨v, hget, hclass, hle⟩ := h
  obtain ⟨v', hget', hclass', hle'⟩ := h'
  exact hweight k v k' v' (le_antisymm (hle k' v' hget' hclass') (hle' k v hget hclass))

/-- A preference for another entry outlives a change at `i`, unless `i` comes to be preferred. -/
lemma Prefers.of_change {i : K} (hchange : ∀ k, k ≠ i → n.get? k = m.get? k)
    (hi : ¬ n.Prefers classOf weight c i) (hk : k ≠ i) (h : m.Prefers classOf weight c k) :
    n.Prefers classOf weight c k := by
  obtain ⟨v, hget, hclass, hle⟩ := h
  refine ⟨v, (hchange k hk).trans hget, hclass, ?_⟩
  intro k' v' hget' hclass'
  by_cases hk' : k' = i
  · subst hk'
    by_contra hlt
    rw [not_le] at hlt
    -- the changed entry is lighter than the preferred one, and so the lightest of all
    refine hi ⟨v', hget', hclass', fun k'' v'' hget'' hclass'' => ?_⟩
    by_cases hk'' : k'' = k'
    · subst hk''
      rw [hget', Option.some_inj] at hget''
      rw [hget'']
    · exact hlt.le.trans (hle k'' v'' ((hchange k'' hk'').symm.trans hget'') hclass'')
  · exact hle k' v' ((hchange k' hk').symm.trans hget') hclass'

theorem prefers_congr {i : K} (hchange : ∀ k, k ≠ i → n.get? k = m.get? k)
    (hm : ¬ m.Prefers classOf weight c i) (hn : ¬ n.Prefers classOf weight c i) :
    m.Prefers classOf weight c k ↔ n.Prefers classOf weight c k := by
  constructor
  · intro h
    have hk : k ≠ i := fun he => hm (he ▸ h)
    exact h.of_change hchange hn hk
  · intro h
    have hk : k ≠ i := fun he => hn (he ▸ h)
    exact h.of_change (fun k hk => (hchange k hk).symm) hm hk

/-- What it takes for a changed entry to be preferred. -/
lemma prefers_changed_iff {i : K} {v : V} (hchange : ∀ k, k ≠ i → n.get? k = m.get? k)
    (hv : n.get? i = some v) :
    n.Prefers classOf weight (classOf v) i ↔ ∀ k' v', m.get? k' = some v' → k' ≠ i →
      classOf v' = classOf v → weight i v ≤ weight k' v' := by
  constructor
  · rintro ⟨v', hget, -, hle⟩ k' w hget' hk' hclass
    rw [hv, Option.some_inj] at hget
    subst hget
    exact hle k' w ((hchange k' hk').trans hget') hclass
  · intro h
    refine ⟨v, hv, rfl, fun k' v' hget' hclass => ?_⟩
    by_cases hk' : k' = i
    · subst hk'
      rw [hv, Option.some_inj] at hget'
      rw [hget']
    · exact h k' v' ((hchange k' hk').symm.trans hget') hk' hclass

/-- Preference in a view of a map. -/
lemma prefers_of_map {U : Type} {f : V → U} {classOf : U → C} {weight : K → U → W}
    {n : IndexMap K U} (h : ∀ k, (m.get? k).map f = n.get? k) :
    n.Prefers classOf weight c k ↔
      m.Prefers (fun v => classOf (f v)) (fun k v => weight k (f v)) c k := by
  unfold Prefers
  simp only [← h, Option.map_eq_some_iff]
  constructor
  · rintro ⟨_, ⟨v, hget, rfl⟩, hclass, hle⟩
    exact ⟨v, hget, hclass, fun k' v' hget' hclass' => hle k' (f v') ⟨v', hget', rfl⟩ hclass'⟩
  · rintro ⟨v, hget, hclass, hle⟩
    refine ⟨f v, ⟨v, hget, rfl⟩, hclass, ?_⟩
    rintro k' _ ⟨v', hget', rfl⟩ hclass'
    exact hle k' v' hget' hclass'

end IndexMap
