import Unit3dAnnounce.WriteBehind.Cell

/-!
# What a record carries to its row

Invariants of a cell. A mark, such as a time of completion, is somewhere in the cell as long as no
merge wipes out the last one. The values that a row takes over from its last write are those of the
last update, as long as a record that is put back leaves them alone. And a value that a row keeps
from its first write is that of the first update, as long as merges keep it.
-/

namespace WriteBehind

namespace Cell

variable {C V R : Type} {merge : V → V → V} {write : C → Option R → V → R}

section Marks

/-- A mark that is being written or that has been written. -/
def Secured (marked : V → Prop) (markedRow : R → Prop) (c : Cell V R) : Prop :=
  (∃ v ∈ c.inflight, marked v) ∨ ∃ r, c.row = some r ∧ markedRow r

def HasMark (marked : V → Prop) (markedRow : R → Prop) (c : Cell V R) : Prop :=
  (∃ v, c.queued = some v ∧ marked v) ∨ c.Secured marked markedRow

variable {marked : V → Prop} {markedRow : R → Prop}

lemma hasMark_enqueue (hmerge : ∀ v w, marked w → marked (merge v w)) (c : Cell V R) {v : V}
    (hv : marked v) : (c.enqueue merge v).HasMark marked markedRow := by
  refine Or.inl ⟨_, rfl, ?_⟩
  cases c.queued with
  | none => exact hv
  | some q => exact hmerge q v hv

/-- A mark survives a merge unless it is the last one and the new record lacks it. -/
lemma HasMark.enqueue (hmerge : ∀ v w, marked w → marked (merge v w)) {c : Cell V R} {v : V}
    (hsafe : ¬ marked v → ∀ q, c.queued = some q → marked q → c.Secured marked markedRow)
    (h : c.HasMark marked markedRow) : (c.enqueue merge v).HasMark marked markedRow := by
  by_cases hv : marked v
  · exact hasMark_enqueue hmerge c hv
  · rcases h with ⟨q, hq, hmark⟩ | hsecured
    · exact Or.inr (hsafe hv q hq hmark)
    · exact Or.inr hsecured

theorem HasMark.step (hmerge : ∀ v w, marked w → marked (merge v w))
    (hwrite : ∀ ctx r v, marked v → markedRow (write ctx r v))
    (hkeep : ∀ ctx r v, markedRow r → markedRow (write ctx (some r) v)) {c c' : Cell V R}
    {a : Action C V} (hs : Step merge write c a c')
    (hsafe : ∀ v, a.incoming = some v → ¬ marked v → ∀ q, c.queued = some q → marked q →
      c.Secured marked markedRow)
    (h : c.HasMark marked markedRow) : c'.HasMark marked markedRow := by
  cases hs with
  | enqueue _ v => exact h.enqueue hmerge (hsafe v rfl)
  | take v i r =>
    refine Or.inr ?_
    rcases h with ⟨q, hq, hmark⟩ | ⟨w, hw, hmark⟩ | hrow
    · simp only [Option.some_inj] at hq
      exact Or.inl ⟨v, Multiset.mem_cons_self v i, hq ▸ hmark⟩
    · exact Or.inl ⟨w, Multiset.mem_cons_of_mem hw, hmark⟩
    · exact Or.inr hrow
  | commit ctx v q i r =>
    rcases h with hqueued | ⟨w, hw, hmark⟩ | ⟨row, hrow, hmark⟩
    · exact Or.inl hqueued
    · rcases Multiset.mem_cons.mp hw with rfl | hw
      · exact Or.inr (Or.inr ⟨_, rfl, hwrite ctx r w hmark⟩)
      · exact Or.inr (Or.inl ⟨w, hw, hmark⟩)
    · simp only at hrow
      subst hrow
      exact Or.inr (Or.inr ⟨_, rfl, hkeep ctx row v hmark⟩)
  | fail v q i r =>
    by_cases hv : marked v
    · exact hasMark_enqueue hmerge _ hv
    · -- without `v`, which has no mark, the cell has the same marks
      have drop : (⟨q, v ::ₘ i, r⟩ : Cell V R).Secured marked markedRow →
          (⟨q, i, r⟩ : Cell V R).Secured marked markedRow := by
        rintro (⟨w, hw, hmark⟩ | hrow)
        · rcases Multiset.mem_cons.mp hw with rfl | hw
          · exact absurd hmark hv
          · exact Or.inl ⟨w, hw, hmark⟩
        · exact Or.inr hrow
      have hrest : (⟨q, i, r⟩ : Cell V R).HasMark marked markedRow := h.imp id drop
      exact hrest.enqueue hmerge fun _ q hq hmark => drop (hsafe v rfl hv q hq hmark)

end Marks

section Latest

variable {D : Type}

/-- The values of the waiting record are those of `last`. Where nothing waits, those of every record
in flight are, and where nothing is in flight either, those of the row. -/
def Latest (read : V → D) (readRow : R → D) (last : V) (c : Cell V R) : Prop :=
  match c.queued with
  | some q => read q = read last
  | none => (∀ v ∈ c.inflight, read v = read last) ∧
    (c.inflight = 0 → ∃ r, c.row = some r ∧ readRow r = read last)

variable {read : V → D} {readRow : R → D} {last : V}

lemma latest_enqueue (c : Cell V R) (v : V)
    (hmerge : ∀ q, c.queued = some q → read (merge q v) = read v) :
    (c.enqueue merge v).Latest read readRow v := by
  unfold Latest Cell.enqueue
  cases hq : c.queued with
  | none => rfl
  | some q => exact hmerge q hq

/-- Once nothing waits and nothing is in flight, the row has the values. -/
lemma Latest.row {c : Cell V R} (h : c.Latest read readRow last) (hqueued : c.queued = none)
    (hinflight : c.inflight = 0) : ∃ r, c.row = some r ∧ readRow r = read last := by
  unfold Latest at h
  rw [hqueued] at h
  exact h.2 hinflight

/-- Nothing is taken while something is in flight, and what is put back does not change the values of
what waits. -/
theorem Latest.step (hwrite : ∀ ctx r v, readRow (write ctx r v) = read v) {c c' : Cell V R}
    {a : Action C V} (hs : Step merge write c a c') (henqueue : a.enqueued = 0)
    (htake : a = .take → c.inflight = 0)
    (hfail : ∀ v q, a = .fail v → c.queued = some q → read (merge q v) = read q)
    (h : c.Latest read readRow last) : c'.Latest read readRow last := by
  cases hs with
  | enqueue _ v => simp [Action.enqueued] at henqueue
  | take v i r =>
    have hi : i = 0 := htake rfl
    subst hi
    refine ⟨?_, ?_⟩
    · intro w hw
      rw [Multiset.mem_cons] at hw
      rcases hw with rfl | hw
      · exact h
      · simp at hw
    · intro hzero
      simp at hzero
  | commit ctx v q i r =>
    cases q with
    | some q => exact h
    | none =>
      obtain ⟨hinflight, -⟩ := h
      refine ⟨fun w hw => hinflight w (Multiset.mem_cons_of_mem hw), fun _ => ⟨_, rfl, ?_⟩⟩
      rw [hwrite]
      exact hinflight v (Multiset.mem_cons_self v i)
  | fail v q i r =>
    cases q with
    | some q =>
      have hread : read (merge q v) = read last := by
        rw [hfail v q rfl rfl]
        exact h
      exact hread
    | none => exact h.1 v (Multiset.mem_cons_self v i)

end Latest

section First

variable {D : Type}

/-- The row, once there is one, has the value `first`. Until then every record in flight has it, or,
where nothing is in flight, the waiting one. -/
def First (read : V → D) (readRow : R → D) (first : D) (c : Cell V R) : Prop :=
  match c.row with
  | some r => readRow r = first
  | none => (∀ v ∈ c.inflight, read v = first) ∧
    (c.inflight = 0 → ∃ q, c.queued = some q ∧ read q = first)

variable {read : V → D} {readRow : R → D} {first : D}

lemma First.enqueue {c : Cell V R} {v : V}
    (hmerge : ∀ q, c.queued = some q → read q = first → read (merge q v) = first)
    (h : c.First read readRow first) : (c.enqueue merge v).First read readRow first := by
  unfold First at h ⊢
  simp only [Cell.enqueue]
  cases hr : c.row with
  | some r =>
    rw [hr] at h
    exact h
  | none =>
    rw [hr] at h
    refine ⟨h.1, fun hi => ?_⟩
    obtain ⟨q, hq, hread⟩ := h.2 hi
    refine ⟨_, rfl, ?_⟩
    rw [hq]
    exact hmerge q hq hread

/-- Nothing is taken while something is in flight, and a merge keeps the first value, whichever of
its records has it. -/
theorem First.step (hinsert : ∀ ctx v, readRow (write ctx none v) = read v)
    (hkeep : ∀ ctx r v, readRow (write ctx (some r) v) = readRow r) {c c' : Cell V R}
    {a : Action C V} (hs : Step merge write c a c') (htake : a = .take → c.inflight = 0)
    (hmerge : ∀ v q, a.incoming = some v → c.queued = some q → read q = first ∨ read v = first →
      read (merge q v) = first)
    (h : c.First read readRow first) : c'.First read readRow first := by
  cases hs with
  | enqueue _ v => exact h.enqueue fun q hq hread => hmerge v q rfl hq (Or.inl hread)
  | take v i r =>
    cases r with
    | some r => exact h
    | none =>
      obtain ⟨hinflight, hqueued⟩ := h
      obtain ⟨q, hq, hread⟩ := hqueued (htake rfl)
      simp only [Option.some_inj] at hq
      subst hq
      refine ⟨?_, ?_⟩
      · intro w hw
        rcases Multiset.mem_cons.mp hw with rfl | hw
        · exact hread
        · exact hinflight w hw
      · intro hzero
        simp at hzero
  | commit ctx v q i r =>
    cases r with
    | some r =>
      have hrow : readRow r = first := h
      exact (hkeep ctx r v).trans hrow
    | none => exact (hinsert ctx v).trans (h.1 v (Multiset.mem_cons_self v i))
  | fail v q i r =>
    cases r with
    | some r => exact h
    | none =>
      obtain ⟨hinflight, -⟩ := h
      have hread : read v = first := hinflight v (Multiset.mem_cons_self v i)
      refine ⟨fun w hw => hinflight w (Multiset.mem_cons_of_mem hw), fun _ => ⟨_, rfl, ?_⟩⟩
      cases q with
      | none => exact hread
      | some q => exact hmerge v q rfl rfl (Or.inr hread)

/-- What a write leaves alone stays as it was in a row that is there. -/
lemma row_step (hkeep : ∀ ctx r v, readRow (write ctx (some r) v) = readRow r) {c c' : Cell V R}
    {a : Action C V} (hs : Step merge write c a c') (h : ∃ r, c.row = some r ∧ readRow r = first) :
    ∃ r, c'.row = some r ∧ readRow r = first := by
  cases hs with
  | enqueue _ v => exact h
  | take v i r => exact h
  | commit ctx v q i r =>
    obtain ⟨r', hr', hread⟩ := h
    simp only at hr'
    subst hr'
    exact ⟨_, rfl, (hkeep ctx r' v).trans hread⟩
  | fail v q i r => exact h

end First

section Records

/-- Every record of the cell, the row apart. -/
def Every (P : V → Prop) (c : Cell V R) : Prop :=
  (∀ q, c.queued = some q → P q) ∧ ∀ v ∈ c.inflight, P v

variable {P Q : V → Prop}

lemma Every.mono {c : Cell V R} (hPQ : ∀ v, P v → Q v) (h : c.Every P) : c.Every Q :=
  ⟨fun q hq => hPQ q (h.1 q hq), fun v hv => hPQ v (h.2 v hv)⟩

lemma Every.enqueue (hmerge : ∀ v w, P v → P w → P (merge v w)) {c : Cell V R} {v : V} (hv : P v)
    (h : c.Every P) : (c.enqueue merge v).Every P := by
  refine ⟨?_, h.2⟩
  intro q hq
  simp only [Cell.enqueue, Option.some_inj] at hq
  subst hq
  cases hc : c.queued with
  | none => exact hv
  | some q => exact hmerge q v (h.1 q hc) hv

/-- What merges keep and new records have, every record has. -/
theorem Every.step (hmerge : ∀ v w, P v → P w → P (merge v w)) {c c' : Cell V R} {a : Action C V}
    (hs : Step merge write c a c') (hnew : ∀ v, a = .enqueue v → P v) (h : c.Every P) :
    c'.Every P := by
  cases hs with
  | enqueue _ v => exact h.enqueue hmerge (hnew v rfl)
  | take v i r =>
    refine ⟨by simp, fun w hw => ?_⟩
    rcases Multiset.mem_cons.mp hw with rfl | hw
    · exact h.1 w rfl
    · exact h.2 w hw
  | commit ctx v q i r => exact ⟨h.1, fun w hw => h.2 w (Multiset.mem_cons_of_mem hw)⟩
  | fail v q i r =>
    have hrest : (⟨q, i, r⟩ : Cell V R).Every P :=
      ⟨h.1, fun w hw => h.2 w (Multiset.mem_cons_of_mem hw)⟩
    exact hrest.enqueue hmerge (h.2 v (Multiset.mem_cons_self v i))

end Records

end Cell

end WriteBehind
