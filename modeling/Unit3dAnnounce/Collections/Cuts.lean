import Mathlib.Algebra.Group.Basic
import Mathlib.Data.List.Infix

/-!
# Cutting a list into groups

A list is cut into groups, and only the last element of every group counts. Going from a start
through these elements costs something for each step. The cut does not matter exactly where the
costs of two steps always add up. Where a step costs the way it covers or nothing, this is so
exactly where all steps that cover some way cost it, or none does.
-/

namespace Cuts

variable {A M : Type}

/-- Consecutive groups of a list. -/
structure IsCut (cut : List (List A)) (xs : List A) : Prop where
  flatten : cut.flatten = xs
  ne_nil : ∀ group ∈ cut, group ≠ []

/-- The groups behind the first one. -/
lemma IsCut.tail {group : List A} {cut : List (List A)} {xs : List A} (h : IsCut (group :: cut) xs) :
    IsCut cut cut.flatten :=
  ⟨rfl, fun g hg => h.ne_nil g (List.mem_cons_of_mem _ hg)⟩

/-- The last elements of the groups. -/
def lasts (cut : List (List A)) : List A := cut.filterMap List.getLast?

@[simp] lemma lasts_cons_concat (group : List A) (z : A) (cut : List (List A)) :
    lasts ((group ++ [z]) :: cut) = z :: lasts cut := by
  simp [lasts]

lemma lasts_sublist (cut : List (List A)) : (lasts cut).Sublist cut.flatten := by
  induction cut with
  | nil => exact List.Sublist.refl []
  | cons group cut ih =>
    rcases List.eq_nil_or_concat group with rfl | ⟨init, z, rfl⟩
    · exact ih
    · rw [List.concat_eq_append, lasts_cons_concat, List.flatten_cons, List.append_assoc]
      exact (ih.cons_cons z).trans (List.sublist_append_right _ _)

/-- The last group of a cut ends where the list does. -/
lemma IsCut.lasts_concat {cut : List (List A)} {xs : List A} {z : A} (h : IsCut cut (xs ++ [z])) :
    ∃ sub, sub.Sublist xs ∧ lasts cut = sub ++ [z] := by
  rcases List.eq_nil_or_concat cut with rfl | ⟨init, group, rfl⟩
  · exact absurd h.flatten (by simp)
  · rw [List.concat_eq_append] at h ⊢
    have hgroup : group ≠ [] := h.ne_nil group (by simp)
    have hflatten := h.flatten
    rw [List.flatten_append, List.flatten_singleton, ← List.dropLast_append_getLast hgroup,
      ← List.append_assoc] at hflatten
    obtain ⟨hxs, hz⟩ := List.append_inj' hflatten rfl
    refine ⟨lasts init, ?_, ?_⟩
    · rw [← hxs]
      exact (lasts_sublist init).trans (List.sublist_append_left _ _)
    · rw [← hz, lasts, lasts, List.filterMap_append]
      simp [List.getLast?_eq_some_getLast hgroup]

/-- Any elements may be the last ones of their groups, as long as the last of all is among them. -/
lemma exists_cut {sub xs : List A} (h : sub.Sublist xs) (z : A) :
    ∃ cut, IsCut cut (xs ++ [z]) ∧ lasts cut = sub ++ [z] := by
  induction h with
  | slnil => exact ⟨[[z]], ⟨rfl, by simp⟩, rfl⟩
  | @cons sub xs x _ ih =>
    obtain ⟨cut, hcut, hlasts⟩ := ih
    cases cut with
    | nil => exact absurd hcut.flatten (by simp)
    | cons group cut =>
      refine ⟨(x :: group) :: cut, ⟨?_, ?_⟩, ?_⟩
      · rw [List.cons_append, ← hcut.flatten]
        rfl
      · intro g hg
        rcases List.mem_cons.mp hg with rfl | hg
        · exact List.cons_ne_nil _ _
        · exact hcut.ne_nil g (List.mem_cons_of_mem _ hg)
      · obtain ⟨init, last, rfl⟩ := List.eq_nil_or_concat group |>.resolve_left
          (hcut.ne_nil group List.mem_cons_self)
        rw [List.concat_eq_append, lasts_cons_concat] at hlasts
        rw [List.concat_eq_append, ← List.cons_append, lasts_cons_concat]
        exact hlasts
  | @cons_cons sub xs x _ ih =>
    obtain ⟨cut, hcut, hlasts⟩ := ih
    refine ⟨[x] :: cut, ⟨?_, ?_⟩, ?_⟩
    · rw [List.flatten_cons, hcut.flatten]
      rfl
    · intro g hg
      rcases List.mem_cons.mp hg with rfl | hg
      · exact List.cons_ne_nil _ _
      · exact hcut.ne_nil g hg
    · have := lasts_cons_concat [] x cut
      rw [List.nil_append] at this
      rw [this, hlasts, List.cons_append]

/-- A cut of an image is the image of a cut. -/
lemma IsCut.exists_map {B : Type} {f : A → B} {cut : List (List B)} {xs : List A}
    (h : IsCut cut (xs.map f)) : ∃ cut', IsCut cut' xs ∧ cut'.map (List.map f) = cut := by
  induction cut generalizing xs with
  | nil =>
    have hnil : xs = [] := List.map_eq_nil_iff.mp h.flatten.symm
    exact ⟨[], ⟨hnil.symm, by simp⟩, rfl⟩
  | cons group cut ih =>
    obtain ⟨ys, zs, rfl, hgroup, hrest⟩ := List.map_eq_append_iff.mp h.flatten.symm
    obtain ⟨cut', hcut', hmap⟩ := ih ⟨hrest.symm, fun g hg => h.ne_nil g (List.mem_cons_of_mem _ hg)⟩
    have hne : ys ≠ [] := by
      rintro rfl
      exact h.ne_nil group List.mem_cons_self hgroup.symm
    refine ⟨ys :: cut', ⟨?_, ?_⟩, ?_⟩
    · rw [List.flatten_cons, hcut'.flatten]
    · intro g hg
      rcases List.mem_cons.mp hg with rfl | hg
      · exact hne
      · exact hcut'.ne_nil g hg
    · rw [List.map_cons, hgroup, hmap]

lemma IsCut.map {B : Type} (f : A → B) {cut : List (List A)} {xs : List A} (h : IsCut cut xs) :
    IsCut (cut.map (List.map f)) (xs.map f) := by
  constructor
  · rw [← h.flatten, List.map_flatten]
  · intro group hgroup
    obtain ⟨g, hg, rfl⟩ := List.mem_map.mp hgroup
    exact fun hnil => h.ne_nil g hg (List.map_eq_nil_iff.mp hnil)

variable [AddCommGroup M] (cost : A → A → M)

/-- The cost of the way from a start. -/
def total : A → List A → M
  | _, [] => 0
  | x, y :: ys => cost x y + total y ys

/-- The cost of a step is that of any two steps in its place. -/
def Additive (xs : List A) : Prop :=
  ∀ x y z, [x, y, z].Sublist xs → cost x z = cost x y + cost y z

variable {cost}

lemma Additive.sublist {xs ys : List A} (h : Additive cost ys) (hsub : xs.Sublist ys) :
    Additive cost xs := fun x y z hxyz => h x y z (hxyz.trans hsub)

/-- Where costs add up, a way costs as much as the direct one. -/
lemma Additive.total_eq {x z : A} {sub : List A} (h : Additive cost (x :: (sub ++ [z]))) :
    total cost x (sub ++ [z]) = cost x z := by
  induction sub generalizing x with
  | nil => simp [total]
  | cons y sub ih =>
    rw [List.cons_append, total, ih (h.sublist (List.sublist_cons_self _ _))]
    refine (h x y z ?_).symm
    exact ((List.sublist_append_right sub [z]).cons_cons y).cons_cons x

lemma sublist_concat {sub xs : List A} {z : A} (h : sub.Sublist (xs ++ [z])) :
    sub.Sublist xs ∨ ∃ init, sub = init ++ [z] ∧ init.Sublist xs := by
  obtain ⟨init, last, rfl, hinit, hlast⟩ := List.sublist_append_iff.mp h
  rcases List.sublist_singleton.mp hlast with rfl | rfl
  · exact Or.inl (by simpa using hinit)
  · exact Or.inr ⟨init, rfl, hinit⟩

/-- Ways that cost the same: leaving out a stop costs nothing, wherever it is. -/
lemma Additive.of_ways {x z : A} {xs : List A} (h : ∀ sub sub', sub.Sublist xs → sub'.Sublist xs →
    total cost x (sub ++ [z]) = total cost x (sub' ++ [z])) : Additive cost (x :: (xs ++ [z])) := by
  intro p q r hsub
  have hleft : [p, r].Sublist [p, q, r] := (List.sublist_cons_self q [r]).cons_cons p
  rcases List.sublist_cons_iff.mp hsub with hrest | ⟨rest, hcons, hrest⟩
  · rcases sublist_concat hrest with hinner | ⟨init, hinit, hinner⟩
    · have hway := h [p, q, r] [p, r] hinner (hleft.trans hinner)
      simp only [total, List.cons_append, List.nil_append, ← add_assoc, add_left_inj] at hway
      rw [add_assoc] at hway
      exact (add_left_cancel hway).symm
    · obtain ⟨hpq, hr⟩ := List.append_inj' (show [p, q] ++ [r] = init ++ [z] from hinit) rfl
      obtain rfl := List.singleton_inj.mp hr
      rw [← hpq] at hinner
      have hway := h [p, q] [p] hinner ((List.sublist_append_left [p] [q]).trans hinner)
      simp only [total, List.cons_append, List.nil_append, add_zero] at hway
      exact (add_left_cancel hway).symm
  · obtain ⟨rfl, rfl⟩ := List.cons_eq_cons.mp hcons
    rcases sublist_concat hrest with hinner | ⟨init, hinit, hinner⟩
    · have hway := h [q, r] [r] hinner ((List.sublist_cons_self q [r]).trans hinner)
      simp only [total, List.cons_append, List.nil_append, ← add_assoc, add_left_inj] at hway
      exact hway.symm
    · obtain ⟨hq, hr⟩ := List.append_inj' (show [q] ++ [r] = init ++ [z] from hinit) rfl
      obtain rfl := List.singleton_inj.mp hr
      rw [← hq] at hinner
      have hway := h [q] [] hinner (List.nil_sublist _)
      simp only [total, List.cons_append, List.nil_append, add_zero] at hway
      exact hway.symm

/-- Cuts do not matter exactly where costs add up. -/
theorem total_lasts_iff (x : A) (xs : List A) :
    (∀ cut cut', IsCut cut xs → IsCut cut' xs →
      total cost x (lasts cut) = total cost x (lasts cut')) ↔ Additive cost (x :: xs) := by
  rcases List.eq_nil_or_concat xs with rfl | ⟨init, z, rfl⟩
  · have hnil : ∀ cut : List (List A), IsCut cut [] → cut = [] := by
      intro cut hcut
      apply List.eq_nil_iff_forall_not_mem.mpr
      intro group hgroup
      exact hcut.ne_nil group hgroup (List.flatten_eq_nil_iff.mp hcut.flatten group hgroup)
    constructor
    · intro _ p q r hsub
      exact absurd hsub.length_le (by simp)
    · intro _ cut cut' hcut hcut'
      rw [hnil cut hcut, hnil cut' hcut']
  · rw [List.concat_eq_append]
    constructor
    · intro h
      apply Additive.of_ways
      intro sub sub' hsub hsub'
      obtain ⟨cut, hcut, hlasts⟩ := exists_cut hsub z
      obtain ⟨cut', hcut', hlasts'⟩ := exists_cut hsub' z
      rw [← hlasts, ← hlasts']
      exact h cut cut' hcut hcut'
    · intro h cut cut' hcut hcut'
      obtain ⟨sub, hsub, hlasts⟩ := hcut.lasts_concat
      obtain ⟨sub', hsub', hlasts'⟩ := hcut'.lasts_concat
      rw [hlasts, hlasts', Additive.total_eq, Additive.total_eq]
      · exact h.sublist ((hsub'.append_right [z]).cons_cons x)
      · exact h.sublist ((hsub.append_right [z]).cons_cons x)

/-- A way in two parts, each of which counts or does not. Where it adds up, the parts and the whole
are alike, as far as they are not nothing. -/
lemma iff_of_add_eq {a b : M} {p q r : Prop} [Decidable p] [Decidable q] [Decidable r]
    (h : (if r then a + b else 0) = (if p then a else 0) + if q then b else 0) :
    (a ≠ 0 → b ≠ 0 → (p ↔ q)) ∧ (a ≠ 0 → a + b ≠ 0 → (p ↔ r)) ∧
      (a + b ≠ 0 → b ≠ 0 → (r ↔ q)) := by
  by_cases hp : p <;> by_cases hq : q <;> by_cases hr : r <;> simp [hp, hq, hr] at h ⊢ <;>
    grind

variable {place : A → M} {counts : A → A → Prop} [∀ x y, Decidable (counts x y)]

/-- What the way from one to another costs: all of it where it counts. -/
def wayCost (place : A → M) (counts : A → A → Prop) [∀ x y, Decidable (counts x y)] (x y : A) : M :=
  if counts x y then place y - place x else 0

/-- Where costs add up, the parts of a way and the whole count alike. -/
lemma Additive.counts_iff {x y z : A} {xs : List A} (h : Additive (wayCost place counts) xs)
    (hsub : [x, y, z].Sublist xs) :
    (place x ≠ place y → place y ≠ place z → (counts x y ↔ counts y z)) ∧
      (place x ≠ place y → place x ≠ place z → (counts x y ↔ counts x z)) ∧
      (place x ≠ place z → place y ≠ place z → (counts x z ↔ counts y z)) := by
  have hcost := h x y z hsub
  simp only [wayCost] at hcost
  have hway : place z - place x = place y - place x + (place z - place y) := by
    rw [add_comm, sub_add_sub_cancel]
  rw [hway] at hcost
  have halike := iff_of_add_eq hcost
  rw [← hway] at halike
  simp only [sub_ne_zero] at halike
  exact ⟨fun hx hy => halike.1 hx.symm hy.symm, fun hx hy => halike.2.1 hx.symm hy.symm,
    fun hx hy => halike.2.2 hx.symm hy.symm⟩

/-- Where costs add up, all ways from the start count alike. -/
lemma Additive.counts_head_iff {x y z : A} {xs : List A}
    (h : Additive (wayCost place counts) (x :: xs)) (hy : y ∈ xs) (hz : z ∈ xs)
    (hxy : place x ≠ place y) (hxz : place x ≠ place z) : counts x y ↔ counts x z := by
  have hpairs : xs.Pairwise fun y z => place x ≠ place y → place x ≠ place z →
      (counts x y ↔ counts x z) := by
    rw [List.pairwise_iff_forall_sublist]
    intro y z hsub
    exact (h.counts_iff (hsub.cons_cons x)).2.1
  refine List.Pairwise.forall_of_forall_of_flip (fun _ _ _ _ => Iff.rfl) hpairs ?_ hy hz hxy hxz
  exact hpairs.imp fun hstep hz hy => (hstep hy hz).symm

/-- Where costs add up, all ways are like any of the ways from the start. -/
lemma Additive.pairwise_counts_iff {x y : A} {xs : List A}
    (h : Additive (wayCost place counts) (x :: xs)) (hy : y ∈ xs) (hxy : place x ≠ place y) :
    (x :: xs).Pairwise fun a b => place a ≠ place b → (counts a b ↔ counts x y) := by
  refine List.pairwise_cons.mpr ⟨fun b hb hxb => h.counts_head_iff hb hy hxb hxy, ?_⟩
  rw [List.pairwise_iff_forall_sublist]
  intro a b hsub hab
  have ha : a ∈ xs := hsub.subset List.mem_cons_self
  have hb : b ∈ xs := hsub.subset (List.mem_cons_of_mem _ (List.mem_singleton_self b))
  have hparts := h.counts_iff (hsub.cons_cons x)
  by_cases hxa : place x = place a
  · have hxb : place x ≠ place b := hxa ▸ hab
    exact (hparts.2.2 hxb hab).symm.trans (h.counts_head_iff hb hy hxb hxy)
  · exact (hparts.1 hxa hab).symm.trans (h.counts_head_iff ha hy hxa hxy)

/-- Costs add up exactly where all ways count or none does, as far as they are not nothing. -/
theorem additive_iff (xs : List A) :
    Additive (wayCost place counts) xs ↔
      (xs.Pairwise fun x y => place x ≠ place y → counts x y) ∨
      xs.Pairwise fun x y => place x ≠ place y → ¬ counts x y := by
  constructor
  · intro h
    cases xs with
    | nil => exact Or.inl List.Pairwise.nil
    | cons x xs =>
      by_cases hmoves : ∃ y ∈ xs, place x ≠ place y
      · obtain ⟨y, hy, hxy⟩ := hmoves
        have hall := h.pairwise_counts_iff hy hxy
        by_cases hcounts : counts x y
        · exact Or.inl (hall.imp fun hiff hab => (hiff hab).mpr hcounts)
        · exact Or.inr (hall.imp fun hiff hab hcount => hcounts ((hiff hab).mp hcount))
      · push Not at hmoves
        left
        refine List.pairwise_cons.mpr ⟨fun y hy hxy => absurd (hmoves y hy) hxy, ?_⟩
        rw [List.pairwise_iff_forall_sublist]
        intro a b hsub hab
        have ha := hmoves a (hsub.subset List.mem_cons_self)
        have hb := hmoves b (hsub.subset (List.mem_cons_of_mem _ (List.mem_singleton_self b)))
        exact absurd (ha.symm.trans hb) hab
  · intro h x y z hsub
    have hxy : [x, y].Sublist xs := (List.sublist_append_left [x, y] [z]).trans hsub
    have hyz : [y, z].Sublist xs := (List.sublist_cons_self x [y, z]).trans hsub
    have hxz : [x, z].Sublist xs := ((List.sublist_cons_self y [z]).cons_cons x).trans hsub
    rcases h with hall | hnone
    · have hcost : ∀ a b, [a, b].Sublist xs → wayCost place counts a b = place b - place a := by
        intro a b hab
        rw [wayCost, ite_eq_left_iff]
        intro hcount
        have hsame := mt (List.pairwise_iff_forall_sublist.mp hall hab) hcount
        rw [not_not.mp hsame, sub_self]
      rw [hcost x y hxy, hcost y z hyz, hcost x z hxz, add_comm, sub_add_sub_cancel]
    · have hcost : ∀ a b, [a, b].Sublist xs → wayCost place counts a b = 0 := by
        intro a b hab
        rw [wayCost, ite_eq_right_iff]
        intro hcount
        by_contra hne
        exact List.pairwise_iff_forall_sublist.mp hnone hab (fun hsame => hne (by rw [hsame, sub_self]))
          hcount
      rw [hcost x y hxy, hcost y z hyz, hcost x z hxz, add_zero]

end Cuts
