import Mathlib.Algebra.Order.Monoid.Unbundled.Basic
import Mathlib.Data.List.Nodup
import Mathlib.Data.List.Perm.Basic
import Mathlib.Data.List.Sort
import Mathlib.Order.Lattice

/-! # The best of a list

    A list is ranked by a score, the highest first and equal scores in their old
    order. The best few of some elements are found among the best few of all
    exactly when nothing else takes their room.

    An element stands out when it scores above a floor and no other one scores as
    much; it does so in every order of the list.
-/

namespace Framework

section

variable {α β : Type} [LinearOrder β] (score : α → β)

def ranked (xs : List α) : List α := xs.insertionSort (fun a b => score b ≤ score a)

def Ahead (xs : List α) (a b : α) : Prop :=
  score b < score a ∨ (score a = score b ∧ [a, b].Sublist xs)

instance [DecidableEq α] (xs : List α) (a b : α) : Decidable (Ahead score xs a b) :=
  inferInstanceAs (Decidable (score b < score a ∨ (score a = score b ∧ [a, b].Sublist xs)))

/-- Some `k` highest-scoring elements, the best first; all of them when there are
    no more. Which of several equal scores is taken is left open. -/
structure Best (k : ℕ) (wanted chosen : List α) : Prop where
  length : chosen.length = min k wanted.length
  ordered : chosen.Pairwise (fun a b => score b ≤ score a)
  rest : ∃ rest, (chosen ++ rest).Perm wanted ∧ ∀ a ∈ chosen, ∀ b ∈ rest, score b ≤ score a

variable {score} {xs : List α} {a b : α}

theorem ranked_perm : (ranked score xs).Perm xs := List.perm_insertionSort _ _

theorem mem_ranked : a ∈ ranked score xs ↔ a ∈ xs := ranked_perm.mem_iff

theorem ranked_pairwise : (ranked score xs).Pairwise (fun a b => score b ≤ score a) := by
  have htotal : Std.Total (fun a b : α => score b ≤ score a) :=
    ⟨fun a b => le_total (score b) (score a)⟩
  have htrans : IsTrans α (fun a b => score b ≤ score a) := ⟨fun _ _ _ hab hbc => hbc.trans hab⟩
  exact List.pairwise_insertionSort _ _

/-! ## Order -/

theorem pair_sublist_total (ha : a ∈ xs) (hb : b ∈ xs) (hne : a ≠ b) :
    [a, b].Sublist xs ∨ [b, a].Sublist xs := by
  induction xs with
  | nil => cases ha
  | cons x xs ih =>
    rcases List.mem_cons.mp ha with hax | hamem
    · rcases List.mem_cons.mp hb with hbx | hbmem
      · exact absurd (hax.trans hbx.symm) hne
      · rw [hax]
        exact .inl ((List.singleton_sublist.mpr hbmem).cons_cons x)
    · rcases List.mem_cons.mp hb with hbx | hbmem
      · rw [hbx]
        exact .inr ((List.singleton_sublist.mpr hamem).cons_cons x)
      · exact (ih hamem hbmem).imp (fun h => h.cons _) (fun h => h.cons _)

theorem pair_sublist_asymm (hnodup : xs.Nodup) (hab : [a, b].Sublist xs) :
    ¬ [b, a].Sublist xs := by
  induction xs with
  | nil => cases hab
  | cons x xs ih =>
    obtain ⟨hx, hnodup⟩ := List.nodup_cons.mp hnodup
    intro hba
    cases hab with
    | cons _ hab =>
      cases hba with
      | cons _ hba => exact ih hnodup hab hba
      | cons_cons _ hba => exact hx (hab.subset (by simp))
    | cons_cons _ hab =>
      cases hba with
      | cons _ hba => exact hx (hba.subset (by simp))
      | cons_cons _ hba => exact hx (hba.subset (by simp))

theorem ranked_nodup (hnodup : xs.Nodup) : (ranked score xs).Nodup :=
  ranked_perm.nodup_iff.mpr hnodup

/-- **Ranking**: the elements ranked before an element are those ahead of it. -/
theorem ahead_iff (hnodup : xs.Nodup) (ha : a ∈ xs) (hb : b ∈ xs) :
    Ahead score xs a b ↔ [a, b].Sublist (ranked score xs) := by
  have hscores : ∀ {x y : α}, [x, y].Sublist (ranked score xs) → score y ≤ score x := by
    intro x y h
    exact List.rel_of_pairwise_cons (ranked_pairwise.sublist h) (List.mem_singleton_self y)
  have hstable : ∀ {x y : α}, score y ≤ score x → [x, y].Sublist xs →
      [x, y].Sublist (ranked score xs) :=
    fun hle h => List.pair_sublist_insertionSort (r := fun a b => score b ≤ score a) hle h
  constructor
  · rintro (hlt | ⟨heq, hpair⟩)
    · have hne : a ≠ b := by
        intro h
        rw [h] at hlt
        exact lt_irrefl _ hlt
      rcases pair_sublist_total (@mem_ranked α β _ score xs a |>.mpr ha)
          (@mem_ranked α β _ score xs b |>.mpr hb) hne with h | h
      · exact h
      · exact absurd (hscores h) (not_le.mpr hlt)
    · exact hstable heq.ge hpair
  · intro h
    have hne : a ≠ b := by
      intro hab
      rw [hab] at h
      exact pair_sublist_asymm (@ranked_nodup α β _ score xs hnodup) h h
    rcases (hscores h).lt_or_eq with hlt | heq
    · exact .inl hlt
    · rcases pair_sublist_total ha hb hne with hpair | hpair
      · exact .inr ⟨heq.symm, hpair⟩
      · exact absurd (hstable heq.ge hpair) (pair_sublist_asymm (ranked_nodup hnodup) h)

/-- What is wanted of the best `k` is the beginning of what is wanted, ranked; so
    all that can go wrong is that there are too few. -/
theorem best_iff_length {k : ℕ} {wanted : α → Bool} :
    Best score k (xs.filter wanted) (((ranked score xs).take k).filter wanted) ↔
      min k (xs.filter wanted).length ≤ (((ranked score xs).take k).filter wanted).length := by
  have hsplit : ((ranked score xs).take k).filter wanted ++
      ((ranked score xs).drop k).filter wanted = (ranked score xs).filter wanted := by
    rw [← List.filter_append, List.take_append_drop]
  have hperm : ((ranked score xs).filter wanted).Perm (xs.filter wanted) := ranked_perm.filter _
  have hordered : ((ranked score xs).filter wanted).Pairwise (fun a b => score b ≤ score a) :=
    ranked_pairwise.filter _
  rw [← hsplit] at hperm hordered
  obtain ⟨hchosen, -, hacross⟩ := List.pairwise_append.mp hordered
  have htake : (((ranked score xs).take k).filter wanted).length ≤ k :=
    (List.length_filter_le _ _).trans (List.length_take_le _ _)
  have hall := hperm.length_eq
  rw [List.length_append] at hall
  constructor
  · exact fun h => h.length.ge
  · intro h
    exact ⟨by omega, hchosen, _, hperm, hacross⟩

variable [DecidableEq α]

theorem count_ahead (hnodup : xs.Nodup) {before after : List α} {w : α}
    (hranked : ranked score xs = before ++ w :: after) (p : α → Bool) :
    xs.countP (fun a => p a && decide (Ahead score xs a w)) = before.countP p := by
  have hmem : ∀ a ∈ before ++ w :: after, a ∈ xs := by
    intro a ha
    rw [← hranked] at ha
    exact mem_ranked.mp ha
  have hw : w ∈ xs := hmem w (by simp)
  rw [← (@ranked_perm α β _ score xs).countP_eq, hranked, List.countP_append]
  have hfront : before.countP (fun a => p a && decide (Ahead score xs a w)) = before.countP p := by
    apply List.countP_congr
    intro a ha
    have hahead : Ahead score xs a w := by
      rw [ahead_iff hnodup (hmem a (List.mem_append_left _ ha)) hw, hranked]
      exact (List.singleton_sublist.mpr ha).append (List.singleton_sublist.mpr (by simp))
    simp [hahead]
  have hback : ∀ a ∈ w :: after, ¬ Ahead score xs a w := by
    intro a ha hahead
    rw [ahead_iff hnodup (hmem a (List.mem_append_right _ ha)) hw] at hahead
    by_cases haw : a = w
    · rw [haw] at hahead
      exact pair_sublist_asymm (ranked_nodup hnodup) hahead hahead
    · have hafter : a ∈ after := (List.mem_cons.mp ha).resolve_left haw
      apply pair_sublist_asymm (ranked_nodup hnodup) hahead
      rw [hranked]
      exact ((List.singleton_sublist.mpr hafter).cons_cons w).trans (List.sublist_append_right _ _)
  have hnone : (w :: after).countP (fun a => p a && decide (Ahead score xs a w)) = 0 := by
    rw [List.countP_eq_zero]
    intro a ha
    simp [hback a ha]
  rw [hfront, hnone, Nat.add_zero]

/-- What is wanted has room among the best `k` of all: whatever fewer than `k`
    wanted elements are ahead of, fewer than `k` elements are ahead of. -/
def HasRoom (score : α → β) (k : ℕ) (wanted : α → Bool) (xs : List α) : Prop :=
  ∀ w ∈ xs, wanted w = true →
    xs.countP (fun a => wanted a && decide (Ahead score xs a w)) < k →
    xs.countP (fun a => decide (Ahead score xs a w)) < k

instance {k : ℕ} {wanted : α → Bool} : Decidable (HasRoom score k wanted xs) :=
  inferInstanceAs (Decidable (∀ w ∈ xs, wanted w = true →
    xs.countP (fun a => wanted a && decide (Ahead score xs a w)) < k →
    xs.countP (fun a => decide (Ahead score xs a w)) < k))

/-- **Best**: the wanted elements among the best `k` are the best `k` wanted ones
    exactly when these have room. -/
theorem best_iff (hnodup : xs.Nodup) {k : ℕ} {wanted : α → Bool} :
    Best score k (xs.filter wanted) (((ranked score xs).take k).filter wanted) ↔
      HasRoom score k wanted xs := by
  rw [best_iff_length]
  have hwanted : (xs.filter wanted).length = (ranked score xs).countP wanted := by
    rw [← List.countP_eq_length_filter, (@ranked_perm α β _ score xs).countP_eq]
  rw [hwanted, ← List.countP_eq_length_filter]
  constructor
  · intro hlength w hw hkind hfew
    obtain ⟨before, after, hranked⟩ := List.append_of_mem (@mem_ranked α β _ score xs w |>.mpr hw)
    have hall := count_ahead hnodup hranked (fun _ => true)
    simp only [Bool.true_and, List.countP_true] at hall
    rw [count_ahead hnodup hranked] at hfew
    rw [hall]
    by_contra hfull
    -- the best `k` are all before the element, and hold too few wanted ones
    rw [hranked, List.countP_append, List.countP_cons, if_pos hkind,
      List.take_append_of_le_length (by omega)] at hlength
    have hprefix : (before.take k).countP wanted ≤ before.countP wanted :=
      (List.take_sublist k before).countP_le
    omega
  · intro hroom
    by_contra hshort
    rw [not_le] at hshort
    have hsplit : (ranked score xs).countP wanted = ((ranked score xs).take k).countP wanted +
        ((ranked score xs).drop k).countP wanted := by
      rw [← List.countP_append, List.take_append_drop]
    -- the first wanted element that was cut off
    have hcut : ((ranked score xs).drop k).filter wanted ≠ [] := by
      intro hnil
      have hnone : ((ranked score xs).drop k).countP wanted = 0 := by
        rw [List.countP_eq_length_filter, hnil]
        rfl
      omega
    obtain ⟨w, rest, hfirst⟩ := List.exists_cons_of_ne_nil hcut
    obtain ⟨skipped, after, hdrop, hskipped, hkind, -⟩ := List.filter_eq_cons_iff.mp hfirst
    have hranked : ranked score xs = ((ranked score xs).take k ++ skipped) ++ w :: after := by
      rw [List.append_assoc, ← hdrop, List.take_append_drop]
    have hnone : skipped.countP wanted = 0 := by
      rw [List.countP_eq_zero]
      exact hskipped
    have hw : w ∈ xs := by
      rw [← @mem_ranked α β _ score xs w, hranked]
      simp
    have hall := count_ahead hnodup hranked (fun _ => true)
    have hsome := count_ahead hnodup hranked wanted
    simp only [Bool.true_and, List.countP_true, List.length_append] at hall
    rw [List.countP_append, hnone] at hsome
    have hlong : ((ranked score xs).take k).length = k := by
      rw [List.length_take]
      have hpositive : 0 < ((ranked score xs).drop k).length := by
        rw [hdrop, List.length_append, List.length_cons]
        omega
      rw [List.length_drop] at hpositive
      omega
    have hroom := hroom w hw hkind (by rw [hsome]; omega)
    rw [hall] at hroom
    omega

end

/-! ## Standing out -/

variable {α κ : Type} [LinearOrder κ] {f : α → κ} {floor : κ} {xs ys : List α} {a : α}

def bests (f : α → κ) (floor : κ) (xs : List α) : List α :=
  xs.filter (fun a => floor < f a ∧ ∀ b ∈ xs, f b ≤ f a)

theorem mem_bests : a ∈ bests f floor xs ↔ a ∈ xs ∧ floor < f a ∧ ∀ b ∈ xs, f b ≤ f a := by
  unfold bests
  rw [List.mem_filter, decide_eq_true_eq]

theorem bests_perm (h : xs.Perm ys) : (bests f floor xs).Perm (bests f floor ys) := by
  unfold bests
  have hsame : (fun a => decide (floor < f a ∧ ∀ b ∈ xs, f b ≤ f a)) =
      fun a => decide (floor < f a ∧ ∀ b ∈ ys, f b ≤ f a) := by
    funext a
    simp only [h.mem_iff]
  rw [hsame]
  exact h.filter _

theorem standout_perm (h : xs.Perm ys) :
    bests f floor xs = [a] ↔ bests f floor ys = [a] := by
  constructor
  · intro hone
    exact List.perm_singleton.mp ((bests_perm h).symm.trans (hone ▸ List.Perm.refl _))
  · intro hone
    exact List.perm_singleton.mp ((bests_perm h).trans (hone ▸ List.Perm.refl _))

theorem bests_eq_filter (h : a ∈ bests f floor xs) :
    bests f floor xs = xs.filter (fun b => f b = f a) := by
  obtain ⟨ha, hfloor, hbest⟩ := mem_bests.mp h
  unfold bests
  refine List.filter_congr (fun b hb => ?_)
  rw [decide_eq_decide]
  constructor
  · rintro ⟨_, hall⟩
    exact le_antisymm (hbest b hb) (hall a ha)
  · intro hsame
    rw [hsame]
    exact ⟨hfloor, hbest⟩

theorem count_scores (a : α) :
    (xs.map f).count (f a) = (xs.filter (fun b => f b = f a)).length := by
  rw [← List.countP_eq_length_filter, List.count, List.countP_map]
  refine List.countP_congr (fun b _ => ?_)
  simp

theorem standout_of_place {i : Nat} (hi : xs[i]? = some a) (hfloor : floor < f a)
    (hbest : ∀ b ∈ xs, f b ≤ f a) (honce : (xs.map f).count (f a) = 1) :
    bests f floor xs = [a] := by
  have hmem : a ∈ bests f floor xs := mem_bests.mpr ⟨List.mem_of_getElem? hi, hfloor, hbest⟩
  rw [count_scores, ← bests_eq_filter hmem, List.length_eq_one_iff] at honce
  obtain ⟨b, hb⟩ := honce
  rw [hb] at hmem ⊢
  rw [List.mem_singleton.mp hmem]

theorem place_of_standout (h : bests f floor xs = [a]) :
    floor < f a ∧ (∀ b ∈ xs, f b ≤ f a) ∧ (xs.map f).count (f a) = 1 ∧
      xs[(xs.map f).idxOf (f a)]? = some a := by
  have hmem : a ∈ bests f floor xs := h ▸ List.mem_cons_self
  obtain ⟨ha, hfloor, hbest⟩ := mem_bests.mp hmem
  have hone : xs.filter (fun b => f b = f a) = [a] := (bests_eq_filter hmem).symm.trans h
  refine ⟨hfloor, hbest, ?_, ?_⟩
  · rw [count_scores, hone]
    rfl
  · have hscore : f a ∈ xs.map f := List.mem_map_of_mem ha
    have hlt : (xs.map f).idxOf (f a) < xs.length := by
      have := List.idxOf_lt_length_of_mem hscore
      rwa [List.length_map] at this
    have hsame : f xs[(xs.map f).idxOf (f a)] = f a := by
      have hget := List.getElem_idxOf (List.idxOf_lt_length_of_mem hscore)
      rwa [List.getElem_map] at hget
    -- the element there scores alike, and there is one such element
    have hother : xs[(xs.map f).idxOf (f a)] ∈ xs.filter (fun b => f b = f a) :=
      List.mem_filter.mpr ⟨List.getElem_mem hlt, by simpa using hsame⟩
    rw [hone, List.mem_singleton] at hother
    rw [List.getElem?_eq_getElem hlt, hother]

end Framework
