import Mathlib.Data.List.Basic

/-! # Greedy packing

    Items are tried in order. One that clashes with what is kept is passed over, one
    that does not fit is dropped, and the packing stops when it is full.
-/

namespace Framework

variable {α : Type} (clash : α → α → Bool) (fits : α → Bool) (capacity : Nat)

def tryItem (kept : List α) (x : α) : List α := if fits x then kept ++ [x] else kept

def greedy : List α → List α → List α
  | [], kept => kept
  | x :: rest, kept =>
    if kept.any (clash x) then greedy rest kept
    else if capacity ≤ (tryItem fits kept x).length then tryItem fits kept x
    else greedy rest (tryItem fits kept x)

structure Packed (kept : List α) : Prop where
  fit : ∀ x ∈ kept, fits x = true
  apart : kept.Pairwise (fun x y => clash y x = false)

variable {clash fits capacity} {items kept : List α}

theorem packed_nil : Packed clash fits [] :=
  ⟨(fun _ h => by cases h), List.Pairwise.nil⟩

/-- **Step lemma**: an item that clashes with nothing may be tried. -/
theorem tryItem_packed {x : α} (h : Packed clash fits kept)
    (hfree : ¬ kept.any (clash x) = true) : Packed clash fits (tryItem fits kept x) := by
  unfold tryItem
  by_cases hx : fits x = true
  · rw [if_pos hx]
    refine ⟨?_, List.pairwise_append.mpr ⟨h.apart, List.pairwise_singleton _ _, ?_⟩⟩
    · intro y hy
      rcases List.mem_append.mp hy with hy | hy
      · exact h.fit y hy
      · rw [List.mem_singleton.mp hy]
        exact hx
    · intro y hy z hz
      rw [List.mem_singleton.mp hz]
      by_contra hclash
      rw [Bool.not_eq_false] at hclash
      exact hfree (List.any_eq_true.mpr ⟨y, hy, hclash⟩)
  · rw [if_neg hx]
    exact h

theorem tryItem_length_le {x : α} : (tryItem fits kept x).length ≤ kept.length + 1 := by
  unfold tryItem
  split
  · exact Nat.le_of_eq List.length_append
  · exact Nat.le_succ _

theorem greedy_packed (h : Packed clash fits kept) :
    Packed clash fits (greedy clash fits capacity items kept) := by
  induction items generalizing kept with
  | nil => exact h
  | cons x rest ih =>
    unfold greedy
    by_cases hclash : kept.any (clash x) = true
    · rw [if_pos hclash]
      exact ih h
    · rw [if_neg hclash]
      have hnext := tryItem_packed h hclash
      split
      · exact hnext
      · exact ih hnext

theorem mem_greedy {x : α} (h : x ∈ greedy clash fits capacity items kept) : x ∈ kept ∨ x ∈ items := by
  induction items generalizing kept with
  | nil => exact .inl h
  | cons y rest ih =>
    have htried : x ∈ tryItem fits kept y → x ∈ kept ∨ x ∈ y :: rest := by
      unfold tryItem
      intro hx
      split at hx
      · rcases List.mem_append.mp hx with hx | hx
        · exact .inl hx
        · rw [List.mem_singleton.mp hx]
          exact .inr List.mem_cons_self
      · exact .inl hx
    unfold greedy at h
    split at h
    · exact (ih h).imp_right (List.mem_cons_of_mem _)
    · split at h
      · exact htried h
      · rcases ih h with hx | hx
        · exact htried hx
        · exact .inr (List.mem_cons_of_mem _ hx)

theorem greedy_length_le (h : kept.length < capacity) :
    (greedy clash fits capacity items kept).length ≤ capacity := by
  induction items generalizing kept with
  | nil => exact Nat.le_of_lt h
  | cons x rest ih =>
    unfold greedy
    have hnext := @tryItem_length_le _ fits kept x
    split
    · exact ih h
    · split
      · omega
      · exact ih (by omega)

end Framework
