import Mathlib.Data.List.Sort

/-! # Stable sorting by classes

    Insertion sort keeps the order of elements that compare equal. When the
    elements of one class go before all others, sorting takes the class out to
    the front, in its old order, and sorts the rest.
-/

namespace Framework

variable {α : Type} {r : α → α → Prop} [DecidableRel r]

/-- An element that goes after all of `xs` is inserted behind them. -/
theorem orderedInsert_append {a : α} {xs : List α} (h : ∀ x ∈ xs, ¬ r a x) (ys : List α) :
    (xs ++ ys).orderedInsert r a = xs ++ ys.orderedInsert r a := by
  induction xs with
  | nil => rfl
  | cons x xs ih =>
    have htail : ∀ y ∈ xs, ¬ r a y := fun y hy => h y (List.mem_cons_of_mem x hy)
    rw [List.cons_append, List.orderedInsert_of_not_le r _ (h x List.mem_cons_self), ih htail,
      List.cons_append]

theorem orderedInsert_front {a : α} {l : List α} (h : ∀ x ∈ l, r a x) :
    l.orderedInsert r a = a :: l := by
  cases l with
  | nil => rfl
  | cons x l => exact List.orderedInsert_cons_of_le r l (h x List.mem_cons_self)

/-- **Stable split**: a class that goes before all others ends up in front, in
    its old order. -/
theorem insertionSort_split {p : α → Bool} {l : List α}
    (hfirst : ∀ a ∈ l, ∀ b ∈ l, p a = true → r a b)
    (hlast : ∀ a ∈ l, ∀ b ∈ l, p a = false → p b = true → ¬ r a b) :
    l.insertionSort r = l.filter p ++ (l.filter (fun a => !p a)).insertionSort r := by
  induction l with
  | nil => rfl
  | cons a l ih =>
    have hsorted := ih
      (fun x hx y hy => hfirst x (List.mem_cons_of_mem a hx) y (List.mem_cons_of_mem a hy))
      (fun x hx y hy => hlast x (List.mem_cons_of_mem a hx) y (List.mem_cons_of_mem a hy))
    rw [List.insertionSort_cons, hsorted]
    cases hp : p a with
    | true =>
      have hfront : ∀ x ∈ l.filter p ++ (l.filter (fun a => !p a)).insertionSort r, r a x := by
        intro x hx
        rw [← hsorted, List.mem_insertionSort] at hx
        exact hfirst a List.mem_cons_self x (List.mem_cons_of_mem a hx) hp
      rw [orderedInsert_front hfront, List.filter_cons_of_pos hp,
        List.filter_cons_of_neg (by simp [hp]), List.cons_append]
    | false =>
      have hbehind : ∀ x ∈ l.filter p, ¬ r a x := by
        intro x hx
        obtain ⟨hmem, hpx⟩ := List.mem_filter.mp hx
        exact hlast a List.mem_cons_self x (List.mem_cons_of_mem a hmem) hp hpx
      rw [orderedInsert_append hbehind, List.filter_cons_of_neg (by simp [hp]),
        List.filter_cons_of_pos (by simp [hp]), List.insertionSort_cons]

theorem insertionSort_of_all {l : List α} (h : ∀ a ∈ l, ∀ b ∈ l, r a b) : l.insertionSort r = l :=
  List.Pairwise.insertionSort_eq (List.pairwise_of_forall_mem_list h)

theorem insertionSort_first [Std.Total r] [IsTrans α r] {l : List α} {a : α}
    (h : (l.insertionSort r).head? = some a) : a ∈ l ∧ ∀ b ∈ l, r a b := by
  have hsorted := List.pairwise_insertionSort r l
  have hmem : ∀ b, b ∈ l.insertionSort r ↔ b ∈ l := fun b => List.mem_insertionSort r
  cases hlist : l.insertionSort r with
  | nil =>
    rw [hlist] at h
    cases h
  | cons x rest =>
    rw [hlist] at h hsorted hmem
    obtain rfl : x = a := Option.some.inj h
    refine ⟨(hmem x).mp List.mem_cons_self, ?_⟩
    intro b hb
    rcases List.mem_cons.mp ((hmem b).mpr hb) with rfl | hrest
    · rcases Std.Total.total (r := r) b b with hrefl | hrefl <;> exact hrefl
    · exact List.rel_of_pairwise_cons hsorted hrest

theorem pairwise_insertionSort_key {β : Type} [LinearOrder β] (key : α → β) (l : List α) :
    (l.insertionSort (fun a b => key a ≤ key b)).Pairwise (fun a b => key a ≤ key b) := by
  have : Std.Total (fun a b : α => key a ≤ key b) := ⟨fun a b => le_total (key a) (key b)⟩
  have : IsTrans α (fun a b => key a ≤ key b) := ⟨fun _ _ _ h h' => le_trans h h'⟩
  exact List.pairwise_insertionSort _ _

theorem insertionSort_head? [Std.Total r] [IsTrans α r] {l : List α} {a : α} (ha : a ∈ l)
    (hfirst : ∀ b ∈ l, b ≠ a → ¬ r b a) : (l.insertionSort r).head? = some a := by
  have hsorted := List.pairwise_insertionSort r l
  have hmem : a ∈ l.insertionSort r := (List.mem_insertionSort r).mpr ha
  match hlist : l.insertionSort r with
  | [] =>
    rw [hlist] at hmem
    cases hmem
  | x :: rest =>
    rw [hlist] at hmem hsorted
    have hx : x ∈ l := (List.mem_insertionSort r).mp (hlist ▸ List.mem_cons_self)
    rcases List.mem_cons.mp hmem with rfl | hrest
    · rfl
    · by_contra hne
      have hxa : x ≠ a := fun h => hne (by rw [h]; rfl)
      exact hfirst x hx hxa (List.rel_of_pairwise_cons hsorted hrest)

end Framework
