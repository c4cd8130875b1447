import Mathlib.Data.List.Basic

/-! # Squeezing blanks

    A list is squeezed by keeping of every run of blanks the first one, and none
    at the start. The squeezed list has the words of the list, a stretch of it
    comes from a stretch of the list with the same words, and but for one blank at
    the end it is its words joined by blanks.
-/

namespace Framework

variable {α : Type} (space : α → Bool) (blank : α)

/-- Whether an element is kept. `previous` tells that a blank was just read,
    `started` that something was kept. -/
def keeps (previous started : Bool) (x : α) : Bool := !space x || (!previous && started)

def squeeze : Bool → Bool → List α → List α
  | _, _, [] => []
  | previous, started, x :: rest =>
    if keeps space previous started x then
      (if space x then blank else x) :: squeeze (space x) (started || !space x) rest
    else squeeze (space x) (started || !space x) rest

def keptPlaces : Nat → Bool → Bool → List α → List Nat
  | _, _, _, [] => []
  | place, previous, started, x :: rest =>
    if keeps space previous started x then
      place :: keptPlaces (place + 1) (space x) (started || !space x) rest
    else keptPlaces (place + 1) (space x) (started || !space x) rest

variable {space blank} {place : Nat} {previous started : Bool} {xs : List α}

theorem keptPlaces_length : (keptPlaces space place previous started xs).length =
    (squeeze space blank previous started xs).length := by
  induction xs generalizing place previous started with
  | nil => rfl
  | cons x rest ih =>
    unfold keptPlaces squeeze
    by_cases hkept : keeps space previous started x = true
    · rw [if_pos hkept, if_pos hkept, List.length_cons, List.length_cons, ih]
    · rw [if_neg hkept, if_neg hkept, ih]

theorem keptPlaces_range {p : Nat} (h : p ∈ keptPlaces space place previous started xs) :
    place ≤ p ∧ p < place + xs.length := by
  induction xs generalizing place previous started with
  | nil => cases h
  | cons x rest ih =>
    rw [List.length_cons]
    unfold keptPlaces at h
    split at h
    · rcases List.mem_cons.mp h with heq | h
      · omega
      · have hrange := ih h
        omega
    · have hrange := ih h
      omega

/-! ## Stretches -/

theorem squeeze_drop {k o : Nat}
    (h : (keptPlaces space place previous started xs)[k]? = some (place + o)) :
    ∃ previous' started',
      (squeeze space blank previous started xs).drop k =
        squeeze space blank previous' started' (xs.drop o) ∧
      (keptPlaces space place previous started xs).drop k =
        keptPlaces space (place + o) previous' started' (xs.drop o) := by
  induction xs generalizing place previous started k o with
  | nil => cases h
  | cons x rest ih =>
    by_cases hkept : keeps space previous started x = true
    · have hplaces : keptPlaces space place previous started (x :: rest) =
          place :: keptPlaces space (place + 1) (space x) (started || !space x) rest := by
        rw [keptPlaces, if_pos hkept]
      cases k with
      | zero =>
        rw [hplaces, List.getElem?_cons_zero, Option.some.injEq] at h
        obtain rfl : o = 0 := by omega
        exact ⟨previous, started, rfl, rfl⟩
      | succ k =>
        rw [hplaces, List.getElem?_cons_succ] at h
        have hrange := (keptPlaces_range (List.mem_of_getElem? h)).1
        obtain ⟨o, rfl⟩ : ∃ o', o = o' + 1 := ⟨o - 1, by omega⟩
        rw [show place + (o + 1) = place + 1 + o by omega] at h ⊢
        obtain ⟨previous', started', hdrop, hplaces'⟩ := ih h
        refine ⟨previous', started', ?_, ?_⟩
        · rw [squeeze, if_pos hkept, List.drop_succ_cons, List.drop_succ_cons, hdrop]
        · rw [hplaces, List.drop_succ_cons, List.drop_succ_cons, hplaces']
    · have hplaces : keptPlaces space place previous started (x :: rest) =
          keptPlaces space (place + 1) (space x) (started || !space x) rest := by
        rw [keptPlaces, if_neg hkept]
      rw [hplaces] at h ⊢
      have hrange := (keptPlaces_range (List.mem_of_getElem? h)).1
      obtain ⟨o, rfl⟩ : ∃ o', o = o' + 1 := ⟨o - 1, by omega⟩
      rw [show place + (o + 1) = place + 1 + o by omega] at h ⊢
      rw [squeeze, if_neg hkept, List.drop_succ_cons]
      exact ih h

theorem squeeze_take {n e : Nat}
    (h : (keptPlaces space place previous started xs)[n]? = some (place + e)) :
    (squeeze space blank previous started xs).take (n + 1) =
      squeeze space blank previous started (xs.take (e + 1)) := by
  induction xs generalizing place previous started n e with
  | nil => cases h
  | cons x rest ih =>
    rw [List.take_succ_cons]
    unfold squeeze
    by_cases hkept : keeps space previous started x = true
    · rw [keptPlaces, if_pos hkept] at h
      rw [if_pos hkept, if_pos hkept, List.take_succ_cons]
      cases n with
      | zero =>
        rw [List.getElem?_cons_zero, Option.some.injEq] at h
        obtain rfl : e = 0 := by omega
        rfl
      | succ n =>
        rw [List.getElem?_cons_succ] at h
        have hrange := (keptPlaces_range (List.mem_of_getElem? h)).1
        obtain ⟨e, rfl⟩ : ∃ e', e = e' + 1 := ⟨e - 1, by omega⟩
        rw [show place + (e + 1) = place + 1 + e by omega] at h
        rw [ih h]
    · rw [keptPlaces, if_neg hkept] at h
      rw [if_neg hkept, if_neg hkept]
      have hrange := (keptPlaces_range (List.mem_of_getElem? h)).1
      obtain ⟨e, rfl⟩ : ∃ e', e = e' + 1 := ⟨e - 1, by omega⟩
      rw [show place + (e + 1) = place + 1 + e by omega] at h
      exact ih h

def wordsOf (space : α → Bool) (xs : List α) : List (List α) :=
  (xs.splitOnP space).filter (· ≠ [])

def Alike (space : α → Bool) (xs ys : List α) : Prop :=
  ∃ first rest rest', xs.splitOnP space = first :: rest ∧ ys.splitOnP space = first :: rest' ∧
    rest.filter (· ≠ []) = rest'.filter (· ≠ [])

theorem Alike.words {ys : List α} (h : Alike space xs ys) : wordsOf space xs = wordsOf space ys := by
  obtain ⟨first, rest, rest', hxs, hys, hsame⟩ := h
  unfold wordsOf
  rw [hxs, hys, List.filter_cons, List.filter_cons, hsame]

theorem splitOnP_word {x : α} (hx : space x = false) {first : List α} {rest : List (List α)}
    (h : xs.splitOnP space = first :: rest) :
    (x :: xs).splitOnP space = (x :: first) :: rest := by
  rw [List.splitOnP_cons_eq_if_modifyHead, if_neg (by simp [hx]), h, List.modifyHead_cons]

theorem splitOnP_space {x : α} (hx : space x = true) :
    (x :: xs).splitOnP space = [] :: xs.splitOnP space := by
  rw [List.splitOnP_cons_eq_if_modifyHead, if_pos hx]

theorem wordsOf_space {x : α} (hx : space x = true) :
    wordsOf space (x :: xs) = wordsOf space xs := by
  unfold wordsOf
  rw [splitOnP_space hx, List.filter_cons_of_neg (by simp)]

theorem wordsOf_eq_nil : wordsOf space xs = [] ↔ ∀ x ∈ xs, space x = true := by
  induction xs with
  | nil => simp [wordsOf, List.splitOnP_nil]
  | cons x rest ih =>
    by_cases hx : space x = true
    · rw [wordsOf_space hx, ih, List.forall_mem_cons]
      exact (and_iff_right hx).symm
    · obtain ⟨first, pieces, hsplit⟩ :=
        List.exists_cons_of_ne_nil (List.splitOnP_ne_nil space rest)
      rw [wordsOf, splitOnP_word (by simpa using hx) hsplit, List.filter_cons_of_pos (by simp)]
      simp [hx]

theorem Alike.cons {ys : List α} (h : Alike space xs ys) {x : α} (hx : space x = false) :
    Alike space (x :: xs) (x :: ys) := by
  obtain ⟨first, rest, rest', hxs, hys, hsame⟩ := h
  exact ⟨x :: first, rest, rest', splitOnP_word hx hxs, splitOnP_word hx hys, hsame⟩

/-- **Words**: squeezing keeps them, and within a word also what is left of it. -/
theorem squeeze_words (hblank : space blank = true) :
    wordsOf space (squeeze space blank previous started xs) = wordsOf space xs ∧
    (previous = false → started = true →
      Alike space (squeeze space blank previous started xs) xs) := by
  induction xs generalizing previous started with
  | nil =>
    refine ⟨rfl, fun _ _ => ?_⟩
    exact ⟨[], [], [], List.splitOnP_nil, List.splitOnP_nil, rfl⟩
  | cons x rest ih =>
    unfold squeeze
    by_cases hx : space x = true
    · have hwords := (@ih (space x) (started || !space x)).1
      by_cases hkept : keeps space previous started x = true
      · -- the first blank of a run
        rw [if_pos hkept, if_pos hx]
        have halike : Alike space (blank :: squeeze space blank (space x) (started || !space x) rest)
            (x :: rest) :=
          ⟨[], _, _, splitOnP_space hblank, splitOnP_space hx, hwords⟩
        exact ⟨halike.words, fun _ _ => halike⟩
      · rw [if_neg hkept, wordsOf_space hx]
        refine ⟨hwords, fun hprevious hstarted => absurd ?_ hkept⟩
        rw [keeps, hprevious, hstarted, hx]
        rfl
    · have hx : space x = false := by simpa using hx
      have hkept : keeps space previous started x = true := by rw [keeps, hx]; rfl
      rw [if_pos hkept, if_neg (by simp [hx])]
      have halike : Alike space (x :: squeeze space blank (space x) (started || !space x) rest)
          (x :: rest) :=
        ((@ih (space x) (started || !space x)).2 hx (by simp [hx])).cons hx
      exact ⟨halike.words, fun _ _ => halike⟩

def joined (space : α → Bool) (blank : α) (xs : List α) : List α :=
  [blank].intercalate (wordsOf space xs)

def following (blank : α) (words : List (List α)) : List α :=
  if words = [] then [] else blank :: [blank].intercalate words

theorem intercalate_following (word : List α) (words : List (List α)) :
    [blank].intercalate (word :: words) = word ++ following blank words := by
  unfold following
  cases words with
  | nil => simp [List.intercalate]
  | cons next rest => simp [List.intercalate]

theorem joined_word {x : α} (hx : space x = false) {first : List α} {rest : List (List α)}
    (h : xs.splitOnP space = first :: rest) :
    joined space blank (x :: xs) = x :: (first ++ following blank (rest.filter (· ≠ []))) := by
  unfold joined wordsOf
  rw [splitOnP_word hx h, List.filter_cons_of_pos (by simp), intercalate_following, List.cons_append]

theorem joined_eq_nil : joined space blank xs = [] ↔ wordsOf space xs = [] := by
  unfold joined
  constructor
  · intro h
    cases hwords : wordsOf space xs with
    | nil => rfl
    | cons word words =>
      have hmem : word ∈ wordsOf space xs := by
        rw [hwords]
        exact List.mem_cons_self
      rw [hwords, intercalate_following, List.append_eq_nil_iff] at h
      -- a word is not empty
      exact absurd h.1 (by simpa using (List.mem_filter.mp hmem).2)
  · intro h
    rw [h]
    rfl

theorem following_of_joined {out : List α} (h : out = joined space blank xs ∨
    joined space blank xs ≠ [] ∧ out = joined space blank xs ++ [blank]) :
    blank :: out = following blank (wordsOf space xs) ∨
      blank :: out = following blank (wordsOf space xs) ++ [blank] := by
  unfold following
  by_cases hnone : wordsOf space xs = []
  · rw [if_pos hnone]
    rcases h with heq | ⟨hne, -⟩
    · right
      rw [heq, joined_eq_nil.mpr hnone]
      rfl
    · exact absurd (joined_eq_nil.mpr hnone) hne
  · rw [if_neg hnone]
    rcases h with heq | ⟨-, heq⟩
    · exact .inl (by rw [heq, joined])
    · exact .inr (by rw [heq, joined, List.cons_append])

theorem squeeze_joined :
    ((previous = true ∨ started = false) →
      squeeze space blank previous started xs = joined space blank xs ∨
      joined space blank xs ≠ [] ∧
        squeeze space blank previous started xs = joined space blank xs ++ [blank]) ∧
    (previous = false → started = true → ∀ first rest, xs.splitOnP space = first :: rest →
      squeeze space blank previous started xs =
        first ++ following blank (rest.filter (· ≠ [])) ∨
      squeeze space blank previous started xs =
        first ++ following blank (rest.filter (· ≠ [])) ++ [blank]) := by
  induction xs generalizing previous started with
  | nil =>
    refine ⟨fun _ => .inl rfl, fun _ _ first rest h => .inl ?_⟩
    rw [List.splitOnP_nil] at h
    obtain ⟨rfl, rfl⟩ := List.cons.inj h
    rfl
  | cons x xs ih =>
    unfold squeeze
    by_cases hx : space x = true
    · have hnext := (@ih (space x) (started || !space x)).1 (.inl hx)
      have hjoined : joined space blank (x :: xs) = joined space blank xs := by
        rw [joined, wordsOf_space hx, joined]
      constructor
      · intro hout
        have hdropped : ¬ keeps space previous started x = true := by
          rw [keeps, hx]
          rcases hout with h | h <;> simp [h]
        rw [if_neg hdropped, hjoined]
        exact hnext
      · intro hprevious hstarted first rest hsplit
        have hkept : keeps space previous started x = true := by
          rw [keeps, hprevious, hstarted]
          simp
        rw [splitOnP_space hx] at hsplit
        obtain ⟨rfl, rfl⟩ := List.cons.inj hsplit
        rw [if_pos hkept, if_pos hx, List.nil_append]
        exact following_of_joined hnext
    · have hx : space x = false := by simpa using hx
      have hkept : keeps space previous started x = true := by rw [keeps, hx]; rfl
      obtain ⟨first, rest, hsplit⟩ := List.exists_cons_of_ne_nil (List.splitOnP_ne_nil space xs)
      have hnext := (@ih (space x) (started || !space x)).2 hx (by simp [hx])
        first rest hsplit
      rw [if_pos hkept, if_neg (by simp [hx]), joined_word hx hsplit]
      constructor
      · intro _
        rcases hnext with heq | heq
        · exact .inl (by rw [heq])
        · exact .inr ⟨by simp, by rw [heq]; rfl⟩
      · intro _ _ first' rest' hsplit'
        rw [splitOnP_word hx hsplit] at hsplit'
        obtain ⟨rfl, rfl⟩ := List.cons.inj hsplit'
        rcases hnext with heq | heq
        · exact .inl (by rw [heq]; rfl)
        · exact .inr (by rw [heq]; rfl)

theorem squeeze_all : squeeze space blank false false xs = joined space blank xs ∨
    squeeze space blank false false xs = joined space blank xs ++ [blank] :=
  (squeeze_joined.1 (.inr rfl)).imp_right And.right

theorem wordsOf_append_blank (hblank : space blank = true) :
    wordsOf space (xs ++ [blank]) = wordsOf space xs := by
  unfold wordsOf
  rw [List.splitOnP_append_cons _ _ hblank, List.splitOnP_nil, List.filter_append]
  simp

theorem words_stretch_append (hblank : space blank = true) (p m : Nat) :
    wordsOf space (((xs ++ [blank]).drop p).take m) = wordsOf space ((xs.drop p).take m) := by
  by_cases hp : p ≤ xs.length
  · rw [List.drop_append_of_le_length hp, List.take_append]
    cases m - (xs.drop p).length with
    | zero => rw [List.take_zero, List.append_nil]
    | succ k => rw [List.take_succ_cons, List.take_nil, wordsOf_append_blank hblank]
  · have hlong : (xs ++ [blank]).drop p = [] := by
      apply List.drop_eq_nil_of_le
      rw [List.length_append, List.length_singleton]
      omega
    rw [hlong, List.drop_eq_nil_of_le (by omega)]

/-- **Stretch**: the part of the list between two kept places has the words of the
    part between the same two counts of its joined words. -/
theorem words_between (hblank : space blank = true) {p n i j : Nat} (hpn : p ≤ n)
    (hi : (keptPlaces space 0 false false xs)[p]? = some i)
    (hj : (keptPlaces space 0 false false xs)[n]? = some j) :
    i ≤ j ∧ wordsOf space ((xs.drop i).take (j + 1 - i)) =
      wordsOf space (((joined space blank xs).drop p).take (n + 1 - p)) := by
  have hi' : (keptPlaces space 0 false false xs)[p]? = some (0 + i) := by rw [hi, Nat.zero_add]
  obtain ⟨previous, started, hdrop, hplaces⟩ := @squeeze_drop α space blank _ _ _ _ _ _ hi'
  -- counted from the first place, the second one is a kept place of the rest
  have hrest : (keptPlaces space i previous started (xs.drop i))[n - p]? = some j := by
    rw [Nat.zero_add] at hplaces
    rw [← hplaces, List.getElem?_drop, show p + (n - p) = n by omega]
    exact hj
  have hij : i ≤ j := (keptPlaces_range (List.mem_of_getElem? hrest)).1
  have htake : (squeeze space blank previous started (xs.drop i)).take (n - p + 1) =
      squeeze space blank previous started ((xs.drop i).take (j - i + 1)) :=
    squeeze_take (by rw [hrest]; congr 1; omega)
  refine ⟨hij, ?_⟩
  rw [show j + 1 - i = j - i + 1 by omega, show n + 1 - p = n - p + 1 by omega,
    ← (squeeze_words hblank).1, ← htake, ← hdrop]
  rcases @squeeze_all α space blank xs with hall | hall
  · rw [hall]
  · rw [hall, words_stretch_append hblank]

end Framework
