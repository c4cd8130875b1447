import Mathlib.Data.List.Basic
import Mathlib.Data.List.Forall2
import Mathlib.Order.WithBot

/-! # Shortlists

    A shortlist is what a threshold leaves of the first so many. A shortlist may be
    cut once more and serve where another one is asked for.

    Lists are also searched one after the other for a first match, say every edition
    of a list that was drawn up more than once. The earliest list with a match
    decides then, and so does the order in it. So it is with tiers, which are searched
    for the first one that covers a value; a tier without a ceiling covers every value.
-/

namespace Framework

section

variable {α : Type} {xs : List α} {k₁ k₂ : Nat} {p₁ p₂ : α → Bool}

/-- What `p` leaves of the first `k`. -/
def shortlist (k : Nat) (p : α → Bool) (xs : List α) : List α := (xs.take k).filter p

theorem shortlist_length_le : (shortlist k₁ p₁ xs).length ≤ k₁ :=
  Nat.le_trans (List.length_filter_le _ _) (List.length_take_le _ _)

theorem shortlist_eq_filter
    (h : ∀ n x, xs[n]? = some x → ((n < k₁ ∧ p₁ x = true) ↔ p₂ x = true)) :
    shortlist k₁ p₁ xs = xs.filter p₂ := by
  induction xs generalizing k₁ with
  | nil => simp [shortlist]
  | cons x xs ih =>
    have hhead := h 0 x rfl
    have htail : ∀ n y, xs[n]? = some y → ((n < k₁ - 1 ∧ p₁ y = true) ↔ p₂ y = true) := by
      intro n y hy
      rw [← h (n + 1) y hy]
      exact and_congr_left' (by omega)
    unfold shortlist at ih ⊢
    cases k₁ with
    | zero =>
      -- nothing is listed, and nothing passes the other threshold
      have hnone : ¬ p₂ x = true := fun hp => absurd (hhead.mpr hp).1 (Nat.lt_irrefl 0)
      rw [List.filter_cons_of_neg hnone, ← @ih 0 htail]
      rfl
    | succ k =>
      have hrest : (xs.take k).filter p₁ = xs.filter p₂ := ih htail
      rw [List.take_succ_cons, List.filter_cons, List.filter_cons, hrest]
      by_cases hp : p₁ x = true
      · rw [if_pos hp, if_pos (hhead.mp ⟨Nat.succ_pos k, hp⟩)]
      · rw [if_neg hp, if_neg (fun hq => hp (hhead.mpr hq).2)]

/-- **Serving**: the first shortlist, cut to the second depth, is the second one when
    the two judge the first places alike, and what the first lists beyond the second
    depth does not move up. -/
theorem shortlist_serves
    (hfirst : ∀ n x, xs[n]? = some x → n < k₂ → ((n < k₁ ∧ p₁ x = true) ↔ p₂ x = true))
    (hlater : ∀ n x, xs[n]? = some x → k₂ ≤ n → n < k₁ → p₁ x = true →
      ∀ m y, xs[m]? = some y → m < k₂ → p₂ y = true) :
    (shortlist k₁ p₁ xs).take k₂ = shortlist k₂ p₂ xs := by
  have hplace : ∀ {n : Nat} {x : α}, (xs.take k₂)[n]? = some x → n < k₂ ∧ xs[n]? = some x := by
    intro n x hx
    rw [List.getElem?_take] at hx
    split at hx
    · next hn => exact ⟨hn, hx⟩
    · cases hx
  have hhead : shortlist k₁ p₁ (xs.take k₂) = (xs.take k₂).filter p₂ :=
    shortlist_eq_filter (fun n x hx => hfirst n x (hplace hx).2 (hplace hx).1)
  -- the first shortlist, up to the second depth and beyond it
  have hsplit : shortlist k₁ p₁ xs = (xs.take k₂).filter p₂ ++
      shortlist (k₁ - (xs.take k₂).length) p₁ (xs.drop k₂) := by
    rw [← hhead]
    unfold shortlist
    rw [← List.filter_append, ← List.take_append, List.take_append_drop]
  rw [hsplit]
  by_cases hbeyond : shortlist (k₁ - (xs.take k₂).length) p₁ (xs.drop k₂) = []
  · rw [hbeyond, List.append_nil]
    exact List.take_of_length_le shortlist_length_le
  · -- something is listed beyond, so that nothing before it was left out
    obtain ⟨x, hx⟩ := List.exists_mem_of_ne_nil _ hbeyond
    obtain ⟨hmem, hp⟩ := List.mem_filter.mp hx
    obtain ⟨n, hn⟩ := List.mem_iff_getElem?.mp hmem
    rw [List.getElem?_take] at hn
    split at hn
    · next hlow =>
      rw [List.getElem?_drop] at hn
      have hlong : k₂ + n < xs.length := (List.getElem?_eq_some_iff.mp hn).1
      have hlength : (xs.take k₂).length = k₂ := by
        rw [List.length_take]
        omega
      have hall : (xs.take k₂).filter p₂ = xs.take k₂ := by
        rw [List.filter_eq_self]
        intro y hy
        obtain ⟨m, hm⟩ := List.mem_iff_getElem?.mp hy
        exact hlater (k₂ + n) x hn (by omega) (by omega) hp m y (hplace hm).2 (hplace hm).1
      unfold shortlist
      rw [hall, List.take_left' hlength]
    · cases hn

end

/-! ## The first match of several lists -/

section

variable {α : Type} {p : α → Bool} {lists lists' : List (List α)} {x y : α}

def firstMatch (p : α → Bool) (lists : List (List α)) : Option α := lists.flatten.find? p

def deciding (p : α → Bool) (lists : List (List α)) : Option (List α) :=
  lists.find? (fun l => l.any p)

theorem firstMatch_cons {l : List α} : firstMatch p (l :: lists) =
    if l.any p then l.find? p else firstMatch p lists := by
  unfold firstMatch
  rw [List.flatten_cons, List.find?_append]
  by_cases h : l.any p = true
  · rw [if_pos h]
    obtain ⟨x, hx, hp⟩ := List.any_eq_true.mp h
    have hsome : (l.find? p).isSome = true := List.find?_isSome.mpr ⟨x, hx, hp⟩
    rw [Option.or_of_isSome hsome]
  · have hnone : l.find? p = none := by
      rw [List.find?_eq_none]
      exact fun x hx hp => h (List.any_eq_true.mpr ⟨x, hx, hp⟩)
    rw [if_neg h, hnone, Option.none_or]

theorem deciding_cons {l : List α} : deciding p (l :: lists) =
    if l.any p then some l else deciding p lists := by
  unfold deciding
  rw [List.find?_cons]
  by_cases h : l.any p = true
  · rw [if_pos h, h]
  · rw [if_neg h, Bool.eq_false_iff.mpr h]

theorem firstMatch_deciding (h : firstMatch p lists = some x) :
    ∃ l, deciding p lists = some l ∧ x ∈ l ∧ p x = true := by
  induction lists with
  | nil => cases h
  | cons l lists ih =>
    rw [firstMatch_cons] at h
    rw [deciding_cons]
    by_cases hl : l.any p = true
    · rw [if_pos hl] at h ⊢
      exact ⟨l, rfl, List.mem_of_find?_eq_some h, List.find?_some h⟩
    · rw [if_neg hl] at h ⊢
      exact ih h

theorem firstMatch_of_deciding {l : List α} (h : deciding p lists = some l) :
    ∃ x, firstMatch p lists = some x := by
  unfold deciding at h
  have hany := List.find?_some h
  obtain ⟨x, hx, hp⟩ := List.any_eq_true.mp hany
  have hmem : x ∈ lists.flatten := List.mem_flatten.mpr ⟨l, List.mem_of_find?_eq_some h, hx⟩
  exact Option.isSome_iff_exists.mp (List.find?_isSome.mpr ⟨x, hmem, hp⟩)

theorem firstMatch_reordered (hperm : List.Forall₂ List.Perm lists lists')
    (hone : ∀ l, deciding p lists = some l → ∀ x ∈ l, ∀ y ∈ l, p x = true → p y = true → x = y) :
    firstMatch p lists' = firstMatch p lists := by
  induction hperm with
  | nil => rfl
  | @cons l l' lists lists' hl hrest ih =>
    have hany : l'.any p = l.any p := by
      rw [Bool.eq_iff_iff, List.any_eq_true, List.any_eq_true]
      exact ⟨fun ⟨x, hx, hp⟩ => ⟨x, hl.mem_iff.mpr hx, hp⟩,
        fun ⟨x, hx, hp⟩ => ⟨x, hl.mem_iff.mp hx, hp⟩⟩
    rw [deciding_cons] at hone
    rw [firstMatch_cons, firstMatch_cons, hany]
    by_cases h : l.any p = true
    · rw [if_pos h, if_pos h]
      obtain ⟨x, hx⟩ := Option.isSome_iff_exists.mp
        (List.find?_isSome.mpr (List.any_eq_true.mp (hany.trans h)))
      obtain ⟨y, hy⟩ := Option.isSome_iff_exists.mp
        (List.find?_isSome.mpr (List.any_eq_true.mp h))
      have hsame : x = y := hone l (if_pos h) x (hl.mem_iff.mpr (List.mem_of_find?_eq_some hx))
        y (List.mem_of_find?_eq_some hy) (List.find?_some hx) (List.find?_some hy)
      rw [hx, hy, hsame]
    · rw [if_neg h, if_neg h]
      rw [if_neg h] at hone
      exact ih hone

/-! ### Any match can be the first -/

variable [DecidableEq α]

def favour (y : α) (l : List α) : List α :=
  l.filter (fun x => decide (x = y)) ++ l.filter (fun x => !decide (x = y))

theorem favour_perm (y : α) (l : List α) : (favour y l).Perm l := List.filter_append_perm _ l

theorem find?_favour {l : List α} (hy : y ∈ l) (hp : p y = true) :
    (favour y l).find? p = some y := by
  have hfront : (l.filter (fun x => decide (x = y))).find? p = some y := by
    have hmem : y ∈ l.filter (fun x => decide (x = y)) :=
      List.mem_filter.mpr ⟨hy, decide_eq_true rfl⟩
    obtain ⟨x, hx⟩ := Option.isSome_iff_exists.mp (List.find?_isSome.mpr ⟨y, hmem, hp⟩)
    have hxy : x = y :=
      of_decide_eq_true (List.mem_filter.mp (List.mem_of_find?_eq_some hx)).2
    rw [hx, hxy]
  unfold favour
  rw [List.find?_append, hfront, Option.some_or]

theorem firstMatch_favoured {l : List α} (h : deciding p lists = some l) (hy : y ∈ l)
    (hp : p y = true) : firstMatch p (lists.map (favour y)) = some y := by
  induction lists with
  | nil => cases h
  | cons k lists ih =>
    have hany : (favour y k).any p = k.any p := by
      rw [Bool.eq_iff_iff, List.any_eq_true, List.any_eq_true]
      exact ⟨fun ⟨x, hx, hq⟩ => ⟨x, (favour_perm y k).mem_iff.mp hx, hq⟩,
        fun ⟨x, hx, hq⟩ => ⟨x, (favour_perm y k).mem_iff.mpr hx, hq⟩⟩
    rw [deciding_cons] at h
    rw [List.map_cons, firstMatch_cons, hany]
    by_cases hk : k.any p = true
    · rw [if_pos hk] at h ⊢
      obtain rfl := Option.some.inj h
      exact find?_favour hy hp
    · rw [if_neg hk] at h ⊢
      exact ih h

end

/-! ## Tiers -/

variable {τ β : Type} [LinearOrder β]

/-- The tier covers the value, and none that does has a lower ceiling. -/
structure Tightest (ceiling : τ → WithTop β) (ts : List τ) (v : β) (t : τ) : Prop where
  mem : t ∈ ts
  covers : v ≤ ceiling t
  least : ∀ u ∈ ts, v ≤ ceiling u → ceiling t ≤ ceiling u

theorem Tightest.mono {ceiling : τ → WithTop β} {ts : List τ} {v w : β} {t u : τ}
    (ht : Tightest ceiling ts v t) (hu : Tightest ceiling ts w u) (hvw : v ≤ w) :
    ceiling t ≤ ceiling u := by
  have hcovers : (v : WithTop β) ≤ ceiling u := (WithTop.coe_le_coe.mpr hvw).trans hu.covers
  exact ht.least u hu.mem hcovers

def Ascending (ceiling : τ → WithTop β) (ts : List τ) : Prop :=
  ∀ before t after, ts = before ++ t :: after →
    (∀ u ∈ before, ceiling u ≤ ceiling t) ∨ ∃ u ∈ before, ceiling u = ceiling t

variable {ceiling : τ → WithTop β} {ts : List τ} {v : β} {t : τ}

theorem find_covering_iff : ts.find? (fun u => (v : WithTop β) ≤ ceiling u) = some t ↔
    v ≤ ceiling t ∧ ∃ before after, ts = before ++ t :: after ∧
      ∀ u ∈ before, ceiling u < v := by
  simp [List.find?_eq_some_iff_append]

/-- **Ascending**: the first that covers is the tightest. -/
theorem Ascending.tightest (h : Ascending ceiling ts)
    (hfirst : ts.find? (fun u => (v : WithTop β) ≤ ceiling u) = some t) :
    Tightest ceiling ts v t := by
  obtain ⟨hcovers, before, after, rfl, hbefore⟩ := find_covering_iff.mp hfirst
  refine ⟨by simp, hcovers, ?_⟩
  by_contra hnot
  push Not at hnot
  obtain ⟨u, hu, hcu, hlt⟩ := hnot
  -- the first of the lower ceilings that cover the value stands behind `t`
  have hafter : u ∈ after := by
    rcases List.mem_append.mp hu with hmem | hmem
    · exact absurd hcu (not_le.mpr (hbefore u hmem))
    · rcases List.mem_cons.mp hmem with rfl | hmem
      · exact absurd hlt (lt_irrefl _)
      · exact hmem
  obtain ⟨x, hx⟩ : ∃ x, after.find? (fun u => decide (v ≤ ceiling u ∧ ceiling u < ceiling t)) =
      some x := by
    rw [← Option.isSome_iff_exists, List.find?_isSome]
    exact ⟨u, hafter, by simp [hcu, hlt]⟩
  obtain ⟨hlower, between, rest, rfl, hbetween⟩ := List.find?_eq_some_iff_append.mp hx
  obtain ⟨hcx, hxt⟩ := of_decide_eq_true hlower
  rcases h (before ++ t :: between) x rest (by simp) with hall | ⟨z, hz, hsame⟩
  · exact absurd (hall t (by simp)) (not_le.mpr hxt)
  · rcases List.mem_append.mp hz with hmem | hmem
    · have hlow := hbefore z hmem
      rw [hsame] at hlow
      exact absurd hcx (not_le.mpr hlow)
    · rcases List.mem_cons.mp hmem with rfl | hmem
      · exact absurd hxt (by rw [hsame]; exact lt_irrefl _)
      · have hother := hbetween z hmem
        rw [hsame] at hother
        simp [hcx, hxt] at hother

/-- **Tightest**: the first that covers is the tightest for every value, exactly when
    the ceilings ascend. -/
theorem first_tightest_iff :
    (∀ (v : β) (t : τ), ts.find? (fun u => (v : WithTop β) ≤ ceiling u) = some t →
      Tightest ceiling ts v t) ↔ Ascending ceiling ts := by
  constructor
  · rintro h before t after rfl
    by_contra hnot
    push Not at hnot
    obtain ⟨⟨u, hu, hlt⟩, hother⟩ := hnot
    -- the ceiling of `t`, as a value, is covered by an earlier and higher one
    obtain ⟨c, hc⟩ := WithTop.ne_top_iff_exists.mp (ne_top_of_lt hlt)
    obtain ⟨x, hx⟩ : ∃ x, before.find? (fun u => (c : WithTop β) ≤ ceiling u) = some x := by
      rw [← Option.isSome_iff_exists, List.find?_isSome]
      exact ⟨u, hu, by simpa [hc] using hlt.le⟩
    have hfirst := h c x (by rw [List.find?_append, hx]; rfl)
    have hxmem := List.mem_of_find?_eq_some hx
    have hle := hfirst.least t (by simp) hc.le
    exact hother x hxmem (le_antisymm hle (hc ▸ hfirst.covers))
  · intro h v t
    exact h.tightest

/-- **Coverage**: every value is covered exactly when some tier is open. -/
theorem covered_iff [NoMaxOrder β] [Nonempty β] :
    (∀ v : β, ∃ t ∈ ts, v ≤ ceiling t) ↔ ∃ t ∈ ts, ceiling t = ⊤ := by
  constructor
  · intro h
    by_contra hnot
    push Not at hnot
    -- otherwise there is a value above every ceiling
    have hbound : ∃ v : β, ∀ t ∈ ts, ceiling t < v := by
      clear h
      induction ts with
      | nil => exact ⟨Classical.arbitrary β, by simp⟩
      | cons t ts ih =>
        obtain ⟨v, hv⟩ := ih (fun u hu => hnot u (List.mem_cons_of_mem _ hu))
        obtain ⟨c, hc⟩ := WithTop.ne_top_iff_exists.mp (hnot t List.mem_cons_self)
        obtain ⟨w, hw⟩ := exists_gt (max v c)
        refine ⟨w, ?_⟩
        intro u hu
        rcases List.mem_cons.mp hu with rfl | hu
        · rw [← hc]
          exact WithTop.coe_lt_coe.mpr ((le_max_right v c).trans_lt hw)
        · exact (hv u hu).trans (WithTop.coe_lt_coe.mpr ((le_max_left v c).trans_lt hw))
    obtain ⟨v, hv⟩ := hbound
    obtain ⟨t, ht, hcovers⟩ := h v
    exact absurd hcovers (not_le.mpr (hv t ht))
  · rintro ⟨t, ht, htop⟩ v
    exact ⟨t, ht, by simp [htop]⟩

end Framework
