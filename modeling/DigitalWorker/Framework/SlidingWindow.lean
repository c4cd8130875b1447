import Mathlib.Algebra.Order.Group.Defs
import Mathlib.Algebra.Order.Group.Unbundled.Basic
import Mathlib.Data.Finset.Max
import Mathlib.Data.Finset.Card

/-! # Sliding windows and latched alarms

    Finitely many points lie on a time axis. The *load* at time `t` is the
    number of points in the window `[t - w, t]`; it jumps up at a point and
    falls by itself when a point leaves the window.

    Two alarms can be built on a threshold `n`:

    * the **level** alarm rings at `t` when the load at `t` is at least `n`;
    * the **latched** alarm rings from the moment the load comes up to `n`
      until somebody acknowledges it, whatever the load does meanwhile.

    Calls can also be counted in *fixed* windows, one opened after another.
-/

namespace Framework

variable {τ : Type} [AddCommGroup τ] [LinearOrder τ]

/-! ## Load and crossings -/

/-- Number of points in `[t - w, t]`. -/
def load (xs : List τ) (w t : τ) : Nat :=
  xs.countP (fun x => t - w ≤ x ∧ x ≤ t)

/-- Number of points in `[t - w, t)`: the load immediately before `t`. -/
def loadBefore (xs : List τ) (w t : τ) : Nat :=
  xs.countP (fun x => t - w ≤ x ∧ x < t)

/-- The load comes up to `n` at time `c`. -/
def Crosses (xs : List τ) (w : τ) (n : Nat) (c : τ) : Prop :=
  n ≤ load xs w c ∧ loadBefore xs w c < n

instance (xs : List τ) (w : τ) (n : Nat) (c : τ) : Decidable (Crosses xs w n c) :=
  inferInstanceAs (Decidable (_ ∧ _))

theorem Crosses.mem {xs : List τ} {w c : τ} {n : Nat} (h : Crosses xs w n c) :
    c ∈ xs := by
  by_contra hc
  have hle : load xs w c ≤ loadBefore xs w c := by
    refine List.countP_mono_left ?_
    intro x hx hxw
    simp only [decide_eq_true_eq] at hxw ⊢
    refine ⟨hxw.1, lt_of_le_of_ne hxw.2 ?_⟩
    rintro rfl
    exact hc hx
  exact absurd (h.1.trans hle) (not_le.mpr h.2)

/-- The points of a window that ends before `t` are still in the window that
    ends at the last of them. -/
theorem loadBefore_le_load [IsOrderedAddMonoid τ] {xs : List τ} {w t m : τ} (hmt : m ≤ t)
    (hmax : ∀ x ∈ xs, x < t → x ≤ m) : loadBefore xs w t ≤ load xs w m := by
  refine List.countP_mono_left ?_
  intro x hx hxw
  simp only [decide_eq_true_eq] at hxw ⊢
  exact ⟨(sub_le_sub_right hmt w).trans hxw.1, hmax x hx hxw.2⟩

/-- A list with a member satisfying `p` has a largest such member. -/
private theorem exists_max_mem {ι : Type} [LinearOrder ι] {xs : List ι} {p : ι → Prop}
    [DecidablePred p] (h : ∃ x ∈ xs, p x) : ∃ m ∈ xs, p m ∧ ∀ x ∈ xs, p x → x ≤ m := by
  obtain ⟨x, hx, hpx⟩ := h
  have hne : (xs.toFinset.filter p).Nonempty := ⟨x, by simp [hx, hpx]⟩
  have hmem := (xs.toFinset.filter p).max'_mem hne
  simp only [Finset.mem_filter, List.mem_toFinset] at hmem
  refine ⟨(xs.toFinset.filter p).max' hne, hmem.1, hmem.2, fun y hy hpy => ?_⟩
  exact Finset.le_max' _ _ (by simp [hy, hpy])

/-- A load of at least `n > 0` has a crossing behind it.

    Induction on the number of points before `t`: if the load was already `n`
    just before `t`, the last point before `t` carries at least that load. -/
theorem exists_crossing [IsOrderedAddMonoid τ] {xs : List τ} {w t : τ} {n : Nat} (hn : 0 < n)
    (h : n ≤ load xs w t) : ∃ c ≤ t, Crosses xs w n c := by
  induction hk : (xs.toFinset.filter (· < t)).card using Nat.strong_induction_on
    generalizing t with
  | _ k ih =>
    subst hk
    rcases Nat.lt_or_ge (loadBefore xs w t) n with hlt | hge
    · exact ⟨t, le_refl t, h, hlt⟩
    · have hsome : ∃ x ∈ xs, x < t := by
        obtain ⟨x, hx, hxw⟩ := List.countP_pos_iff.mp (hn.trans_le hge)
        exact ⟨x, hx, (of_decide_eq_true hxw).2⟩
      obtain ⟨m, hm, hmt, hmax⟩ := exists_max_mem hsome
      have hload : n ≤ load xs w m := hge.trans (loadBefore_le_load hmt.le hmax)
      -- `m` itself is a point before `t` and not before `m`
      have hfewer : (xs.toFinset.filter (· < m)).card < (xs.toFinset.filter (· < t)).card := by
        refine Finset.card_lt_card ⟨fun x hx => ?_, fun hsub => ?_⟩
        · simp only [Finset.mem_filter] at hx ⊢
          exact ⟨hx.1, hx.2.trans hmt⟩
        · have hmm := hsub (by simp [hm, hmt] : m ∈ xs.toFinset.filter (· < t))
          exact absurd (Finset.mem_filter.mp hmm).2 (lt_irrefl m)
      obtain ⟨c, hc, hcross⟩ := ih _ hfewer hload rfl
      exact ⟨c, hc.trans hmt.le, hcross⟩

/-- The last crossing up to time `t`. -/
def LatestCrossing (xs : List τ) (w : τ) (n : Nat) (t c : τ) : Prop :=
  Crosses xs w n c ∧ c ≤ t ∧ ∀ c' ≤ t, Crosses xs w n c' → c' ≤ c

theorem exists_latestCrossing {xs : List τ} {w t : τ} {n : Nat}
    (h : ∃ c ≤ t, Crosses xs w n c) : ∃ c, LatestCrossing xs w n t c := by
  have hsome : ∃ c ∈ xs, c ≤ t ∧ Crosses xs w n c := by
    obtain ⟨c, hct, hc⟩ := h
    exact ⟨c, hc.mem, hct, hc⟩
  obtain ⟨m, _, ⟨hmt, hm⟩, hmax⟩ := exists_max_mem hsome
  exact ⟨m, hm, hmt, fun c' hc't hc' => hmax c' hc'.mem ⟨hc't, hc'⟩⟩

/-- The latched alarm rings at `t`: some crossing up to `t` has not been
    acknowledged at or after it and up to `t`. -/
def Latched (xs : List τ) (w : τ) (n : Nat) (acks : List τ) (t : τ) : Prop :=
  ∃ c ≤ t, Crosses xs w n c ∧ ∀ a ∈ acks, ¬ (c ≤ a ∧ a ≤ t)

theorem latched_iff_latest {xs : List τ} {w t : τ} {n : Nat} {acks : List τ} :
    Latched xs w n acks t ↔
      ∃ c, LatestCrossing xs w n t c ∧ ∀ a ∈ acks, ¬ (c ≤ a ∧ a ≤ t) := by
  constructor
  · rintro ⟨c, hct, hc, hun⟩
    obtain ⟨m, hm⟩ := exists_latestCrossing ⟨c, hct, hc⟩
    refine ⟨m, hm, fun a ha hma => hun a ha ⟨?_, hma.2⟩⟩
    exact (hm.2.2 c hct hc).trans hma.1
  · rintro ⟨c, ⟨hc, hct, _⟩, hun⟩
    exact ⟨c, hct, hc, hun⟩

theorem LatestCrossing.unique {xs : List τ} {w t c c' : τ} {n : Nat}
    (h : LatestCrossing xs w n t c) (h' : LatestCrossing xs w n t c') : c = c' :=
  le_antisymm (h'.2.2 c h.2.1 h.1) (h.2.2 c' h'.2.1 h'.1)

/-! ## Fixed windows -/

namespace FixedWindow

variable (span : τ) (limit : Nat)

/-- The window of a call: when it was opened, and its calls so far. -/
def next (w : Option (τ × Nat)) (now : τ) : τ × Nat :=
  match w with
  | some w => if span ≤ now - w.1 then (now, 1) else (w.1, w.2 + 1)
  | none => (now, 1)

def after : List τ → Option (τ × Nat)
  | [] => none
  | now :: before => some (next span (after before) now)

def passed : List τ → List τ
  | [] => []
  | now :: before =>
    if (next span (after span before) now).2 ≤ limit then now :: passed before
    else passed before

variable {span : τ} {limit : Nat} {calls before : List τ} {now t : τ} {w : τ × Nat}

theorem next_over (h : span ≤ now - w.1) : next span (some w) now = next span none now := if_pos h

theorem mem_of_mem_passed {x : τ} (h : x ∈ passed span limit calls) : x ∈ calls := by
  induction calls with
  | nil => cases h
  | cons now before ih =>
    unfold passed at h
    split at h
    · rcases List.mem_cons.mp h with rfl | h
      · exact List.mem_cons_self
      · exact List.mem_cons_of_mem now (ih h)
    · exact List.mem_cons_of_mem now (ih h)

theorem countP_passed_cons (p : τ → Bool) :
    (passed span limit (now :: before)).countP p =
      (passed span limit before).countP p +
        if (next span (after span before) now).2 ≤ limit ∧ p now = true then 1 else 0 := by
  rw [passed]
  by_cases hpass : (next span (after span before) now).2 ≤ limit
  · by_cases hp : p now = true <;> simp [hpass, hp]
  · simp [hpass]

theorem countP_le_add {α : Type} {p q r : α → Bool}
    (h : ∀ x, p x = true → q x = true ∨ r x = true) (xs : List α) :
    xs.countP p ≤ xs.countP q + xs.countP r := by
  induction xs with
  | nil => exact Nat.zero_le _
  | cons x xs ih =>
    rw [List.countP_cons, List.countP_cons, List.countP_cons]
    have hx := h x
    split_ifs <;> simp_all <;> omega

structure Counted (span : τ) (limit : Nat) (calls : List τ) (w : τ × Nat) : Prop where
  opening : w.1 ∈ calls
  inside : ∀ x ∈ calls, x < w.1 + span
  within : (passed span limit calls).countP (fun x => w.1 ≤ x) = min w.2 limit
  before : ∀ t, w.1 - span < t →
    (passed span limit calls).countP (fun x => t ≤ x ∧ x < w.1) ≤ limit
  stretch : ∀ t, (passed span limit calls).countP (fun x => t ≤ x ∧ x < t + span) ≤ 2 * limit

variable [IsOrderedAddMonoid τ]

/-- **Opening**: a call after the end of the last window. -/
theorem Counted.opens (hspan : 0 < span) (hnext : next span (after span before) now = (now, 1))
    (hpast : ∀ x ∈ before, x < now)
    (hbefore : ∀ t, now - span < t →
      (passed span limit before).countP (fun x => t ≤ x ∧ x < now) ≤ limit)
    (hstretch : ∀ t, (passed span limit before).countP (fun x => t ≤ x ∧ x < t + span) ≤ 2 * limit) :
    Counted span limit (now :: before) (now, 1) := by
  have hnow : now < now + span := lt_add_of_pos_right now hspan
  refine ⟨List.mem_cons_self, ?_, ?_, ?_, ?_⟩
  · intro x hx
    rcases List.mem_cons.mp hx with rfl | hx
    · exact hnow
    · exact (hpast x hx).trans hnow
  · have hnone : (passed span limit before).countP (fun x => now ≤ x) = 0 := by
      rw [List.countP_eq_zero]
      intro x hx
      have hlt := hpast x (mem_of_mem_passed hx)
      simpa using hlt
    rw [countP_passed_cons, hnone, hnext]
    by_cases hlimit : 1 ≤ limit
    · simp [hlimit]
    · have hzero : limit = 0 := by omega
      simp [hzero]
  · intro t ht
    rw [countP_passed_cons]
    simpa using hbefore t ht
  · intro t
    rw [countP_passed_cons, hnext]
    by_cases hin : 1 ≤ limit ∧ (t ≤ now ∧ now < t + span)
    · -- the calls of the stretch before this one are of the last window
      have hle : (passed span limit before).countP (fun x => t ≤ x ∧ x < t + span) ≤
          (passed span limit before).countP (fun x => t ≤ x ∧ x < now) := by
        refine List.countP_mono_left ?_
        intro x hx hxt
        simp only [decide_eq_true_eq] at hxt ⊢
        exact ⟨hxt.1, hpast x (mem_of_mem_passed hx)⟩
      have hlast := hbefore t (sub_lt_iff_lt_add.mpr hin.2.2)
      rw [if_pos (by simpa using hin)]
      omega
    · rw [if_neg (by simpa using hin)]
      exact hstretch t

theorem Counted.counts (h : Counted span limit before w)
    (hnext : next span (after span before) now = (w.1, w.2 + 1))
    (hpast : ∀ x ∈ before, x ≤ now) (hnow : now < w.1 + span) :
    Counted span limit (now :: before) (w.1, w.2 + 1) := by
  have hopened : w.1 ≤ now := hpast _ h.opening
  refine ⟨List.mem_cons_of_mem now h.opening, ?_, ?_, ?_, ?_⟩
  · intro x hx
    rcases List.mem_cons.mp hx with rfl | hx
    · exact hnow
    · exact h.inside x hx
  · rw [countP_passed_cons, hnext, h.within]
    by_cases hlimit : w.2 + 1 ≤ limit
    · rw [if_pos ⟨hlimit, by simpa using hopened⟩]
      omega
    · rw [if_neg (fun hpass => hlimit hpass.1)]
      omega
  · intro t ht
    rw [countP_passed_cons, if_neg (by simp [hopened])]
    exact h.before t ht
  · intro t
    rw [countP_passed_cons, hnext]
    by_cases hin : w.2 + 1 ≤ limit ∧ (t ≤ now ∧ now < t + span)
    · have hsplit : (passed span limit before).countP (fun x => t ≤ x ∧ x < t + span) ≤
          (passed span limit before).countP (fun x => t ≤ x ∧ x < w.1) +
            (passed span limit before).countP (fun x => w.1 ≤ x) := by
        refine countP_le_add (fun x hx => ?_) _
        simp only [decide_eq_true_eq] at hx ⊢
        exact (lt_or_ge x w.1).imp (fun hlt => ⟨hx.1, hlt⟩) (fun hge => hge)
      have hlast := h.before t
        (lt_of_le_of_lt (sub_le_sub_right hopened span) (sub_lt_iff_lt_add.mpr hin.2.2))
      have hwithin := h.within
      rw [if_pos (by simpa using hin)]
      omega
    · rw [if_neg (by simpa using hin)]
      exact h.stretch t

theorem counted_after (hspan : 0 < span) (hcalls : calls.Pairwise (fun x y => y ≤ x))
    (hw : after span calls = some w) : Counted span limit calls w := by
  induction calls generalizing w with
  | nil => cases hw
  | cons now before ih =>
    obtain ⟨hpast, hbefore⟩ := List.pairwise_cons.mp hcalls
    obtain rfl : next span (after span before) now = w := Option.some.inj hw
    cases hlast : after span before with
    | none =>
      -- no call came before
      have hnil : before = [] := by
        cases before with
        | nil => rfl
        | cons x xs => cases hlast
      subst hnil
      exact Counted.opens hspan (by rw [hlast]; rfl) (by simp) (by simp [passed]) (by simp [passed])
    | some w =>
      have h := ih hbefore hlast
      by_cases hover : span ≤ now - w.1
      · have hnext : next span (some w) now = (now, 1) := if_pos hover
        have hend : w.1 + span ≤ now := by
          rw [add_comm]
          exact le_sub_iff_add_le.mp hover
        rw [hnext]
        refine Counted.opens hspan (by rw [hlast, hnext])
          (fun x hx => (h.inside x hx).trans_le hend) ?_ h.stretch
        intro t ht
        have hle : (passed span limit before).countP (fun x => t ≤ x ∧ x < now) ≤
            (passed span limit before).countP (fun x => w.1 ≤ x) := by
          refine List.countP_mono_left ?_
          intro x _ hx
          simp only [decide_eq_true_eq] at hx ⊢
          exact ((le_sub_iff_add_le.mpr hend).trans ht.le).trans hx.1
        have hwithin := h.within
        omega
      · have hnext : next span (some w) now = (w.1, w.2 + 1) := if_neg hover
        rw [hnext]
        exact h.counts (by rw [hlast, hnext]) hpast
          (by rw [add_comm]; exact sub_lt_iff_lt_add.mp (not_le.mp hover))

/-- **Fixed windows**: in a stretch of one span, twice the limit passes at most. -/
theorem passed_le (hspan : 0 < span) (hcalls : calls.Pairwise (fun x y => y ≤ x)) (t : τ) :
    (passed span limit calls).countP (fun x => t ≤ x ∧ x < t + span) ≤ 2 * limit := by
  cases hw : after span calls with
  | none =>
    cases calls with
    | nil => simp [passed]
    | cons x xs => cases hw
  | some w => exact (counted_after hspan hcalls hw).stretch t

/-- **Refusals**: a call that does not pass comes after as many as the limit that
    passed within the span before it. -/
theorem limit_le_of_refused (hspan : 0 < span) (hlimit : 0 < limit)
    (hcalls : (now :: before).Pairwise (fun x y => y ≤ x))
    (h : limit < (next span (after span before) now).2) :
    limit ≤ (passed span limit before).countP (fun x => now - span < x ∧ x ≤ now) := by
  obtain ⟨hpast, hbefore⟩ := List.pairwise_cons.mp hcalls
  cases hlast : after span before with
  | none =>
    rw [hlast] at h
    exact absurd h (by simp [next]; omega)
  | some w =>
    rw [hlast, next] at h
    have hcounted : Counted span limit before w := counted_after hspan hbefore hlast
    split at h
    · exact absurd h (by simp; omega)
    · next hover =>
      have hle : (passed span limit before).countP (fun x => w.1 ≤ x) ≤
          (passed span limit before).countP (fun x => now - span < x ∧ x ≤ now) := by
        refine List.countP_mono_left ?_
        intro x hx hwx
        simp only [decide_eq_true_eq] at hwx ⊢
        refine ⟨lt_of_lt_of_le ?_ hwx, hpast x (mem_of_mem_passed hx)⟩
        exact sub_lt_comm.mp (not_le.mp hover)
      have hwithin := hcounted.within
      simp only at h
      omega

end FixedWindow

end Framework
