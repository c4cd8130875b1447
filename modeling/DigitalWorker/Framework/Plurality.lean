import Mathlib.Data.List.Dedup
import Mathlib.Data.List.Perm.Basic
import Mathlib.Order.Lattice

/-! # Plurality with a tie-break

    A list of votes is tallied. The winner is the most frequent vote; among
    equally frequent ones the vote with the least key wins. Votes with
    different keys are never tied, so there is one winner at most
    (`Wins.unique`), and it depends on the tally only (`Wins.perm`).
-/

namespace Framework

variable {α κ : Type} [DecidableEq α] [LinearOrder κ] {key : α → κ} {votes : List α}

/-! ## The winner, declaratively -/

/-- `c` is the winner of the poll. -/
structure Wins (key : α → κ) (votes : List α) (c : α) : Prop where
  mem : c ∈ votes
  most : ∀ d ∈ votes, votes.count d ≤ votes.count c
  least : ∀ d ∈ votes, votes.count d = votes.count c → key c ≤ key d

theorem Wins.unique (hkey : Function.Injective key) {a b : α} (ha : Wins key votes a)
    (hb : Wins key votes b) : a = b := by
  have hcount : votes.count a = votes.count b :=
    Nat.le_antisymm (hb.most a ha.mem) (ha.most b hb.mem)
  have hab : key a ≤ key b := ha.least b hb.mem hcount.symm
  have hba : key b ≤ key a := hb.least a ha.mem hcount
  exact hkey (le_antisymm hab hba)

theorem Wins.perm {votes' : List α} (hperm : votes.Perm votes') {c : α}
    (h : Wins key votes c) : Wins key votes' c where
  mem := hperm.mem_iff.mp h.mem
  most d hd := by
    rw [← hperm.count_eq, ← hperm.count_eq]
    exact h.most d (hperm.mem_iff.mpr hd)
  least d hd heq := by
    rw [← hperm.count_eq, ← hperm.count_eq] at heq
    exact h.least d (hperm.mem_iff.mpr hd) heq

/-! ## The winner, computed -/

theorem le_foldl_max (ns : List Nat) (start : Nat) :
    start ≤ ns.foldl max start ∧ ∀ n ∈ ns, n ≤ ns.foldl max start := by
  induction ns generalizing start with
  | nil => simp
  | cons m ns ih =>
    obtain ⟨hstart, hall⟩ := ih (max start m)
    rw [List.foldl_cons]
    refine ⟨by omega, ?_⟩
    intro n hn
    rcases List.mem_cons.mp hn with rfl | hn
    · omega
    · exact hall n hn

theorem foldl_max_mem (ns : List Nat) (start : Nat) :
    ns.foldl max start = start ∨ ns.foldl max start ∈ ns := by
  induction ns generalizing start with
  | nil => exact .inl rfl
  | cons m ns ih =>
    rw [List.foldl_cons]
    rcases ih (max start m) with hsame | hmem
    · rw [hsame]
      by_cases hle : m ≤ start
      · exact .inl (by omega)
      · right
        have : max start m = m := by omega
        simp [this]
    · exact .inr (List.mem_cons_of_mem _ hmem)

omit [DecidableEq α] in
theorem foldl_least (lt : α → α → Bool) (hlt : ∀ a b, lt a b = true ↔ key a < key b)
    (cs : List α) (c : α) :
    cs.foldl (fun best d => if lt d best then d else best) c ∈ c :: cs ∧
      ∀ d ∈ c :: cs,
        key (cs.foldl (fun best d => if lt d best then d else best) c) ≤ key d := by
  induction cs generalizing c with
  | nil => simp
  | cons e cs ih =>
    rw [List.foldl_cons]
    by_cases he : lt e c = true
    · rw [if_pos he]
      obtain ⟨hmem, hleast⟩ := ih e
      refine ⟨List.mem_cons_of_mem _ hmem, ?_⟩
      intro d hd
      rcases List.mem_cons.mp hd with rfl | hd
      · exact (hleast e List.mem_cons_self).trans ((hlt e _).mp he).le
      · exact hleast d hd
    · rw [if_neg he]
      obtain ⟨hmem, hleast⟩ := ih c
      have hce : key c ≤ key e := not_lt.mp (fun h => he ((hlt e c).mpr h))
      constructor
      · rcases List.mem_cons.mp hmem with h | h
        · rw [h]
          exact List.mem_cons_self
        · exact List.mem_cons_of_mem _ (List.mem_cons_of_mem _ h)
      · intro d hd
        rcases List.mem_cons.mp hd with rfl | hd
        · exact hleast d List.mem_cons_self
        · rcases List.mem_cons.mp hd with rfl | hd
          · exact (hleast c List.mem_cons_self).trans hce
          · exact hleast d (List.mem_cons_of_mem _ hd)

def winner? (lt : α → α → Bool) (votes : List α) : Option α :=
  let highest := (votes.map votes.count).foldl max 0
  match votes.dedup.filter (fun c => votes.count c == highest) with
  | [] => none
  | c :: cs => some (cs.foldl (fun best d => if lt d best then d else best) c)

theorem highest_spec (hne : votes ≠ []) :
    (∃ c ∈ votes, votes.count c = (votes.map votes.count).foldl max 0) ∧
      ∀ d ∈ votes, votes.count d ≤ (votes.map votes.count).foldl max 0 := by
  have hbound : ∀ d ∈ votes, votes.count d ≤ (votes.map votes.count).foldl max 0 := by
    intro d hd
    exact (le_foldl_max _ 0).2 _ (List.mem_map_of_mem hd)
  refine ⟨?_, hbound⟩
  obtain ⟨v, hv⟩ := List.exists_mem_of_ne_nil votes hne
  rcases foldl_max_mem (votes.map votes.count) 0 with hzero | hmem
  · -- a vote that was cast counts at least once
    have hpos : 0 < votes.count v := List.count_pos_iff.mpr hv
    have := hbound v hv
    omega
  · obtain ⟨c, hc, hcount⟩ := List.mem_map.mp hmem
    exact ⟨c, hc, hcount⟩

theorem mem_tied {d : α} : d ∈ votes.dedup.filter
      (fun c => votes.count c == (votes.map votes.count).foldl max 0) ↔
    d ∈ votes ∧ votes.count d = (votes.map votes.count).foldl max 0 := by
  simp [List.mem_filter, List.mem_dedup]

theorem winner?_none {lt : α → α → Bool} (h : winner? lt votes = none) : votes = [] := by
  by_contra hne
  obtain ⟨⟨top, htop, htopCount⟩, _⟩ := highest_spec hne
  have hmem := mem_tied.mpr ⟨htop, htopCount⟩
  unfold winner? at h
  dsimp only at h
  split at h
  · next hnil => simp [hnil] at hmem
  · simp at h

/-- **Correctness**: what is computed wins. -/
theorem winner?_some {lt : α → α → Bool} (hlt : ∀ a b, lt a b = true ↔ key a < key b) {c : α}
    (h : winner? lt votes = some c) : Wins key votes c := by
  unfold winner? at h
  dsimp only at h
  split at h
  · simp at h
  · next first rest htied =>
    obtain ⟨hmem, hleast⟩ := foldl_least lt hlt rest first
    rw [← htied, Option.some.inj h] at hmem hleast
    obtain ⟨hin, hcount⟩ := mem_tied.mp hmem
    obtain ⟨_, hbound⟩ := highest_spec (List.ne_nil_of_mem hin)
    refine ⟨hin, ?_, ?_⟩
    · intro d hd
      rw [hcount]
      exact hbound d hd
    · intro d hd heq
      exact hleast d (mem_tied.mpr ⟨hd, heq.trans hcount⟩)

/-- **Order independence** of the computed winner. -/
theorem winner?_perm (lt : α → α → Bool) (hlt : ∀ a b, lt a b = true ↔ key a < key b)
    (hkey : Function.Injective key) {votes' : List α} (hperm : votes.Perm votes') :
    winner? lt votes = winner? lt votes' := by
  by_cases hnone : winner? lt votes = none
  · have hnil : votes = [] := winner?_none hnone
    have hnil' : votes' = [] := List.nil_perm.mp (hnil ▸ hperm)
    rw [hnil, hnil']
  · obtain ⟨c, hc⟩ := Option.ne_none_iff_exists'.mp hnone
    have hwins : Wins key votes' c := (winner?_some hlt hc).perm hperm
    by_cases hnone' : winner? lt votes' = none
    · have hempty := winner?_none hnone'
      have := hwins.mem
      simp [hempty] at this
    · obtain ⟨c', hc'⟩ := Option.ne_none_iff_exists'.mp hnone'
      rw [hc, hc', hwins.unique hkey (winner?_some hlt hc')]

end Framework
