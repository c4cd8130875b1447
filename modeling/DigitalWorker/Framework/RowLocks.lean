import DigitalWorker.Framework.Rows

/-! # Rows that are locked until commit

    A table under READ COMMITTED. A transaction reads what is committed and what
    it has written itself. What it writes stays with the row, uncommitted, and
    keeps every other writer of the row waiting; a writer whose wait is over
    tests its condition on the row as it is then.

    A row has at most one uncommitted version, by construction. What the
    versions of a row may become is a relation `R`; as long as every update
    obeys it (`Sound`), every commit does.
-/

namespace Framework

structure LockedRow (ρ : Type) where
  committed : ρ
  uncommitted : Option (Nat × ρ) := none

namespace LockedRow

variable {ρ : Type}

/-- What transaction `c` reads. -/
def seen (c : Nat) (r : LockedRow ρ) : ρ :=
  match r.uncommitted with
  | some (d, v) => if d = c then v else r.committed
  | none => r.committed

def blocks (c : Nat) (r : LockedRow ρ) : Bool :=
  match r.uncommitted with
  | some (d, _) => d ≠ c
  | none => false

/-- The row after the commit of transaction `c`. -/
def commit (c : Nat) (r : LockedRow ρ) : LockedRow ρ :=
  match r.uncommitted with
  | some (d, v) => if d = c then { committed := v } else r
  | none => r

/-- The row after transaction `c` was rolled back. -/
def rollback (c : Nat) (r : LockedRow ρ) : LockedRow ρ :=
  match r.uncommitted with
  | some (d, _) => if d = c then { committed := r.committed } else r
  | none => r

theorem seen_of_free {c : Nat} {r : LockedRow ρ} (hfree : r.blocks c = false)
    (hown : ∀ v, r.uncommitted ≠ some (c, v)) : r.uncommitted = none ∧ r.seen c = r.committed := by
  cases hr : r.uncommitted with
  | none => exact ⟨rfl, by simp [seen, hr]⟩
  | some x =>
    obtain ⟨d, v⟩ := x
    obtain rfl : d = c := by simpa [blocks, hr] using hfree
    exact absurd hr (hown v)

theorem rollback_committed (c : Nat) (r : LockedRow ρ) :
    (r.rollback c).committed = r.committed := by
  unfold rollback
  split
  · split <;> rfl
  · rfl

theorem commit_uncommitted {c d : Nat} {r : LockedRow ρ} {v : ρ} :
    (r.commit c).uncommitted = some (d, v) ↔ r.uncommitted = some (d, v) ∧ d ≠ c := by
  cases hr : r.uncommitted with
  | none => simp [commit, hr]
  | some x =>
    obtain ⟨e, u⟩ := x
    by_cases he : e = c
    · simp only [commit, hr, if_pos he, Option.some.injEq, Prod.mk.injEq]
      constructor
      · intro h
        cases h
      · rintro ⟨⟨hed, -⟩, hd⟩
        exact absurd (hed.symm.trans he) hd
    · simp only [commit, hr, if_neg he, Option.some.injEq, Prod.mk.injEq]
      constructor
      · rintro ⟨rfl, rfl⟩
        exact ⟨⟨rfl, rfl⟩, he⟩
      · exact And.left

theorem rollback_uncommitted {c d : Nat} {r : LockedRow ρ} {v : ρ} :
    (r.rollback c).uncommitted = some (d, v) ↔ r.uncommitted = some (d, v) ∧ d ≠ c := by
  have hsame : (r.rollback c).uncommitted = (r.commit c).uncommitted := by
    unfold rollback commit
    split
    · split <;> rfl
    · rfl
  rw [hsame]
  exact commit_uncommitted

theorem commit_own {c : Nat} {r : LockedRow ρ} {v : ρ} (h : r.uncommitted = some (c, v)) :
    (r.commit c).committed = v := by
  simp [commit, h]

theorem commit_other {c : Nat} {r : LockedRow ρ} (h : ∀ v, r.uncommitted ≠ some (c, v)) :
    r.commit c = r := by
  unfold commit
  split
  · next d v hr =>
    rw [if_neg]
    rintro rfl
    exact h v hr
  · rfl

end LockedRow

inductive Updated (ρ : Type) where
  /-- The row is locked. -/
  | waits
  /-- No row meets the condition. -/
  | missed
  | updated (rows : List (LockedRow ρ))

namespace LockedRow

variable {ρ κ : Type} [DecidableEq κ] {key : ρ → κ} {rows rows' : List (LockedRow ρ)} {c : Nat}
  {k : κ} {p : ρ → Bool} {f : ρ → ρ}

/-- `UPDATE … WHERE key = k AND p`, its change written as a function of the row. -/
def update (key : ρ → κ) (c : Nat) (k : κ) (p : ρ → Bool) (f : ρ → ρ)
    (rows : List (LockedRow ρ)) : Updated ρ :=
  match rows.find? (fun r => key r.committed == k) with
  | none => .missed
  | some r =>
    if r.blocks c then .waits
    else if p (r.seen c) then
      .updated (rows.map (fun r =>
        if key r.committed = k then { r with uncommitted := some (c, f (r.seen c)) } else r))
    else .missed

/-- **Update**: the row under the key was not locked by anybody else and met the
    condition; it is written over, and all other rows stay. -/
theorem update_updated (h : update key c k p f rows = .updated rows') :
    ∃ r ∈ rows, key r.committed = k ∧ r.blocks c = false ∧ p (r.seen c) = true ∧
      rows' = rows.map (fun r =>
        if key r.committed = k then { r with uncommitted := some (c, f (r.seen c)) } else r) := by
  unfold update at h
  split at h
  · cases h
  · next r hr =>
    split at h
    · cases h
    · next hfree =>
      split at h
      · next hp =>
        cases h
        exact ⟨r, List.mem_of_find?_eq_some hr, by simpa using List.find?_some hr,
          by simpa using hfree, hp, rfl⟩
      · cases h

/-- **Miss**: the row under the key was not locked by anybody else, and did not meet the
    condition. -/
theorem update_missed (h : update key c k p f rows = .missed)
    (hkeys : (rows.map (fun r => key r.committed)).Nodup) {r : LockedRow ρ} (hr : r ∈ rows)
    (hk : key r.committed = k) : r.blocks c = false ∧ p (r.seen c) = false := by
  unfold update at h
  split at h
  · next hnone => exact absurd hk (by simpa using List.find?_eq_none.mp hnone r hr)
  · next r' hr' =>
    have hk' : key r'.committed = k := by simpa using List.find?_some hr'
    obtain rfl : r' = r := Rows.eq_of_key hkeys (List.mem_of_find?_eq_some hr') hr
      (hk'.trans hk.symm)
    split at h
    · cases h
    · next hfree =>
      split at h
      · cases h
      · next hp => exact ⟨by simpa using hfree, by simpa using hp⟩

theorem update_committed (h : update key c k p f rows = .updated rows') :
    rows'.map (·.committed) = rows.map (·.committed) := by
  obtain ⟨_, _, _, _, _, rfl⟩ := update_updated h
  rw [List.map_map]
  apply List.map_congr_left
  intro r _
  show (if key r.committed = k then _ else r).committed = r.committed
  split <;> rfl

def Sound (R : ρ → ρ → Prop) (rows : List (LockedRow ρ)) : Prop :=
  ∀ r ∈ rows, ∀ d v, r.uncommitted = some (d, v) → R r.committed v

variable {R : ρ → ρ → Prop}

theorem Sound.commit (h : Sound R rows) (c : Nat) : Sound R (rows.map (LockedRow.commit c)) := by
  intro r' hr' d v hv
  obtain ⟨r, hr, rfl⟩ := List.mem_map.mp hr'
  obtain ⟨hold, hd⟩ := commit_uncommitted.mp hv
  have hother : r.commit c = r := by
    apply commit_other
    intro u hu
    rw [hold, Option.some.injEq, Prod.mk.injEq] at hu
    exact hd hu.1
  rw [hother]
  exact h r hr d v hold

theorem Sound.rollback (h : Sound R rows) (c : Nat) :
    Sound R (rows.map (LockedRow.rollback c)) := by
  intro r' hr' d v hv
  obtain ⟨r, hr, rfl⟩ := List.mem_map.mp hr'
  rw [rollback_committed]
  exact h r hr d v (rollback_uncommitted.mp hv).1

/-- **Commit**: every row stays, or takes a step of the relation. -/
theorem Sound.commit_step (h : Sound R rows) {r : LockedRow ρ} (hr : r ∈ rows) (c : Nat) :
    (r.commit c).committed = r.committed ∨
      ∃ v, r.uncommitted = some (c, v) ∧ (r.commit c).committed = v ∧ R r.committed v := by
  by_cases hown : ∃ v, r.uncommitted = some (c, v)
  · obtain ⟨v, hv⟩ := hown
    exact .inr ⟨v, hv, commit_own hv, h r hr c v hv⟩
  · left
    rw [commit_other]
    intro v hv
    exact hown ⟨v, hv⟩

theorem Sound.update (h : Sound R rows)
    (hR : ∀ r ∈ rows, key r.committed = k → r.blocks c = false → p (r.seen c) = true →
      R r.committed (f (r.seen c)))
    (hkeys : (rows.map (fun r => key r.committed)).Nodup)
    (hupdate : LockedRow.update key c k p f rows = .updated rows') : Sound R rows' := by
  obtain ⟨r₀, hr₀, hk₀, hfree, hp, rfl⟩ := update_updated hupdate
  intro r' hr' d v hv
  obtain ⟨r, hr, rfl⟩ := List.mem_map.mp hr'
  by_cases hk : key r.committed = k
  · obtain rfl : r = r₀ := Rows.eq_of_key hkeys hr hr₀ (hk.trans hk₀.symm)
    rw [if_pos hk] at hv ⊢
    simp only [Option.some.injEq, Prod.mk.injEq] at hv
    obtain ⟨-, rfl⟩ := hv
    exact hR r hr hk hfree hp
  · rw [if_neg hk] at hv ⊢
    exact h r hr d v hv

end LockedRow

end Framework
