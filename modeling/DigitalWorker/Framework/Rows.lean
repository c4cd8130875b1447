import DigitalWorker.Framework.OnceStore

/-! # Tables with a primary key

    A table is a list of rows told apart by a key. `update` is the statement
    `UPDATE … WHERE key = k`, its change written as a function of the row, so
    that a further `WHERE` condition is a change that leaves the row alone.
-/

namespace Framework

inductive Ending where
  | committed
  /-- Nothing was written, and the client sees an exception. -/
  | rolledBack
  /-- Everything was written, and the client sees an exception. -/
  | unacknowledged
  deriving DecidableEq

def Ending.change {ρ : Type} (ending : Ending) (f : ρ → ρ) (r : ρ) : ρ :=
  if ending = .rolledBack then r else f r

theorem Ending.change_key {ρ κ : Type} {key : ρ → κ} {ending : Ending} {f : ρ → ρ}
    (hf : ∀ r, key (f r) = key r) (r : ρ) : key (ending.change f r) = key r := by
  unfold Ending.change
  by_cases h : ending = .rolledBack
  · rw [if_pos h]
  · rw [if_neg h, hf]

namespace Rows

variable {ρ κ : Type} [DecidableEq κ] {key : ρ → κ}

/-- The table after the row under `k` was changed by `f`. -/
def update (key : ρ → κ) (k : κ) (f : ρ → ρ) (rows : List ρ) : List ρ :=
  rows.map (fun r => if key r = k then f r else r)

def lookup (key : ρ → κ) (rows : List ρ) (k : κ) : Option ρ := rows.find? (fun r => key r == k)

theorem mem_update {k : κ} {f : ρ → ρ} {rows : List ρ} {x : ρ} :
    x ∈ update key k f rows ↔ (x ∈ rows ∧ key x ≠ k) ∨ ∃ r ∈ rows, key r = k ∧ f r = x := by
  unfold update
  rw [List.mem_map]
  constructor
  · rintro ⟨r, hr, rfl⟩
    by_cases hk : key r = k
    · rw [if_pos hk]
      exact .inr ⟨r, hr, hk, rfl⟩
    · rw [if_neg hk]
      exact .inl ⟨hr, hk⟩
  · rintro (⟨hx, hk⟩ | ⟨r, hr, hk, rfl⟩)
    · exact ⟨x, hx, if_neg hk⟩
    · exact ⟨r, hr, if_pos hk⟩

@[simp] theorem update_id (k : κ) (rows : List ρ) : update key k (fun r => r) rows = rows := by
  simp [update]

theorem update_keys {k : κ} {f : ρ → ρ} (hf : ∀ r, key (f r) = key r) (rows : List ρ) :
    (update key k f rows).map key = rows.map key := by
  unfold update
  rw [List.map_map]
  refine List.map_congr_left (fun r _ => ?_)
  show key (if key r = k then f r else r) = key r
  by_cases hk : key r = k
  · rw [if_pos hk, hf]
  · rw [if_neg hk]

omit [DecidableEq κ] in
theorem eq_of_key {rows : List ρ} (h : (rows.map key).Nodup) {r r' : ρ} (hr : r ∈ rows)
    (hr' : r' ∈ rows) (hk : key r = key r') : r = r' :=
  List.inj_on_of_nodup_map h hr hr' hk

theorem mem_update_self {f : ρ → ρ} {rows : List ρ} {r : ρ} (hr : r ∈ rows) :
    f r ∈ update key (key r) f rows :=
  mem_update.mpr (.inr ⟨r, hr, rfl, rfl⟩)

theorem mem_update_ne {k : κ} {f : ρ → ρ} {rows : List ρ} {r : ρ} (hr : r ∈ rows)
    (hk : key r ≠ k) : r ∈ update key k f rows :=
  mem_update.mpr (.inl ⟨hr, hk⟩)

/-- **Counting**: an update that gives up a property gains it nowhere. -/
theorem countP_update_le {k : κ} {f : ρ → ρ} {P : ρ → Bool} (rows : List ρ)
    (hf : ∀ r, key r = k → P (f r) = false) :
    (update key k f rows).countP P ≤ rows.countP P := by
  induction rows with
  | nil => exact Nat.le_refl _
  | cons r rows ih =>
    show ((if key r = k then f r else r) :: update key k f rows).countP P ≤ _
    rw [List.countP_cons, List.countP_cons]
    by_cases hk : key r = k
    · rw [if_pos hk, hf r hk, if_neg Bool.false_ne_true]
      omega
    · rw [if_neg hk]
      omega

theorem countP_update_lt {f : ρ → ρ} {P : ρ → Bool} {rows : List ρ} {x : ρ} (hx : x ∈ rows)
    (hPx : P x = true) (hf : ∀ r, key r = key x → P (f r) = false) :
    (update key (key x) f rows).countP P < rows.countP P := by
  induction rows with
  | nil => cases hx
  | cons r rows ih =>
    show ((if key r = key x then f r else r) :: update key (key x) f rows).countP P < _
    have hle := countP_update_le rows hf
    rw [List.countP_cons, List.countP_cons]
    rcases List.mem_cons.mp hx with rfl | hx
    · rw [if_pos rfl, hf x rfl, if_neg Bool.false_ne_true, if_pos hPx]
      omega
    · have hlt := ih hx
      by_cases hk : key r = key x
      · rw [if_pos hk, hf r hk, if_neg Bool.false_ne_true]
        omega
      · rw [if_neg hk]
        omega

theorem lookup_some {rows : List ρ} {k : κ} {r : ρ} (h : lookup key rows k = some r) :
    r ∈ rows ∧ key r = k := by
  refine ⟨List.mem_of_find?_eq_some h, ?_⟩
  have hk := List.find?_some h
  simpa using hk

theorem lookup_of_mem {rows : List ρ} (h : (rows.map key).Nodup) {r : ρ} (hr : r ∈ rows) :
    lookup key rows (key r) = some r :=
  find_of_nodup h hr

/-- **Reading after an update**: the changed row under its key, the old one under
    any other. -/
theorem lookup_update {k : κ} {f : ρ → ρ} (hf : ∀ r, key r = k → key (f r) = k) (rows : List ρ)
    (k' : κ) : lookup key (update key k f rows) k' =
      if k' = k then (lookup key rows k).map f else lookup key rows k' := by
  have hkeys : (fun r => key r == k') ∘ (fun r => if key r = k then f r else r) =
      (fun r => key r == k') := by
    funext r
    show (key (if key r = k then f r else r) == k') = _
    by_cases hr : key r = k
    · rw [if_pos hr, hf r hr, hr]
    · rw [if_neg hr]
  unfold lookup update
  rw [List.find?_map, hkeys]
  by_cases hk : k' = k
  · subst hk
    rw [if_pos rfl]
    refine Option.map_congr (fun r hr => ?_)
    rw [if_pos (by simpa using List.find?_some hr)]
  · rw [if_neg hk]
    cases hfound : rows.find? (fun r => key r == k') with
    | none => rfl
    | some r =>
      have hr : key r = k' := by simpa using List.find?_some hfound
      rw [Option.map_some, if_neg (fun h => hk (hr.symm.trans h))]

end Rows

end Framework
