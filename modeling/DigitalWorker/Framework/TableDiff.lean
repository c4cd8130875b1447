import DigitalWorker.Framework.Rows
import Mathlib.Data.List.Perm.Subperm

/-! # What a table gained between two reads

    Rows are inserted under new keys and updated in place; none is deleted. An
    update raises the rank of its row, so that a row that was updated is never
    again the row it was. Two reads of the table are then enough to tell what
    happened in between:
-/

namespace Framework

variable {ρ κ : Type} {key : ρ → κ} {rank : ρ → Nat}

namespace Rows

section

variable [DecidableEq κ]

/-- `INSERT` of a row; the primary key refuses a second one. -/
def add (key : ρ → κ) (rows : List ρ) (r : ρ) : List ρ :=
  if key r ∈ rows.map key then rows else rows ++ [r]

theorem add_nodup {rows : List ρ} (h : (rows.map key).Nodup) (r : ρ) :
    ((add key rows r).map key).Nodup := by
  unfold add
  by_cases hk : key r ∈ rows.map key
  · rw [if_pos hk]
    exact h
  · rw [if_neg hk, List.map_append]
    exact List.nodup_append.mpr ⟨h, List.nodup_singleton _, by
      intro k hmem k' hk' heq
      obtain rfl : k' = key r := List.mem_singleton.mp hk'
      exact hk (heq ▸ hmem)⟩

theorem update_nodup {rows : List ρ} (h : (rows.map key).Nodup) {k : κ} {f : ρ → ρ}
    (hf : ∀ r, key (f r) = key r) : ((update key k f rows).map key).Nodup := by
  rw [update_keys hf]
  exact h

theorem update_noop {k : κ} {f : ρ → ρ} {rows : List ρ} (h : ∀ r ∈ rows, key r = k → f r = r) :
    update key k f rows = rows := by
  have hrows : rows.map (fun r => if key r = k then f r else r) = rows.map id := by
    refine List.map_congr_left (fun r hr => ?_)
    by_cases hk : key r = k
    · rw [if_pos hk, h r hr hk]
      rfl
    · rw [if_neg hk]
      rfl
  rw [List.map_id] at hrows
  exact hrows

theorem filter_update {k : κ} {f : ρ → ρ} {p : ρ → Bool} (hf : ∀ r, p (f r) = p r)
    (rows : List ρ) : (update key k f rows).filter p = update key k f (rows.filter p) := by
  have hp : ∀ r, p (if key r = k then f r else r) = p r := by
    intro r
    by_cases hk : key r = k
    · rw [if_pos hk, hf]
    · rw [if_neg hk]
  unfold update
  rw [List.filter_map]
  exact congrArg _ (List.filter_congr (fun r _ => hp r))

end

def changed {γ : Type} [DecidableEq γ] (columns : ρ → γ) (rows₀ rows : List ρ) : List ρ :=
  rows.filter (fun r => columns r ∉ rows₀.map columns)

theorem mem_changed {γ : Type} [DecidableEq γ] {columns : ρ → γ} {rows₀ rows : List ρ} {r : ρ} :
    r ∈ changed columns rows₀ rows ↔ r ∈ rows ∧ ∀ r₀ ∈ rows₀, columns r ≠ columns r₀ := by
  unfold changed
  rw [List.mem_filter, decide_eq_true_eq, List.mem_map, not_exists]
  refine and_congr_right (fun _ => forall_congr' (fun r₀ => ?_))
  rw [not_and]
  exact imp_congr_right (fun _ => ne_comm)

end Rows

/-- `rows` is `rows₀` after inserts under the keys `added` and updates of the rows
    under the keys `touched`. -/
structure Grown (key : ρ → κ) (rank : ρ → Nat) (rows₀ : List ρ) (added touched : List κ)
    (rows : List ρ) : Prop where
  keys : rows.map key = rows₀.map key ++ added
  kept : ∀ r ∈ rows₀, key r ∉ touched → r ∈ rows
  moved : ∀ r ∈ rows₀, key r ∈ touched → ∃ r' ∈ rows, key r' = key r ∧ rank r < rank r'

namespace Grown

variable {rows₀ rows : List ρ} {added touched : List κ}

theorem refl (rows₀ : List ρ) : Grown key rank rows₀ [] [] rows₀ where
  keys := (List.append_nil _).symm
  kept := fun _ hr _ => hr
  moved := fun _ _ h => absurd h List.not_mem_nil

theorem insert (h : Grown key rank rows₀ added touched rows) (r : ρ) :
    Grown key rank rows₀ (added ++ [key r]) touched (rows ++ [r]) where
  keys := by
    rw [List.map_append, h.keys, List.append_assoc]
    rfl
  kept := fun r hr hk => List.mem_append_left _ (h.kept r hr hk)
  moved := by
    intro r hr hk
    obtain ⟨r', hr', hkey, hrank⟩ := h.moved r hr hk
    exact ⟨r', List.mem_append_left _ hr', hkey, hrank⟩

theorem update [DecidableEq κ] (h : Grown key rank rows₀ added touched rows) {k : κ} {f : ρ → ρ}
    (hkey : ∀ r, key (f r) = key r) (hrank : ∀ r ∈ rows, key r = k → rank r < rank (f r)) :
    Grown key rank rows₀ added (touched ++ [k]) (Rows.update key k f rows) where
  keys := by rw [Rows.update_keys hkey, h.keys]
  kept := by
    intro r hr hk
    rw [List.mem_append, List.mem_singleton, not_or] at hk
    exact Rows.mem_update_ne (h.kept r hr hk.1) hk.2
  moved := by
    intro r hr hk
    -- the row the key has before this update, with a rank at least as high
    have hnow : ∃ r' ∈ rows, key r' = key r ∧ (rank r < rank r' ∨ r' = r ∧ key r = k) := by
      by_cases ht : key r ∈ touched
      · obtain ⟨r', hr', hsame, hless⟩ := h.moved r hr ht
        exact ⟨r', hr', hsame, .inl hless⟩
      · have hk' : key r = k := by
          rcases List.mem_append.mp hk with hk | hk
          · exact absurd hk ht
          · exact List.mem_singleton.mp hk
        exact ⟨r, h.kept r hr ht, rfl, .inr ⟨rfl, hk'⟩⟩
    obtain ⟨r', hr', hsame, hcases⟩ := hnow
    by_cases hk' : key r' = k
    · have hup := hrank r' hr' hk'
      refine ⟨f r', Rows.mem_update.mpr (.inr ⟨r', hr', hk', rfl⟩), ?_, ?_⟩
      · rw [hkey, hsame]
      · rcases hcases with hless | ⟨rfl, _⟩ <;> omega
    · refine ⟨r', Rows.mem_update_ne hr' hk', hsame, ?_⟩
      rcases hcases with hless | ⟨rfl, hk⟩
      · exact hless
      · exact absurd hk hk'

theorem length (h : Grown key rank rows₀ added touched rows) :
    rows.length = rows₀.length + added.length := by
  have hlength := congrArg List.length h.keys
  rw [List.length_map, List.length_append, List.length_map] at hlength
  exact hlength

variable {γ : Type} [DecidableEq γ] {columns : ρ → γ}

theorem keys_nodup (h : Grown key rank rows₀ added touched rows) (hkeys : (rows.map key).Nodup) :
    (rows₀.map key).Nodup ∧ added.Nodup ∧ ∀ k ∈ added, k ∉ rows₀.map key := by
  rw [h.keys, List.nodup_append] at hkeys
  obtain ⟨hold, hnew, hapart⟩ := hkeys
  exact ⟨hold, hnew, fun k hk hmem => hapart k hmem k hk rfl⟩

theorem mem_changed (h : Grown key rank rows₀ added touched rows)
    (hkeys : (rows.map key).Nodup)
    (hcolumns : ∀ r r', columns r = columns r' → key r = key r' ∧ rank r = rank r') {k : κ} :
    k ∈ (Rows.changed columns rows₀ rows).map key ↔
      k ∈ added ∨ k ∈ rows₀.map key ∧ k ∈ touched := by
  obtain ⟨hold, _, hapart⟩ := h.keys_nodup hkeys
  constructor
  · intro hk
    obtain ⟨r, hr, rfl⟩ := List.mem_map.mp hk
    obtain ⟨hmem, hdiffers⟩ := Rows.mem_changed.mp hr
    have hwhere : key r ∈ rows₀.map key ++ added := h.keys ▸ List.mem_map_of_mem hmem
    rcases List.mem_append.mp hwhere with hbefore | hadded
    · by_cases ht : key r ∈ touched
      · exact .inr ⟨hbefore, ht⟩
      · -- an old row nobody touched is still there, and there is no other under its key
        obtain ⟨r₀, hr₀, hsame⟩ := List.mem_map.mp hbefore
        have hstill : r₀ ∈ rows := h.kept r₀ hr₀ (hsame ▸ ht)
        obtain rfl : r₀ = r := Rows.eq_of_key hkeys hstill hmem hsame
        exact absurd rfl (hdiffers r₀ hr₀)
    · exact .inl hadded
  · rintro (hadded | ⟨hbefore, ht⟩)
    · have hmem : k ∈ rows.map key := by
        rw [h.keys]
        exact List.mem_append_right _ hadded
      obtain ⟨r, hr, rfl⟩ := List.mem_map.mp hmem
      refine List.mem_map_of_mem (Rows.mem_changed.mpr ⟨hr, ?_⟩)
      intro r₀ hr₀ hsame
      exact hapart _ hadded ((hcolumns _ _ hsame).1 ▸ List.mem_map_of_mem hr₀)
    · obtain ⟨r₀, hr₀, rfl⟩ := List.mem_map.mp hbefore
      obtain ⟨r, hr, hsame, hless⟩ := h.moved r₀ hr₀ ht
      rw [← hsame]
      refine List.mem_map_of_mem (Rows.mem_changed.mpr ⟨hr, ?_⟩)
      intro r₁ hr₁ hequal
      -- the only row it could have been is the one it has left behind
      obtain ⟨hkey, hrank⟩ := hcolumns _ _ hequal
      obtain rfl : r₁ = r₀ := Rows.eq_of_key hold hr₁ hr₀ (hkey.symm.trans hsame)
      omega

theorem length_changed (h : Grown key rank rows₀ added touched rows)
    (hkeys : (rows.map key).Nodup)
    (hcolumns : ∀ r r', columns r = columns r' → key r = key r' ∧ rank r = rank r') :
    (Rows.changed columns rows₀ rows).length = added.length ↔
      ∀ k ∈ touched, k ∉ rows₀.map key := by
  obtain ⟨_, hnew, hapart⟩ := h.keys_nodup hkeys
  have hnodup : ((Rows.changed columns rows₀ rows).map key).Nodup :=
    hkeys.sublist (List.filter_sublist.map _)
  have hmem := fun k => h.mem_changed (k := k) hkeys hcolumns
  constructor
  · intro hlength k ht hbefore
    have hsub : added ⊆ (Rows.changed columns rows₀ rows).map key :=
      fun k hk => (hmem k).mpr (.inl hk)
    have hperm : added.Perm ((Rows.changed columns rows₀ rows).map key) := by
      refine (List.subperm_of_subset hnew hsub).perm_of_length_le ?_
      rw [List.length_map]
      exact Nat.le_of_eq hlength
    have hadded : k ∈ added := hperm.mem_iff.mpr ((hmem k).mpr (.inr ⟨hbefore, ht⟩))
    exact hapart k hadded hbefore
  · intro hnone
    have hperm : ((Rows.changed columns rows₀ rows).map key).Perm added := by
      refine (List.perm_ext_iff_of_nodup hnodup hnew).mpr (fun k => ?_)
      have huntouched : ¬ (k ∈ rows₀.map key ∧ k ∈ touched) := fun hboth => hnone k hboth.2 hboth.1
      exact (hmem k).trans (or_iff_left huntouched)
    have hlength := hperm.length_eq
    rw [List.length_map] at hlength
    exact hlength

end Grown

end Framework
