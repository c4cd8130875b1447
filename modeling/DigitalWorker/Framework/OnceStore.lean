import Mathlib.Data.List.Nodup
import Mathlib.Data.List.Sort
import Mathlib.Logic.Function.Basic

/-! # Insert-once stores

    A store that keeps at most one row per key: inserting a row whose key is
    taken changes nothing and reports nothing (`ON CONFLICT DO NOTHING`). The
    caller of such a store cannot tell an accepted row from a swallowed one, so
    what matters is when the keys a history of inserts uses are fresh.

    Where a row is keyed by its position in a batch, a batch adds only what goes
    beyond the entries its group has, whatever it says at the places before
    (`Laid.put`, `Laid.read`).
-/

namespace Framework

section

variable {ρ κ : Type} [DecidableEq κ]

/-- Insert `r` unless its key is taken. -/
def insertOnce (key : ρ → κ) (rows : List ρ) (r : ρ) : List ρ :=
  if key r ∈ rows.map key then rows else r :: rows

def Accepted (key : ρ → κ) (rows : List ρ) (r : ρ) : Prop := key r ∉ rows.map key

theorem insertOnce_of_accepted {key : ρ → κ} {rows : List ρ} {r : ρ}
    (h : Accepted key rows r) : insertOnce key rows r = r :: rows :=
  if_neg h

@[simp] theorem mem_keys_insertOnce {key : ρ → κ} {rows : List ρ} {r : ρ} {k : κ} :
    k ∈ (insertOnce key rows r).map key ↔ k = key r ∨ k ∈ rows.map key := by
  unfold insertOnce
  by_cases h : key r ∈ rows.map key
  · rw [if_pos h]
    refine ⟨Or.inr, ?_⟩
    rintro (rfl | hk)
    · exact h
    · exact hk
  · rw [if_neg h, List.map_cons, List.mem_cons]

theorem find_insertOnce {key : ρ → κ} {rows : List ρ} {r : ρ} {k : κ} :
    (insertOnce key rows r).find? (fun x => key x == k) =
      (rows.find? (fun x => key x == k)).or (if key r = k then some r else none) := by
  unfold insertOnce
  by_cases hr : key r ∈ rows.map key
  · rw [if_pos hr]
    by_cases hk : key r = k
    · obtain ⟨x, hx, hkey⟩ := List.mem_map.mp hr
      have hfound : (rows.find? (fun x => key x == k)).isSome := by
        rw [List.find?_isSome]
        exact ⟨x, hx, by simp [hkey, hk]⟩
      rw [Option.or_of_isSome hfound]
    · rw [if_neg hk, Option.or_none]
  · rw [if_neg hr, List.find?_cons]
    by_cases hk : key r = k
    · subst hk
      have hnone : rows.find? (fun x => key x == key r) = none := by
        rw [List.find?_eq_none]
        intro x hx heq
        exact hr (List.mem_map.mpr ⟨x, hx, by simpa using heq⟩)
      simp [hnone]
    · have hbeq : (key r == k) = false := by simpa using hk
      rw [hbeq, if_neg hk, Option.or_none]

theorem mem_insertOnce {key : ρ → κ} {rows : List ρ} {r x : ρ}
    (h : x ∈ insertOnce key rows r) : x = r ∨ x ∈ rows := by
  unfold insertOnce at h
  split at h
  · exact .inr h
  · exact List.mem_cons.mp h

theorem mem_insertOnce_of_mem {key : ρ → κ} {rows : List ρ} {r x : ρ} (h : x ∈ rows) :
    x ∈ insertOnce key rows r := by
  unfold insertOnce
  split
  · exact h
  · exact List.mem_cons_of_mem _ h

theorem find_of_nodup {key : ρ → κ} {rows : List ρ} (hkeys : (rows.map key).Nodup) {r : ρ}
    (hr : r ∈ rows) : rows.find? (fun x => key x == key r) = some r := by
  obtain ⟨x, hx⟩ : ∃ x, rows.find? (fun x => key x == key r) = some x := by
    rw [← Option.isSome_iff_exists, List.find?_isSome]
    exact ⟨r, hr, by simp⟩
  have hkey : key x = key r := by simpa using List.find?_some hx
  rw [hx, List.inj_on_of_nodup_map hkeys (List.mem_of_find?_eq_some hx) hr hkey]

omit [DecidableEq κ] in
theorem filter_of_nodup {key : ρ → κ} {rows : List ρ} (hkeys : (rows.map key).Nodup) {r : ρ}
    (hr : r ∈ rows) {p : ρ → Bool} (hp : p r = true)
    (hsame : ∀ x ∈ rows, p x = true → key x = key r) : rows.filter p = [r] := by
  have hall : ∀ x ∈ rows.filter p, x = r := by
    intro x hx
    obtain ⟨hmem, hpx⟩ := List.mem_filter.mp hx
    exact List.inj_on_of_nodup_map hkeys hmem hr (hsame x hmem hpx)
  have hmem : r ∈ rows.filter p := List.mem_filter.mpr ⟨hr, hp⟩
  have hnodup : (rows.filter p).Nodup := (hkeys.of_map key).filter p
  obtain ⟨n, hn⟩ : ∃ n, rows.filter p = List.replicate n r :=
    ⟨_, List.eq_replicate_of_mem hall⟩
  rw [hn] at hmem hnodup ⊢
  have hle : n ≤ 1 := List.nodup_replicate.mp hnodup
  have hpos : n ≠ 0 := by
    intro h
    rw [h] at hmem
    exact List.not_mem_nil hmem
  obtain rfl : n = 1 := by omega
  rfl

/-! ## One insert after the other -/

theorem nodup_insertOnce {key : ρ → κ} {rows : List ρ} {r : ρ} (h : (rows.map key).Nodup) :
    ((insertOnce key rows r).map key).Nodup := by
  unfold insertOnce
  by_cases hr : key r ∈ rows.map key
  · rwa [if_pos hr]
  · rw [if_neg hr, List.map_cons, List.nodup_cons]
    exact ⟨hr, h⟩

/-- The rows after inserting each of `rs` in turn. -/
def insertAll (key : ρ → κ) (rows rs : List ρ) : List ρ := rs.foldl (insertOnce key) rows

variable {key : ρ → κ} {rows rs : List ρ} {x : ρ} {k : κ}

theorem nodup_insertAll (h : (rows.map key).Nodup) : ((insertAll key rows rs).map key).Nodup := by
  unfold insertAll
  induction rs generalizing rows with
  | nil => exact h
  | cons r rs ih => exact ih (nodup_insertOnce h)

theorem mem_keys_insertAll :
    k ∈ (insertAll key rows rs).map key ↔ k ∈ rs.map key ∨ k ∈ rows.map key := by
  unfold insertAll
  induction rs generalizing rows with
  | nil => simp
  | cons r rs ih =>
    rw [List.foldl_cons, ih, mem_keys_insertOnce, List.map_cons, List.mem_cons]
    tauto

theorem mem_insertAll (h : x ∈ insertAll key rows rs) : x ∈ rs ∨ x ∈ rows := by
  unfold insertAll at h
  induction rs generalizing rows with
  | nil => exact Or.inr h
  | cons r rs ih =>
    rcases ih h with h | h
    · exact Or.inl (List.mem_cons_of_mem _ h)
    · rcases mem_insertOnce h with rfl | h
      · exact Or.inl List.mem_cons_self
      · exact Or.inr h

theorem mem_insertAll_of_mem (h : x ∈ rows) : x ∈ insertAll key rows rs := by
  unfold insertAll
  induction rs generalizing rows with
  | nil => exact h
  | cons r rs ih => exact ih (mem_insertOnce_of_mem h)

theorem mem_insertAll_iff (hkeys : (rs.map key).Nodup) :
    x ∈ insertAll key rows rs ↔ x ∈ rows ∨ (x ∈ rs ∧ key x ∉ rows.map key) := by
  unfold insertAll
  induction rs generalizing rows with
  | nil => simp
  | cons r rs ih =>
    obtain ⟨hfresh, hkeys⟩ := List.nodup_cons.mp hkeys
    rw [List.foldl_cons, ih hkeys, mem_keys_insertOnce]
    have hother : x ∈ rs → key x ≠ key r := fun hx heq => hfresh (heq ▸ List.mem_map_of_mem hx)
    by_cases hr : key r ∈ rows.map key
    · rw [insertOnce, if_pos hr, List.mem_cons]
      constructor
      · rintro (hx | ⟨hx, hk⟩)
        · exact .inl hx
        · exact .inr ⟨.inr hx, fun h => hk (.inr h)⟩
      · rintro (hx | ⟨rfl | hx, hk⟩)
        · exact .inl hx
        · exact absurd hr hk
        · exact .inr ⟨hx, fun h => h.elim (hother hx) hk⟩
    · rw [insertOnce_of_accepted hr, List.mem_cons, List.mem_cons]
      constructor
      · rintro ((rfl | hx) | ⟨hx, hk⟩)
        · exact .inr ⟨.inl rfl, hr⟩
        · exact .inl hx
        · exact .inr ⟨.inr hx, fun h => hk (.inr h)⟩
      · rintro (hx | ⟨rfl | hx, hk⟩)
        · exact .inl (.inr hx)
        · exact .inl (.inl rfl)
        · exact .inr ⟨hx, fun h => h.elim (hother hx) hk⟩

end

/-! ## Entries kept by their position -/

structure Positioned (γ α : Type) where
  group : γ
  idx : Nat
  item : α

namespace Positioned

variable {γ α : Type}

def key (p : Positioned γ α) : γ × Nat := (p.group, p.idx)

def batch (g : γ) (items : List α) : List (Positioned γ α) := items.mapIdx (fun i a => ⟨g, i, a⟩)

theorem mem_batch {g : γ} {items : List α} {p : Positioned γ α} :
    p ∈ batch g items ↔ p.group = g ∧ items[p.idx]? = some p.item := by
  obtain ⟨h, i, a⟩ := p
  simp only [batch, List.mem_mapIdx, List.getElem?_eq_some_iff]
  constructor
  · rintro ⟨j, hj, heq⟩
    cases heq
    exact ⟨rfl, hj, rfl⟩
  · rintro ⟨rfl, hi, rfl⟩
    exact ⟨i, hi, rfl⟩

theorem batch_ascends (g : γ) (items : List α) :
    (batch g items).Pairwise (fun p q => p.idx < q.idx) := by
  rw [List.pairwise_iff_getElem]
  intro i j hi hj hij
  simpa [batch] using hij

@[simp] theorem map_item_batch (g : γ) (items : List α) : (batch g items).map item = items := by
  apply List.ext_getElem?
  intro i
  simp [batch, Function.comp_def]

theorem nodup_batch (g : γ) (items : List α) : ((batch g items).map key).Nodup := by
  rw [List.Nodup, List.pairwise_map]
  refine (batch_ascends g items).imp ?_
  intro p q hlt heq
  exact absurd (congrArg Prod.snd heq) (Nat.ne_of_lt hlt)

end Positioned

/-! ## The last entry with a label -/

section

variable {κ α β : Type} [DecidableEq κ] {c : κ} {xs ys : List (κ × α)}

/-- What the last entry labelled `c` says. -/
def lastOf (c : κ) (xs : List (κ × α)) : Option α := xs.reverse.lookup c

@[simp] theorem lastOf_nil : lastOf c ([] : List (κ × α)) = none := rfl

theorem lastOf_append : lastOf c (xs ++ ys) = (lastOf c ys).or (lastOf c xs) := by
  rw [lastOf, List.reverse_append, List.lookup_append]
  rfl

theorem lastOf_map (f : α → β) :
    lastOf c (xs.map (fun x => (x.1, f x.2))) = (lastOf c xs).map f := by
  unfold lastOf
  rw [← List.map_reverse]
  induction xs.reverse with
  | nil => rfl
  | cons x l ih =>
    rw [List.map_cons, List.lookup_cons, List.lookup_cons, ih]
    cases c == x.1 <;> rfl

theorem lastOf_isSome : (lastOf c xs).isSome ↔ c ∈ xs.map Prod.fst := by
  rw [Option.isSome_iff_ne_none, lastOf, Ne, List.lookup_eq_none_iff]
  simp

/-- An entry behind the first `n` is the last one if there is any. -/
theorem lastOf_drop (n : Nat) :
    lastOf c xs = (lastOf c (xs.drop n)).or (lastOf c (xs.take n)) := by
  rw [← lastOf_append, List.take_append_drop]

end

open Positioned

variable {γ α : Type} {rows : List (Positioned γ α)} {content : γ → List α}

structure Laid (content : γ → List α) (rows : List (Positioned γ α)) : Prop where
  keys : (rows.map key).Nodup
  mem : ∀ p, p ∈ rows ↔ (content p.group)[p.idx]? = some p.item

theorem Laid.nil : Laid (fun _ => []) ([] : List (Positioned γ α)) :=
  ⟨List.nodup_nil, fun p => by simp⟩

variable [DecidableEq γ]

def overlay (content : γ → List α) (g : γ) (items : List α) : γ → List α :=
  Function.update content g (content g ++ items.drop (content g).length)

/-- **Put**: a batch adds what goes beyond the entries its group has. -/
theorem Laid.put (h : Laid content rows) (g : γ) (items : List α) :
    Laid (overlay content g items) (insertAll key rows (batch g items)) := by
  refine ⟨nodup_insertAll h.keys, ?_⟩
  intro p
  rw [mem_insertAll_iff (nodup_batch g items), h.mem, mem_batch]
  by_cases hg : p.group = g
  · subst hg
    have htaken : p.key ∈ rows.map key ↔ p.idx < (content p.group).length := by
      simp only [List.mem_map, h.mem]
      constructor
      · rintro ⟨q, hq, hkey⟩
        obtain ⟨hgroup, hidx⟩ := Prod.mk.inj hkey
        rw [hgroup, hidx] at hq
        exact (List.getElem?_eq_some_iff.mp hq).1
      · intro hlt
        exact ⟨⟨p.group, p.idx, (content p.group)[p.idx]⟩, List.getElem?_eq_getElem hlt, rfl⟩
    rw [overlay, Function.update_self, htaken]
    by_cases hlt : p.idx < (content p.group).length
    · simp [hlt, List.getElem?_append_left hlt]
    · have hle : (content p.group).length ≤ p.idx := Nat.le_of_not_lt hlt
      rw [List.getElem?_append_right hle, List.getElem?_drop, List.getElem?_eq_none hle]
      simp [hlt, Nat.add_sub_cancel' hle]
  · simp [overlay, hg]

/-- **Read**: of the rows whose entries pass a test, sorted by position within a group,
    those of the group are its entries that pass it, in order. -/
theorem Laid.read (h : Laid content rows) {read : List (Positioned γ α)} {g : γ} {q : α → Bool}
    (hsorted : read.Pairwise (fun p p' => p.group = g → p'.group = g → p.idx ≤ p'.idx))
    (hnodup : read.Nodup)
    (hmem : ∀ p, p.group = g → (p ∈ read ↔ p ∈ rows ∧ q p.item = true)) :
    (read.filter (fun p => p.group = g)).map item = (content g).filter q := by
  have hmember : ∀ p, p ∈ read.filter (fun p => p.group = g) ↔
      p ∈ (batch g (content g)).filter (fun p => q p.item) := by
    intro p
    rw [List.mem_filter, decide_eq_true_eq, List.mem_filter, mem_batch, and_comm, and_assoc]
    refine and_congr_right ?_
    rintro rfl
    rw [hmem p rfl, h.mem]
  have hbatch := (batch_ascends g (content g)).filter (fun p => q p.item)
  have hperm : (read.filter (fun p => p.group = g)).Perm
      ((batch g (content g)).filter (fun p => q p.item)) :=
    (List.perm_ext_iff_of_nodup (hnodup.filter _)
      (((nodup_batch g _).of_map key).filter _)).mpr hmember
  have hascends : (read.filter (fun p => p.group = g)).Pairwise (fun p p' => p.idx ≤ p'.idx) := by
    rw [List.pairwise_filter]
    refine hsorted.imp ?_
    intro p p' hle hp hp'
    exact hle (by simpa using hp) (by simpa using hp')
  have heq := hperm.eq_of_pairwise ?_ hascends (hbatch.imp Nat.le_of_lt)
  · rw [heq]
    have hfilter := List.filter_map (f := item) (p := q) (l := batch g (content g))
    rw [map_item_batch] at hfilter
    exact hfilter.symm
  · intro p p' hp hp' hle hle'
    obtain ⟨hg, hi⟩ := mem_batch.mp (List.mem_filter.mp ((hmember p).mp hp)).1
    obtain ⟨hg', hi'⟩ := mem_batch.mp (List.mem_filter.mp hp').1
    have hidx : p.idx = p'.idx := Nat.le_antisymm hle hle'
    rw [hidx, hi'] at hi
    obtain ⟨g₁, i, a⟩ := p
    obtain ⟨g₂, j, b⟩ := p'
    obtain rfl : b = a := Option.some.inj hi
    obtain rfl : i = j := hidx
    exact congrArg (fun g => (⟨g, i, b⟩ : Positioned γ α)) (hg.trans hg'.symm)

end Framework
