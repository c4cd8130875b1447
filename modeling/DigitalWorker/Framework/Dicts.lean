import Mathlib.Data.List.Induction

/-! # Dictionaries in insertion order

    A dictionary is a list of entries; reading a key finds the first entry, and
    writing one that is there keeps its place.
-/

namespace Framework

variable {κ α β : Type} [DecidableEq κ]

def keys (d : List (κ × α)) : List κ := d.map (·.1)

/-- `d[key] = value`. -/
def setKey (d : List (κ × α)) (key : κ) (value : α) : List (κ × α) :=
  if key ∈ keys d then d.map (fun e => if e.1 = key then (key, value) else e)
  else d ++ [(key, value)]

section

variable {d : List (κ × α)} {key other : κ} {value : α}

omit [DecidableEq κ] in
@[simp] theorem keys_cons (e : κ × α) (d : List (κ × α)) : keys (e :: d) = e.1 :: keys d := rfl

theorem lookup_eq_none : d.lookup key = none ↔ key ∉ keys d := by
  induction d with
  | nil => simp [keys]
  | cons e d ih =>
    rw [List.lookup_cons, keys_cons, List.mem_cons, not_or]
    by_cases h : key = e.1
    · simp [h]
    · rw [beq_false_of_ne h]
      simp only [ih, h, not_false_eq_true, true_and]

theorem mem_keys_of_lookup (h : d.lookup key = some value) : key ∈ keys d := by
  by_contra hmem
  rw [lookup_eq_none.mpr hmem] at h
  cases h

theorem mem_of_lookup (h : d.lookup key = some value) : (key, value) ∈ d := by
  obtain ⟨l, r, rfl, _⟩ := List.lookup_eq_some_iff.mp h
  exact List.mem_append_right _ List.mem_cons_self

theorem exists_lookup (h : key ∈ keys d) : ∃ value, d.lookup key = some value :=
  Option.ne_none_iff_exists'.mp (fun hnone => lookup_eq_none.mp hnone h)

omit [DecidableEq κ] in
private theorem keys_replace [DecidableEq κ] :
    keys (d.map (fun e => if e.1 = key then (key, value) else e)) = keys d := by
  unfold keys
  rw [List.map_map]
  refine List.map_congr_left (fun e _ => ?_)
  by_cases he : e.1 = key
  · simp [he]
  · simp [he]

@[simp] theorem mem_keys_setKey : other ∈ keys (setKey d key value) ↔ other = key ∨ other ∈ keys d := by
  unfold setKey
  by_cases hmem : key ∈ keys d
  · rw [if_pos hmem, keys_replace]
    constructor
    · exact .inr
    · rintro (rfl | h)
      · exact hmem
      · exact h
  · rw [if_neg hmem, keys, List.map_append, List.mem_append, Or.comm]
    simp [keys]

theorem setKey_nodup (h : (keys d).Nodup) : (keys (setKey d key value)).Nodup := by
  unfold setKey
  by_cases hmem : key ∈ keys d
  · rw [if_pos hmem, keys_replace]
    exact h
  · rw [if_neg hmem, keys, List.map_append]
    refine List.nodup_append.mpr ⟨h, by simp, ?_⟩
    intro a ha b hb heq
    have hkey : b = key := List.mem_singleton.mp hb
    rw [heq, hkey] at ha
    exact hmem ha

@[simp] theorem lookup_setKey_self : (setKey d key value).lookup key = some value := by
  unfold setKey
  by_cases hmem : key ∈ keys d
  · rw [if_pos hmem]
    induction d with
    | nil => cases hmem
    | cons e d ih =>
      rw [List.map_cons]
      by_cases he : e.1 = key
      · rw [if_pos he, List.lookup_cons_self]
      · have hrest : key ∈ keys d := by
          rcases List.mem_cons.mp hmem with h | h
          · exact absurd h.symm he
          · exact h
        rw [if_neg he, List.lookup_cons, beq_false_of_ne (Ne.symm he)]
        exact ih hrest
  · rw [if_neg hmem, List.lookup_append, lookup_eq_none.mpr hmem, Option.none_or]
    exact List.lookup_cons_self

theorem lookup_setKey_ne (h : other ≠ key) : (setKey d key value).lookup other = d.lookup other := by
  unfold setKey
  by_cases hmem : key ∈ keys d
  · rw [if_pos hmem]
    clear hmem
    induction d with
    | nil => rfl
    | cons e d ih =>
      rw [List.map_cons, List.lookup_cons, List.lookup_cons, ih]
      by_cases he : e.1 = key
      · rw [if_pos he, beq_false_of_ne h, he, beq_false_of_ne h]
      · rw [if_neg he]
  · have hsingle : [(key, value)].lookup other = none := by
      rw [List.lookup_cons, beq_false_of_ne h]
      rfl
    rw [if_neg hmem, List.lookup_append, hsingle, Option.or_none]

theorem mem_setKey {e : κ × α} (h : e ∈ setKey d key value) :
    e = (key, value) ∨ (e.1 ≠ key ∧ e ∈ d) := by
  unfold setKey at h
  by_cases hmem : key ∈ keys d
  · rw [if_pos hmem] at h
    obtain ⟨e', he', heq⟩ := List.mem_map.mp h
    by_cases hkey : e'.1 = key
    · rw [if_pos hkey] at heq
      exact .inl heq.symm
    · rw [if_neg hkey] at heq
      rw [← heq]
      exact .inr ⟨hkey, he'⟩
  · rw [if_neg hmem] at h
    rcases List.mem_append.mp h with he | he
    · exact .inr ⟨fun hkey => hmem (hkey ▸ List.mem_map_of_mem he), he⟩
    · exact .inl (List.mem_singleton.mp he)

theorem mem_setKey_of_ne {e : κ × α} (he : e ∈ d) (hne : e.1 ≠ key) : e ∈ setKey d key value := by
  unfold setKey
  by_cases hmem : key ∈ keys d
  · rw [if_pos hmem]
    exact List.mem_map.mpr ⟨e, he, if_neg hne⟩
  · rw [if_neg hmem]
    exact List.mem_append_left _ he

theorem lookup_filter (h : (keys d).Nodup) (p : κ × α → Bool) :
    (d.filter p).lookup key = (d.lookup key).filter (fun value => p (key, value)) := by
  induction d with
  | nil => rfl
  | cons e d ih =>
    obtain ⟨k, v⟩ := e
    rw [keys_cons, List.nodup_cons] at h
    rw [List.filter_cons, List.lookup_cons]
    by_cases hkey : key = k
    · subst hkey
      have hnone : (d.filter p).lookup key = none := by
        rw [ih h.2, lookup_eq_none.mpr h.1]
        rfl
      by_cases hp : p (key, v) = true <;> simp [hp, hnone, Option.filter]
    · by_cases hp : p (k, v) = true <;> simp [hp, List.lookup_cons, beq_false_of_ne hkey, ih h.2]

theorem setKey_eq_self (hmem : key ∈ keys d) (h : ∀ e ∈ d, e.1 = key → e.2 = value) :
    setKey d key value = d := by
  unfold setKey
  rw [if_pos hmem]
  have hsame : ∀ e ∈ d, (if e.1 = key then (key, value) else e) = e := by
    intro e he
    by_cases hkey : e.1 = key
    · rw [if_pos hkey, ← hkey, ← h e he hkey]
    · rw [if_neg hkey]
  rw [List.map_congr_left hsame, List.map_id']

end

omit [DecidableEq κ] in
theorem filter_eq_singleton {d : List (κ × α)} (hd : (keys d).Nodup) {f : κ × α → Bool}
    {e : κ × α} (he : e ∈ d) (hf : f e = true) (hone : ∀ e' ∈ d, f e' = true → e'.1 = e.1) :
    d.filter f = [e] := by
  have hmem : e ∈ d.filter f := List.mem_filter.mpr ⟨he, hf⟩
  have hkey : ∀ e' ∈ d.filter f, e'.1 = e.1 := by
    intro e' he'
    obtain ⟨hin, hholds⟩ := List.mem_filter.mp he'
    exact hone e' hin hholds
  have hnodup : (keys (d.filter f)).Nodup := hd.sublist (List.filter_sublist.map _)
  cases hfilter : d.filter f with
  | nil =>
    rw [hfilter] at hmem
    cases hmem
  | cons a rest =>
    rw [hfilter] at hmem hkey hnodup
    -- a second entry would have the same key
    have hrest : rest = [] := by
      cases rest with
      | nil => rfl
      | cons b rest =>
        have hab : a.1 = b.1 := (hkey a (by simp)).trans (hkey b (by simp)).symm
        rw [keys_cons, List.nodup_cons] at hnodup
        exact absurd (by simp [hab]) hnodup.1
    subst hrest
    rw [List.mem_singleton.mp hmem]

def dictOf (keyOf : β → Option κ) (valueOf : β → α) (xs : List β) : List (κ × α) :=
  xs.foldl (fun d x => match keyOf x with
    | some key => setKey d key (valueOf x)
    | none => d) []

theorem dictOf_append_singleton {keyOf : β → Option κ} {valueOf : β → α} (xs : List β) (x : β) :
    dictOf keyOf valueOf (xs ++ [x]) = match keyOf x with
      | some key => setKey (dictOf keyOf valueOf xs) key (valueOf x)
      | none => dictOf keyOf valueOf xs := by
  rw [dictOf, List.foldl_append]
  rfl

theorem dictOf_nodup {keyOf : β → Option κ} {valueOf : β → α} (xs : List β) :
    (keys (dictOf keyOf valueOf xs)).Nodup := by
  induction xs using List.reverseRecOn with
  | nil => exact List.nodup_nil
  | append_singleton xs x ih =>
    rw [dictOf_append_singleton]
    cases keyOf x with
    | none => exact ih
    | some key => exact setKey_nodup ih

theorem lookup_dictOf {keyOf : β → Option κ} {valueOf : β → α} (xs : List β) (key : κ) :
    (dictOf keyOf valueOf xs).lookup key =
      ((xs.filter (fun x => keyOf x == some key)).getLast?).map valueOf := by
  induction xs using List.reverseRecOn with
  | nil => rfl
  | append_singleton xs x ih =>
    rw [dictOf_append_singleton, List.filter_append]
    by_cases hkey : keyOf x = some key
    · rw [hkey]
      simp [hkey]
    · have hnone : [x].filter (fun x => keyOf x == some key) = [] := by
        simp [hkey]
      rw [hnone, List.append_nil, ← ih]
      cases hother : keyOf x with
      | none => rfl
      | some other =>
        have hne : key ≠ other := fun heq => hkey (by rw [hother, heq])
        exact lookup_setKey_ne hne

end Framework
