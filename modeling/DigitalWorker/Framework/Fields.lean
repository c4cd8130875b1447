import Mathlib.Data.List.Basic

/-! # Fields between separators

    A text made of fields with separators between them is read by splitting it
    at the separators. What is read has as many fields as were written only if
    no field holds a separator itself, and then it is the fields.
-/

namespace Framework

variable {α : Type} {p : α → Bool} {sep : α}

theorem splitOnP_length_pos (field : List α) : 0 < (field.splitOnP p).length :=
  List.length_pos_of_ne_nil (List.splitOnP_ne_nil p field)

theorem splitOnP_length_eq_one (field : List α) :
    (field.splitOnP p).length = 1 ↔ ∀ x ∈ field, p x = false := by
  constructor
  · intro hlength x hx
    by_contra hsep
    have hsep : p x = true := by simpa using hsep
    -- the parts before and after the separator count for one each
    obtain ⟨before, after, rfl⟩ := List.append_of_mem hx
    rw [List.splitOnP_append_cons before after hsep, List.length_append] at hlength
    have hbefore := splitOnP_length_pos (p := p) before
    have hafter := splitOnP_length_pos (p := p) after
    omega
  · intro hclean
    rw [List.splitOnP_eq_singleton hclean]
    rfl

theorem splitOnP_intercalate (hsep : p sep = true) {fields : List (List α)} (hne : fields ≠ []) :
    ([sep].intercalate fields).splitOnP p = fields.flatMap (List.splitOnP p) := by
  induction fields with
  | nil => exact absurd rfl hne
  | cons field rest ih =>
    by_cases hrest : rest = []
    · subst hrest
      rw [List.intercalate_singleton, List.flatMap_cons, List.flatMap_nil, List.append_nil]
    · rw [List.intercalate_cons_of_ne_nil hrest, List.append_assoc, List.singleton_append,
        List.splitOnP_append_cons _ _ hsep, ih hrest, List.flatMap_cons]

theorem flatMap_splitOnP_length (fields : List (List α)) :
    (fields.flatMap (List.splitOnP p)).length = fields.length ↔
      ∀ field ∈ fields, ∀ x ∈ field, p x = false := by
  have hatLeast (fields : List (List α)) :
      fields.length ≤ (fields.flatMap (List.splitOnP p)).length := by
    induction fields with
    | nil => exact Nat.le_refl 0
    | cons field rest ih =>
      have hpos := splitOnP_length_pos (p := p) field
      rw [List.flatMap_cons, List.length_append, List.length_cons]
      omega
  induction fields with
  | nil => simp
  | cons field rest ih =>
    have hpos := splitOnP_length_pos (p := p) field
    have hrest := hatLeast rest
    rw [List.flatMap_cons, List.length_append, List.length_cons, List.forall_mem_cons]
    constructor
    · intro h
      exact ⟨(splitOnP_length_eq_one field).mp (by omega), ih.mp (by omega)⟩
    · intro h
      have hone := (splitOnP_length_eq_one field).mpr h.1
      have hmany := ih.mpr h.2
      omega

theorem flatMap_splitOnP (fields : List (List α))
    (hclean : ∀ field ∈ fields, ∀ x ∈ field, p x = false) :
    fields.flatMap (List.splitOnP p) = fields := by
  induction fields with
  | nil => rfl
  | cons field rest ih =>
    obtain ⟨hfield, hrest⟩ := List.forall_mem_cons.mp hclean
    rw [List.flatMap_cons, List.splitOnP_eq_singleton hfield, ih hrest]
    rfl

theorem first_field_inj [DecidableEq α] {a a' rest rest' : List α} (ha : sep ∉ a) (ha' : sep ∉ a')
    (h : a ++ sep :: rest = a' ++ sep :: rest') : a = a' ∧ rest = rest' := by
  have hhead : (a ++ sep :: rest).takeWhile (· ≠ sep) = a := by
    rw [List.takeWhile_append_of_pos]
    · simp
    · intro x hx
      have hne : x ≠ sep := fun heq => ha (heq ▸ hx)
      simpa using hne
  have hhead' : (a' ++ sep :: rest').takeWhile (· ≠ sep) = a' := by
    rw [List.takeWhile_append_of_pos]
    · simp
    · intro x hx
      have hne : x ≠ sep := fun heq => ha' (heq ▸ hx)
      simpa using hne
  have hsame : a = a' := by rw [← hhead, h, hhead']
  subst hsame
  exact ⟨rfl, (List.cons.inj (List.append_cancel_left h)).2⟩

end Framework
