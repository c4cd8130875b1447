import Mathlib.Data.List.DropRight
import DigitalWorker.Framework.Fields

/-! # Where a word occurs

    A word is searched for in a text that was trimmed, cut at separators, or
    joined from parts. Trimming and cutting neither lose nor add an occurrence
    of a word that has no separator in it. Joining adds the occurrences that lie
    across a seam.
-/

namespace Framework

variable {α : Type} {p : α → Bool} {word text : List α}

/-- Search for a word at a place the two sides of which are acceptable. The text
    before the place is given last element first. -/
def occursWhere [BEq α] (ok : List α → List α → Bool) (word : List α) :
    List α → List α → Bool
  | before, [] => word.isEmpty && ok before []
  | before, x :: rest =>
    (word.isPrefixOf (x :: rest) && ok before ((x :: rest).drop word.length)) ||
      occursWhere ok word (x :: before) rest

theorem occursWhere_iff [BEq α] [LawfulBEq α] {ok : List α → List α → Bool}
    (before text : List α) :
    occursWhere ok word before text = true ↔
      ∃ front back, text = front ++ word ++ back ∧ ok (front.reverse ++ before) back = true := by
  induction text generalizing before with
  | nil =>
    simp only [occursWhere, Bool.and_eq_true, List.isEmpty_iff]
    constructor
    · intro h
      exact ⟨[], [], by simp [h.1], by simpa using h.2⟩
    · intro h
      obtain ⟨front, back, htext, hok⟩ := h
      obtain ⟨hfront, rfl⟩ := List.append_eq_nil_iff.mp htext.symm
      obtain ⟨rfl, rfl⟩ := List.append_eq_nil_iff.mp hfront
      exact ⟨rfl, by simpa using hok⟩
  | cons x rest ih =>
    simp only [occursWhere, Bool.or_eq_true, Bool.and_eq_true, List.isPrefixOf_iff_prefix, ih]
    constructor
    · intro h
      rcases h with ⟨⟨back, hback⟩, hok⟩ | ⟨front, back, hrest, hok⟩
      · refine ⟨[], back, by simp [hback], ?_⟩
        rw [← hback, List.drop_left] at hok
        simpa using hok
      · exact ⟨x :: front, back, by simp [hrest], by simpa using hok⟩
    · intro h
      obtain ⟨front, back, htext, hok⟩ := h
      cases front with
      | nil =>
        left
        rw [List.nil_append] at htext
        refine ⟨⟨back, htext.symm⟩, ?_⟩
        rw [htext, List.drop_left]
        simpa using hok
      | cons y front =>
        right
        obtain ⟨rfl, hrest⟩ := List.cons.inj htext
        exact ⟨front, back, hrest, by simpa using hok⟩

/-! ## Cutting -/

theorem infix_splitOnP (hne : word ≠ []) (hclean : ∀ x ∈ word, p x = false) (text : List α) :
    word <:+: text ↔ ∃ piece ∈ text.splitOnP p, word <:+: piece := by
  -- the text behind the first separator is shorter
  induction hlen : text.length using Nat.strong_induction_on generalizing text with
  | _ n ih =>
    by_cases hsep : ∀ x ∈ text, p x = false
    · rw [List.splitOnP_eq_singleton hsep]
      simp
    · push Not at hsep
      obtain ⟨x, hx, hpx⟩ := hsep
      have hpx : p x = true := by simpa using hpx
      obtain ⟨before, after, rfl⟩ := List.append_of_mem hx
      have hbefore := ih before.length (by simp at hlen; omega) before rfl
      have hafter := ih after.length (by simp at hlen; omega) after rfl
      have hx : x ∉ word := fun hmem => by simp [hclean x hmem] at hpx
      have hsplit : word <:+: before ++ x :: after ↔ word <:+: before ∨ word <:+: after := by
        constructor
        · intro h
          rcases List.infix_append_iff.mp h with h | h | ⟨front, back, hword, hfront, hback⟩
          · exact .inl h
          · rcases List.infix_cons_iff.mp h with h | h
            · -- a word that starts at the separator has it as its head
              obtain ⟨rest, hrest⟩ := h
              cases word with
              | nil => exact absurd rfl hne
              | cons y word =>
                obtain ⟨rfl, _⟩ := List.cons.inj hrest
                exact absurd List.mem_cons_self hx
            · exact .inr h
          · cases back with
            | nil =>
              rw [List.append_nil] at hword
              exact .inl (hword ▸ hfront.isInfix)
            | cons y back =>
              obtain ⟨rest, hrest⟩ := hback
              obtain ⟨rfl, _⟩ := List.cons.inj hrest
              exact absurd (hword ▸ List.mem_append_right front List.mem_cons_self) hx
        · intro h
          rcases h with h | h
          · exact List.infix_append_of_infix_left h
          · exact List.infix_append_of_infix_right (List.infix_cons h)
      rw [List.splitOnP_append_cons before after hpx, hsplit, hbefore, hafter]
      simp only [List.mem_append]
      constructor
      · intro h
        rcases h with ⟨piece, hmem, hin⟩ | ⟨piece, hmem, hin⟩
        · exact ⟨piece, .inl hmem, hin⟩
        · exact ⟨piece, .inr hmem, hin⟩
      · intro h
        obtain ⟨piece, hmem | hmem, hin⟩ := h
        · exact .inl ⟨piece, hmem, hin⟩
        · exact .inr ⟨piece, hmem, hin⟩

/-- A word whose head is not trimmed survives the trimming of the front. -/
theorem infix_dropWhile {x : α} (hx : p x = false) (rest text : List α) :
    (x :: rest) <:+: text.dropWhile p ↔ (x :: rest) <:+: text := by
  induction text with
  | nil => simp
  | cons y text ih =>
    by_cases hy : p y = true
    · rw [List.dropWhile_cons_of_pos hy, ih]
      constructor
      · exact List.infix_cons
      · intro h
        rcases List.infix_cons_iff.mp h with ⟨tail, htail⟩ | h
        · obtain ⟨rfl, _⟩ := List.cons.inj htail
          simp [hx] at hy
        · exact h
    · rw [List.dropWhile_cons_of_neg hy]

/-- ... and one whose last element is not trimmed that of the end. -/
theorem infix_rdropWhile {x : α} (hx : p x = false) (init text : List α) :
    (init ++ [x]) <:+: text.rdropWhile p ↔ (init ++ [x]) <:+: text := by
  have hword : (init ++ [x]).reverse = x :: init.reverse := by simp
  calc (init ++ [x]) <:+: text.rdropWhile p
      ↔ (x :: init.reverse) <:+: text.reverse.dropWhile p := by
        rw [← List.reverse_infix, hword, List.rdropWhile, List.reverse_reverse]
    _ ↔ (x :: init.reverse) <:+: text.reverse := infix_dropWhile hx _ _
    _ ↔ (init ++ [x]) <:+: text := by rw [← hword, List.reverse_infix]

/-! ## Joining -/

theorem infix_append_of_not_mem {x : α} {rest front : List α} (hx : x ∉ front) (text : List α) :
    (x :: rest) <:+: front ++ text ↔ (x :: rest) <:+: text := by
  constructor
  · intro h
    rcases List.infix_append_iff.mp h with h | h | ⟨start, back, hword, hstart, hback⟩
    · exact absurd (h.subset List.mem_cons_self) hx
    · exact h
    · cases start with
      | nil =>
        rw [List.nil_append] at hword
        exact hword ▸ hback.isInfix
      | cons y start =>
        obtain ⟨rfl, _⟩ := List.cons.inj hword
        exact absurd (hstart.subset List.mem_cons_self) hx
  · exact List.infix_append_of_infix_right

def AcrossSeam (sep word : List α) (parts : List (List α)) : Prop :=
  ∃ before after start stop, parts = before ++ after ∧ before ≠ [] ∧ after ≠ [] ∧
    word = start ++ sep ++ stop ∧ start <:+ sep.intercalate before ∧
    stop <+: sep.intercalate after

theorem intercalate_append {sep : List α} {before after : List (List α)} (hbefore : before ≠ [])
    (hafter : after ≠ []) : sep.intercalate (before ++ after) =
      sep.intercalate before ++ sep ++ sep.intercalate after := by
  induction before with
  | nil => exact absurd rfl hbefore
  | cons part before ih =>
    by_cases hnil : before = []
    · subst hnil
      rw [List.singleton_append, List.intercalate_cons_of_ne_nil hafter,
        List.intercalate_singleton]
    · rw [List.cons_append, List.intercalate_cons_of_ne_nil (by simp [hnil]),
        List.intercalate_cons_of_ne_nil hnil, ih hnil]
      simp only [List.append_assoc]

theorem infix_intercalate_of_mem {sep part : List α} {parts : List (List α)} (hmem : part ∈ parts)
    (h : word <:+: part) : word <:+: sep.intercalate parts := by
  induction parts with
  | nil => cases hmem
  | cons first rest ih =>
    by_cases hnil : rest = []
    · subst hnil
      rw [List.intercalate_singleton]
      rw [List.mem_singleton] at hmem
      exact hmem ▸ h
    · rw [List.intercalate_cons_of_ne_nil hnil]
      rcases List.mem_cons.mp hmem with rfl | hmem
      · exact List.infix_append_of_infix_left (List.infix_append_of_infix_left h)
      · exact List.infix_append_of_infix_right (ih hmem)

/-- **Seams**: with one element between the parts, a word of the joined text lies
    in one part or across a seam. -/
theorem infix_intercalate_iff {x : α} (hne : word ≠ []) (parts : List (List α)) :
    word <:+: [x].intercalate parts ↔
      (∃ part ∈ parts, word <:+: part) ∨ AcrossSeam [x] word parts := by
  constructor
  · intro h
    induction parts with
    | nil =>
      rw [List.intercalate_nil] at h
      exact absurd (List.infix_nil.mp h) hne
    | cons first rest ih =>
      by_cases hnil : rest = []
      · subst hnil
        rw [List.intercalate_singleton] at h
        exact .inl ⟨first, List.mem_singleton_self _, h⟩
      · rw [List.intercalate_cons_of_ne_nil hnil, List.append_assoc] at h
        have hrest : word <:+: [x].intercalate rest →
            (∃ part ∈ first :: rest, word <:+: part) ∨ AcrossSeam [x] word (first :: rest) := by
          intro h
          rcases ih h with ⟨part, hmem, hin⟩ | ⟨before, after, start, stop, hparts, hbefore,
            hafter, hword, hstart, hstop⟩
          · exact .inl ⟨part, List.mem_cons_of_mem _ hmem, hin⟩
          · refine .inr ⟨first :: before, after, start, stop, by rw [hparts]; rfl, by simp,
              hafter, hword, ?_, hstop⟩
            rw [List.intercalate_cons_of_ne_nil hbefore]
            exact hstart.trans (List.suffix_append _ _)
        rcases List.infix_append_iff.mp h with h | h | ⟨start, back, hword, hstart, hback⟩
        · exact .inl ⟨first, List.mem_cons_self, h⟩
        · rcases List.infix_cons_iff.mp h with ⟨tail, htail⟩ | h
          · -- the word starts at the seam itself
            cases word with
            | nil => exact absurd rfl hne
            | cons y word =>
              obtain ⟨rfl, htail⟩ := List.cons.inj htail
              exact .inr ⟨[first], rest, [], word, rfl, by simp, hnil, rfl, List.nil_suffix,
                ⟨tail, htail⟩⟩
          · exact hrest h
        · cases back with
          | nil =>
            rw [List.append_nil] at hword
            exact .inl ⟨first, List.mem_cons_self, hword ▸ hstart.isInfix⟩
          | cons y back =>
            obtain ⟨tail, htail⟩ := hback
            obtain ⟨rfl, htail⟩ := List.cons.inj htail
            refine .inr ⟨[first], rest, start, back, rfl, by simp, hnil, ?_, ?_, ⟨tail, htail⟩⟩
            · rw [hword]
              simp
            · rw [List.intercalate_singleton]
              exact hstart
  · intro h
    rcases h with ⟨part, hmem, hin⟩ | ⟨before, after, start, stop, rfl, hbefore, hafter, rfl,
      ⟨front, hfront⟩, ⟨back, hback⟩⟩
    · exact infix_intercalate_of_mem hmem hin
    · rw [intercalate_append hbefore hafter, ← hfront, ← hback]
      exact ⟨front, back, by simp only [List.append_assoc]⟩

end Framework
