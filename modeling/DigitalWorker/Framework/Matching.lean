import Mathlib.Control.Basic
import Mathlib.Data.List.TakeWhile

/-! # Backtracking matchers

    A regular expression, read by a backtracking engine: from a place in a text it
    has a list of ways to match, the preferred one first. Greedy repetition prefers
    the longer way, an alternation the earlier branch, and a sequence tries the
    ways of its second part for each of its first.
-/

namespace Framework

/-- A place in a text: the character before it and the characters after it. -/
structure Cursor where
  prev : Option Char
  rest : List Char

def Cursor.after (c : Cursor) (taken : List Char) : Cursor :=
  { prev := taken.getLast?.or c.prev, rest := c.rest.drop taken.length }

/-- The ways to match at a place, the preferred one first: what is captured, and
    where the match ends. -/
def Matcher (α : Type) : Type := Cursor → List (α × Cursor)

namespace Matcher

variable {α β : Type}

instance : Monad Matcher where
  pure a := fun c => [(a, c)]
  bind m f := fun c => (m c).flatMap (fun way => f way.1 way.2)

/-- `m|n`. -/
def alt (m n : Matcher α) : Matcher α := fun c => m c ++ n c

/-- `(?:m)?`. -/
def opt (m : Matcher α) : Matcher (Option α) := fun c =>
  (m c).map (fun way => (some way.1, way.2)) ++ [(none, c)]

def one (p : Char → Bool) : Matcher Char := fun c =>
  match c.rest with
  | x :: _ => if p x then [(x, c.after [x])] else []
  | [] => []

def held (p : Char → Bool) (hi : Option Nat) (cs : List Char) : List Char :=
  match hi with
  | some most => (cs.takeWhile p).take most
  | none => cs.takeWhile p

/-- `[…]{lo,hi}`, greedy. -/
def run (p : Char → Bool) (lo : Nat) (hi : Option Nat) : Matcher (List Char) := fun c =>
  let most := held p hi c.rest
  ((List.range (most.length + 1)).reverse.filter (fun k => lo ≤ k)).map
    (fun k => (most.take k, c.after (most.take k)))

/-- `\\b`: exactly one side is a word character. -/
def boundary (word : Char → Bool) : Matcher Unit := fun c =>
  if c.prev.any word = c.rest.head?.any word then [] else [((), c)]

/-- `(?:m)*`, greedy, at most so many times. -/
def repeated (m : Matcher α) : Nat → Matcher (List α)
  | 0 => pure []
  | fuel + 1 => alt (do let a ← m; let rest ← repeated m fuel; pure (a :: rest)) (pure [])

/-- `(?:m){n,}`, greedy, for an `m` that takes a character at least. -/
def atLeast (n : Nat) (m : Matcher α) : Matcher (List α) := fun c =>
  (repeated m c.rest.length c).filter (fun way => n ≤ way.1.length)

/-! ## How the ways compose -/

variable {c : Cursor} {p : Char → Bool} {m : Matcher α} {hi : Option Nat}

theorem mem_bind {f : α → Matcher β} {way : β × Cursor} :
    way ∈ (m >>= f) c ↔ ∃ first ∈ m c, way ∈ f first.1 first.2 :=
  List.mem_flatMap

theorem mem_pure {a : α} {way : α × Cursor} :
    way ∈ (pure a : Matcher α) c ↔ way = (a, c) :=
  List.mem_singleton

theorem head_bind {f : α → Matcher β} {c c' : Cursor} {a : α} {way : β × Cursor}
    (h : (m c).head? = some (a, c')) (h' : (f a c').head? = some way) :
    ((m >>= f) c).head? = some way := by
  show ((m c).flatMap (fun first => f first.1 first.2)).head? = some way
  cases hways : m c with
  | nil =>
    rw [hways] at h
    cases h
  | cons first rest =>
    rw [hways] at h
    obtain rfl := Option.some.inj h
    rw [List.flatMap_cons, List.head?_append, h']
    rfl

theorem bind_eq_nil {f : α → Matcher β}
    (h : ∀ way ∈ m c, f way.1 way.2 = []) : (m >>= f) c = [] :=
  List.flatMap_eq_nil_iff.mpr h

theorem head_alt_left {m n : Matcher α} {way : α × Cursor}
    (h : (m c).head? = some way) : (alt m n c).head? = some way := by
  show (m c ++ n c).head? = some way
  rw [List.head?_append, h]
  rfl

theorem head_alt_right {m n : Matcher α} (h : m c = []) :
    (alt m n c).head? = (n c).head? := by
  show (m c ++ n c).head? = _
  rw [h, List.nil_append]

theorem mem_alt {m n : Matcher α} {way : α × Cursor} :
    way ∈ alt m n c ↔ way ∈ m c ∨ way ∈ n c :=
  List.mem_append

theorem head_opt {c c' : Cursor} {a : α} (h : (m c).head? = some (a, c')) :
    (opt m c).head? = some (some a, c') := by
  show ((m c).map _ ++ _).head? = _
  rw [List.head?_append, List.head?_map, h]
  rfl

theorem opt_of_nil (h : m c = []) : opt m c = [(none, c)] := by
  show (m c).map _ ++ _ = _
  rw [h]
  rfl

theorem mem_opt {way : Option α × Cursor} :
    way ∈ opt m c ↔ (∃ first ∈ m c, way = (some first.1, first.2)) ∨ way = (none, c) := by
  show way ∈ (m c).map _ ++ _ ↔ _
  rw [List.mem_append, List.mem_map, List.mem_singleton]
  exact or_congr_left (exists_congr (fun _ => and_congr_right (fun _ => eq_comm)))

/-! ## Single characters and runs -/

theorem after_append (prev : Option Char) (taken tail : List Char) :
    Cursor.after ⟨prev, taken ++ tail⟩ taken = ⟨taken.getLast?.or prev, tail⟩ := by
  unfold Cursor.after
  rw [List.drop_left]

theorem one_cons {prev : Option Char} {x : Char} {rest : List Char}
    (h : p x = true) : one p ⟨prev, x :: rest⟩ = [(x, ⟨some x, rest⟩)] := by
  simp only [one, h, if_true]
  rfl

theorem one_eq_nil (h : c.rest.head?.any p = false) :
    one p c = [] := by
  unfold one
  cases hrest : c.rest with
  | nil => rfl
  | cons x rest =>
    rw [hrest] at h
    have hx : p x = false := h
    simp [hx]

theorem mem_one {way : Char × Cursor} (h : way ∈ one p c) :
    p way.1 = true ∧ c.rest = way.1 :: way.2.rest := by
  unfold one at h
  cases hrest : c.rest with
  | nil =>
    rw [hrest] at h
    cases h
  | cons x rest =>
    rw [hrest] at h
    dsimp only at h
    by_cases hx : p x = true
    · rw [if_pos hx, List.mem_singleton] at h
      subst h
      refine ⟨hx, ?_⟩
      show x :: rest = x :: c.rest.drop 1
      rw [hrest]
      rfl
    · rw [if_neg hx] at h
      cases h

theorem head_run {lo : Nat}
    (h : lo ≤ (held p hi c.rest).length) :
    (run p lo hi c).head? = some (held p hi c.rest, c.after (held p hi c.rest)) := by
  unfold run
  simp only [List.range_succ, List.reverse_append, List.reverse_singleton, List.singleton_append]
  rw [List.filter_cons_of_pos (by simpa using h), List.map_cons, List.take_length]
  rfl

theorem held_initial (p : Char → Bool) (hi : Option Nat) (cs : List Char) :
    held p hi cs <+: cs := by
  cases hi with
  | none => exact List.takeWhile_prefix p
  | some most => exact (List.take_prefix most _).trans (List.takeWhile_prefix p)

theorem mem_held {cs : List Char} {x : Char}
    (h : x ∈ held p hi cs) : p x = true := by
  cases hi with
  | none => exact List.mem_takeWhile_imp h
  | some most => exact List.mem_takeWhile_imp (List.mem_of_mem_take h)

theorem mem_run {lo : Nat}
    {way : List Char × Cursor} (h : way ∈ run p lo hi c) :
    (∀ x ∈ way.1, p x = true) ∧ lo ≤ way.1.length ∧ c.rest = way.1 ++ way.2.rest ∧
      way.2 = c.after way.1 ∧ way.1 <+: held p hi c.rest := by
  unfold run at h
  obtain ⟨k, hk, rfl⟩ := List.mem_map.mp h
  rw [List.mem_filter, List.mem_reverse, List.mem_range, decide_eq_true_eq] at hk
  have hprefix : (held p hi c.rest).take k <+: held p hi c.rest := List.take_prefix k _
  refine ⟨fun x hx => mem_held (List.mem_of_mem_take hx), ?_, ?_, rfl, hprefix⟩
  · show lo ≤ ((held p hi c.rest).take k).length
    rw [List.length_take]
    omega
  · obtain ⟨tail, htail⟩ := hprefix.trans (held_initial p hi c.rest)
    show c.rest = (held p hi c.rest).take k ++ c.rest.drop ((held p hi c.rest).take k).length
    generalize (held p hi c.rest).take k = taken at htail
    rw [← htail, List.drop_left]

theorem run_eq_nil {lo : Nat} (hlo : 0 < lo)
    (h : c.rest.head?.any p = false) : run p lo hi c = [] := by
  rw [List.eq_nil_iff_forall_not_mem]
  intro way hway
  obtain ⟨hclass, hlength, hrest, _⟩ := mem_run hway
  cases htaken : way.1 with
  | nil =>
    rw [htaken] at hlength
    exact absurd hlength (Nat.not_le_of_lt hlo)
  | cons x taken =>
    rw [htaken] at hclass hrest
    rw [hrest] at h
    have hx : p x = false := h
    rw [hclass x List.mem_cons_self] at hx
    cases hx

theorem held_append {taken tail : List Char}
    (htaken : ∀ x ∈ taken, p x = true) (htail : tail.head?.any p = false)
    (hhi : ∀ most ∈ hi, taken.length ≤ most) : held p hi (taken ++ tail) = taken := by
  have hall : (taken ++ tail).takeWhile p = taken := by
    rw [List.takeWhile_append_of_pos htaken]
    cases tail with
    | nil => simp
    | cons x tail =>
      have hx : p x = false := htail
      rw [List.takeWhile_cons_of_neg (by simp [hx]), List.append_nil]
  cases hi with
  | none => exact hall
  | some most =>
    show ((taken ++ tail).takeWhile p).take most = taken
    rw [hall]
    exact List.take_of_length_le (hhi most rfl)

theorem head_run_append {lo : Nat} {prev : Option Char}
    {taken tail : List Char} (htaken : ∀ x ∈ taken, p x = true) (htail : tail.head?.any p = false)
    (hhi : ∀ most ∈ hi, taken.length ≤ most) (hlo : lo ≤ taken.length) :
    (run p lo hi ⟨prev, taken ++ tail⟩).head? = some (taken, ⟨taken.getLast?.or prev, tail⟩) := by
  have hheld := held_append htaken htail hhi
  rw [head_run (c := ⟨prev, taken ++ tail⟩) (by rw [hheld]; exact hlo), hheld, after_append]

theorem repeated_length (weight : List Char → Nat)
    (hm : ∀ c, ∀ way ∈ m c, weight way.2.rest + 1 ≤ weight c.rest) (fuel : Nat) (c : Cursor) :
    ∀ way ∈ repeated m fuel c, way.1.length + weight way.2.rest ≤ weight c.rest := by
  induction fuel generalizing c with
  | zero =>
    intro way hway
    obtain rfl := mem_pure.mp hway
    exact Nat.le_of_eq (Nat.zero_add _)
  | succ fuel ih =>
    intro way hway
    rcases mem_alt.mp hway with hmore | hnone
    · obtain ⟨first, hfirst, hmore⟩ := mem_bind.mp hmore
      obtain ⟨rest, hrest, hway⟩ := mem_bind.mp hmore
      obtain rfl := mem_pure.mp hway
      have hused := hm c first hfirst
      have hleft := ih first.2 rest hrest
      show (first.1 :: rest.1).length + weight rest.2.rest ≤ weight c.rest
      rw [List.length_cons]
      omega
    · obtain rfl := mem_pure.mp hnone
      exact Nat.le_of_eq (Nat.zero_add _)

theorem head_atLeast {n : Nat} {way : List α × Cursor}
    (h : (repeated m c.rest.length c).head? = some way) (hn : n ≤ way.1.length) :
    (atLeast n m c).head? = some way := by
  unfold atLeast
  cases hways : repeated m c.rest.length c with
  | nil =>
    rw [hways] at h
    cases h
  | cons first rest =>
    rw [hways] at h
    obtain rfl := Option.some.inj h
    rw [List.filter_cons_of_pos (by simpa using hn)]
    rfl

end Matcher

/-! ## All matches of a text -/

variable {α : Type}

/-- `findall` from a place on, after so many characters that are taken. -/
def findallFrom (m : Matcher α) : Nat → Option Char → List Char → List α
  | _, _, [] => []
  | skip + 1, _, x :: rest => findallFrom m skip (some x) rest
  | 0, prev, x :: rest =>
    match (m ⟨prev, x :: rest⟩).head? with
    | some (a, c) => a :: findallFrom m (rest.length - c.rest.length) (some x) rest
    | none => findallFrom m 0 (some x) rest

def findall (m : Matcher α) (text : List Char) : List α := findallFrom m 0 none text

theorem findallFrom_nil (m : Matcher α) (skip : Nat) (prev : Option Char) :
    findallFrom m skip prev [] = [] := by
  cases skip <;> rfl

theorem getLast_or_cons {x : Char} {taken : List Char} {prev : Option Char} :
    (x :: taken).getLast?.or prev = taken.getLast?.or (some x) := by
  rw [List.getLast?_cons]
  cases taken.getLast? <;> rfl

theorem findallFrom_skip (m : Matcher α) (prev : Option Char) (taken tail : List Char) :
    findallFrom m taken.length prev (taken ++ tail) =
      findallFrom m 0 (taken.getLast?.or prev) tail := by
  induction taken generalizing prev with
  | nil => rfl
  | cons x taken ih =>
    show findallFrom m taken.length (some x) (taken ++ tail) = _
    rw [ih (some x), getLast_or_cons]

theorem findallFrom_match {m : Matcher α} {prev : Option Char} {taken tail : List Char} {a : α}
    {c : Cursor} (htaken : taken ≠ []) (h : (m ⟨prev, taken ++ tail⟩).head? = some (a, c))
    (hc : c.rest = tail) :
    findallFrom m 0 prev (taken ++ tail) = a :: findallFrom m 0 (taken.getLast?.or prev) tail := by
  cases taken with
  | nil => exact absurd rfl htaken
  | cons x taken =>
    rw [List.cons_append] at h ⊢
    simp only [findallFrom, h, hc, List.length_append, Nat.add_sub_cancel]
    rw [findallFrom_skip, getLast_or_cons]

theorem findallFrom_pass {m : Matcher α} {prev : Option Char} {passed tail : List Char}
    (h : ∀ before ahead, passed = before ++ ahead → ahead ≠ [] →
      m ⟨before.getLast?.or prev, ahead ++ tail⟩ = []) :
    findallFrom m 0 prev (passed ++ tail) = findallFrom m 0 (passed.getLast?.or prev) tail := by
  induction passed generalizing prev with
  | nil => rfl
  | cons x passed ih =>
    have hhere : m ⟨prev, x :: (passed ++ tail)⟩ = [] :=
      h [] (x :: passed) rfl (List.cons_ne_nil x passed)
    have hahead : ∀ before ahead, passed = before ++ ahead → ahead ≠ [] →
        m ⟨before.getLast?.or (some x), ahead ++ tail⟩ = [] := by
      intro before ahead hsplit hne
      have hlast : (x :: before).getLast?.or prev = before.getLast?.or (some x) := getLast_or_cons
      rw [← hlast]
      exact h (x :: before) ahead (by rw [hsplit, List.cons_append]) hne
    show findallFrom m 0 prev (x :: (passed ++ tail)) = _
    simp only [findallFrom, hhere, List.head?_nil]
    rw [ih hahead, getLast_or_cons]

theorem findallFrom_eq_nil {m : Matcher α} {prev : Option Char} {text : List Char}
    (h : ∀ before ahead, text = before ++ ahead → ahead ≠ [] →
      m ⟨before.getLast?.or prev, ahead⟩ = []) : findallFrom m 0 prev text = [] := by
  have hpass : findallFrom m 0 prev (text ++ []) =
      findallFrom m 0 (text.getLast?.or prev) [] := by
    refine findallFrom_pass (fun before ahead hsplit hne => ?_)
    rw [List.append_nil]
    exact h before ahead hsplit hne
  rw [List.append_nil, findallFrom_nil] at hpass
  exact hpass

end Framework
