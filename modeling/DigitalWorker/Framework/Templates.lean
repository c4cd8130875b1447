import Mathlib.Data.List.Infix

/-! # Text templates and their tags

    A template is a list of letters and holes; filling it puts a text into every
    hole. Marks such as `<tag>` and `</tag>` are texts of the template, and the
    question is whether the filled text has other occurrences of them than the
    template itself.
-/

namespace Framework

/-- A letter of the template, or a hole in it. -/
inductive Piece (α η : Type) where
  | lit (a : α)
  | hole (h : η)
  deriving DecidableEq

abbrev Template (α η : Type) := List (Piece α η)

namespace Template

variable {α η : Type}

def Piece.text (val : η → List α) : Piece α η → List α
  | .lit a => [a]
  | .hole h => val h

def fill (val : η → List α) (ps : Template α η) : List α := ps.flatMap (Piece.text val)

def lits (T : List α) : Template α η := T.map .lit

/-! ## Filling -/

/-- An end of `X ++ Y` lies in `Y`, or begins inside `X`. -/
theorem suffix_cases {a X Y : List α} (h : a <:+ X ++ Y) :
    a <:+ Y ∨ ∃ b, b ≠ [] ∧ b <:+ X ∧ a = b ++ Y := by
  obtain ⟨t, ht⟩ := h
  rcases List.append_eq_append_iff.mp ht with ⟨b, rfl, rfl⟩ | ⟨b, rfl, rfl⟩
  · by_cases hb : b = []
    · subst hb
      exact .inl (List.suffix_refl _)
    · exact .inr ⟨b, hb, List.suffix_append _ _, rfl⟩
  · exact .inl (List.suffix_append _ _)

section

variable {val : η → List α}

@[simp] theorem fill_nil : fill val [] = [] := rfl

@[simp] theorem fill_lit (a : α) (ps : Template α η) :
    fill val (.lit a :: ps) = a :: fill val ps := rfl

@[simp] theorem fill_hole (h : η) (ps : Template α η) :
    fill val (.hole h :: ps) = val h ++ fill val ps := rfl

@[simp] theorem fill_append (ps qs : Template α η) :
    fill val (ps ++ qs) = fill val ps ++ fill val qs := by
  simp [fill]

@[simp] theorem fill_lits (T : List α) : fill val (lits T) = T := by
  induction T with
  | nil => rfl
  | cons a T ih =>
    show a :: fill val (lits T) = a :: T
    rw [ih]

theorem fill_congr {val' : η → List α} {ps : Template α η}
    (h : ∀ k, .hole k ∈ ps → val k = val' k) : fill val ps = fill val' ps := by
  have hmap : ps.map (Piece.text val) = ps.map (Piece.text val') := by
    refine List.map_congr_left (fun p hp => ?_)
    cases p with
    | lit a => rfl
    | hole k => exact h k hp
  rw [fill, fill, List.flatMap_def, List.flatMap_def, hmap]

theorem hole_not_mem_lits {k : η} {T : List α} : Piece.hole k ∉ (lits T : Template α η) := by
  intro h
  obtain ⟨a, _, ha⟩ := List.mem_map.mp h
  cases ha

theorem suffix_fill {a : List α} {ps : Template α η} (h : a <:+ fill val ps) (ha : a ≠ []) :
    ∃ l p r b, ps = l ++ p :: r ∧ b ≠ [] ∧ b <:+ Piece.text val p ∧ a = b ++ fill val r := by
  induction ps with
  | nil =>
    rw [fill_nil, List.suffix_nil] at h
    exact absurd h ha
  | cons p ps ih =>
    have hsplit : a <:+ Piece.text val p ++ fill val ps := h
    rcases suffix_cases hsplit with hrest | ⟨b, hb, hbp, rfl⟩
    · obtain ⟨l, q, r, b, rfl, hbr⟩ := ih hrest
      exact ⟨p :: l, q, r, b, rfl, hbr⟩
    · exact ⟨[], p, ps, b, rfl, hb, hbp, rfl⟩

end

/-! ## Occurrences -/

section

variable [DecidableEq α]

/-- How often `T` begins inside `A`, in the text `A ++ B`. -/
def starts (T : List α) : List α → List α → Nat
  | [], _ => 0
  | a :: A, B => (if T <+: a :: (A ++ B) then 1 else 0) + starts T A B

/-- How often `T` occurs in a text. -/
def occ (T s : List α) : Nat := starts T s []

/-- The template begins with the letters of `T`. -/
def startsLit : List α → Template α η → Bool
  | [], _ => true
  | t :: T, .lit a :: ps => t == a && startsLit T ps
  | _ :: _, _ => false

/-- How often `T` occurs in the letters of the template. -/
def litOcc (T : List α) : Template α η → Nat
  | [] => 0
  | .lit a :: ps => (if startsLit T (.lit a :: ps) then 1 else 0) + litOcc T ps
  | .hole _ :: ps => litOcc T ps

/-- How often `T` occurs in the filled text where the template does not have it. -/
def fresh (T : List α) (val : η → List α) : Template α η → Nat
  | [] => 0
  | .lit a :: ps =>
    (if T <+: a :: fill val ps ∧ startsLit T (.lit a :: ps) = false then 1 else 0) + fresh T val ps
  | .hole h :: ps => starts T (val h) (fill val ps) + fresh T val ps

theorem starts_append (T A B C : List α) :
    starts T (A ++ B) C = starts T A (B ++ C) + starts T B C := by
  induction A with
  | nil => simp [starts]
  | cons a A ih =>
    show (if T <+: a :: (A ++ B ++ C) then 1 else 0) + starts T (A ++ B) C =
      (if T <+: a :: (A ++ (B ++ C)) then 1 else 0) + starts T A (B ++ C) + starts T B C
    rw [ih, List.append_assoc, Nat.add_assoc]

theorem occ_append (T A B : List α) : occ T (A ++ B) = starts T A B + occ T B := by
  unfold occ
  rw [starts_append, List.append_nil]

theorem starts_eq_zero {T A B : List α} :
    starts T A B = 0 ↔ ∀ y, y ≠ [] → y <:+ A → ¬ T <+: y ++ B := by
  induction A with
  | nil =>
    refine ⟨fun _ y hy hsuf => ?_, fun _ => rfl⟩
    rw [List.suffix_nil] at hsuf
    exact absurd hsuf hy
  | cons a A ih =>
    show (if T <+: a :: (A ++ B) then 1 else 0) + starts T A B = 0 ↔ _
    rw [Nat.add_eq_zero_iff, ih]
    constructor
    · rintro ⟨hhead, htail⟩ y hy hsuf
      rcases List.suffix_cons_iff.mp hsuf with rfl | hsuf
      · intro hT
        have hpre : T <+: a :: (A ++ B) := hT
        rw [if_pos hpre] at hhead
        cases hhead
      · exact htail y hy hsuf
    · intro h
      refine ⟨if_neg (h (a :: A) (List.cons_ne_nil _ _) (List.suffix_refl _)), ?_⟩
      exact fun y hy hsuf => h y hy (hsuf.trans (List.suffix_cons _ _))

variable {val : η → List α} {T : List α}

theorem startsLit_prefix {T : List α} {ps : Template α η} (h : startsLit T ps = true) :
    T <+: fill val ps := by
  induction T generalizing ps with
  | nil => exact List.nil_prefix
  | cons t T ih =>
    match ps, h with
    | .lit a :: ps, h =>
      simp only [startsLit, Bool.and_eq_true, beq_iff_eq] at h
      obtain ⟨rfl, h⟩ := h
      exact List.cons_prefix_cons.mpr ⟨rfl, ih h⟩

theorem prefix_cases {T : List α} {ps : Template α η} (h : T <+: fill val ps) :
    startsLit T ps = true ∨
      ∃ l k r, ps = l ++ .hole k :: r ∧ (fill val l).length < T.length := by
  induction T generalizing ps with
  | nil => exact .inl rfl
  | cons t T ih =>
    match ps, h with
    | [], h => exact absurd (List.prefix_nil.mp h) (List.cons_ne_nil _ _)
    | .hole k :: r, _ => exact .inr ⟨[], k, r, rfl, Nat.succ_pos _⟩
    | .lit a :: ps, h =>
      rw [fill_lit] at h
      obtain ⟨rfl, hrest⟩ := List.cons_prefix_cons.mp h
      rcases ih hrest with hlit | ⟨l, k, r, rfl, hlen⟩
      · exact .inl (by simp [startsLit, hlit])
      · exact .inr ⟨.lit t :: l, k, r, rfl, Nat.succ_lt_succ hlen⟩

theorem startsLit_length (val : η → List α) {T : List α} {l r : Template α η} {k : η}
    (h : startsLit T (l ++ .hole k :: r) = true) : T.length ≤ (fill val l).length := by
  induction T generalizing l with
  | nil => exact Nat.zero_le _
  | cons t T ih =>
    match l, h with
    | .lit a :: l, h =>
      simp only [List.cons_append, startsLit, Bool.and_eq_true] at h
      exact Nat.succ_le_succ (ih h.2)

/-- **Occurrences**: those of the template's letters, and the fresh ones. -/
theorem occ_fill (T : List α) (val : η → List α) (ps : Template α η) :
    occ T (fill val ps) = litOcc T ps + fresh T val ps := by
  induction ps with
  | nil => rfl
  | cons p ps ih =>
    cases p with
    | lit a =>
      have hocc : occ T (a :: fill val ps) =
          (if T <+: a :: fill val ps then 1 else 0) + occ T (fill val ps) := by
        unfold occ
        rw [starts, List.append_nil]
      rw [fill_lit, hocc, ih, litOcc, fresh]
      by_cases hlit : startsLit T (.lit a :: ps) = true
      · have hpre : T <+: a :: fill val ps := startsLit_prefix hlit
        simp only [hlit, hpre, if_true, Bool.true_eq_false, and_false, if_false]
        omega
      · rw [Bool.not_eq_true] at hlit
        simp only [hlit, and_true, Bool.false_eq_true, if_false]
        omega
    | hole h =>
      rw [fill_hole, occ_append, ih, litOcc, fresh]
      omega

/-! ## Clean texts -/

/-- In `A ++ V ++ C` an occurrence of `T` begins before `V` ends and ends after
    it begins. -/
def Touches (T A V C : List α) : Prop :=
  ∃ y, y ≠ [] ∧ y <:+ A ++ V ∧ y.length < V.length + T.length ∧ T <+: y ++ C

def Clean (T : List α) (val : η → List α) (ps : Template α η) : Prop :=
  ∀ l k r, ps = l ++ .hole k :: r → ¬ Touches T (fill val l) (val k) (fill val r)

def FirstOwn (T : List α) (val : η → List α) : Template α η → Prop
  | [] => True
  | .lit a :: ps => T <+: a :: fill val ps → startsLit T (.lit a :: ps) = true
  | .hole h :: ps => starts T (val h) (fill val ps) = 0

theorem fresh_append (l r : Template α η) (h : fresh T val (l ++ r) = 0) : fresh T val r = 0 := by
  induction l with
  | nil => exact h
  | cons p l ih =>
    cases p with
    | lit a =>
      simp only [List.cons_append, fresh, Nat.add_eq_zero_iff] at h
      exact ih h.2
    | hole k =>
      simp only [List.cons_append, fresh, Nat.add_eq_zero_iff] at h
      exact ih h.2

theorem fresh_eq_zero {ps : Template α η} :
    fresh T val ps = 0 ↔ ∀ l r, ps = l ++ r → FirstOwn T val r := by
  induction ps with
  | nil =>
    refine ⟨fun _ l r h => ?_, fun _ => rfl⟩
    obtain ⟨-, rfl⟩ := List.append_eq_nil_iff.mp h.symm
    trivial
  | cons p ps ih =>
    have hhead : fresh T val (p :: ps) = 0 ↔ FirstOwn T val (p :: ps) ∧ fresh T val ps = 0 := by
      cases p with
      | lit a =>
        rw [fresh, Nat.add_eq_zero_iff]
        refine and_congr_left (fun _ => ?_)
        by_cases hpre : T <+: a :: fill val ps <;>
          cases hlit : startsLit T (.lit a :: ps) <;> simp [FirstOwn, hpre, hlit]
      | hole k =>
        rw [fresh, Nat.add_eq_zero_iff]
        rfl
    rw [hhead, ih]
    constructor
    · rintro ⟨hfirst, hrest⟩ l r h
      cases l with
      | nil =>
        rw [List.nil_append] at h
        rw [← h]
        exact hfirst
      | cons q l =>
        rw [List.cons_append, List.cons.injEq] at h
        exact hrest l r h.2
    · intro h
      refine ⟨h [] _ rfl, fun l r hps => h (p :: l) r ?_⟩
      rw [hps, List.cons_append]

/-- **Clean**: nothing fresh occurs exactly if no occurrence touches a value. -/
theorem clean_iff (hT : T ≠ []) {ps : Template α η} : Clean T val ps ↔ fresh T val ps = 0 := by
  rw [fresh_eq_zero]
  constructor
  · intro hclean l r hps
    match r, hps with
    | [], _ => trivial
    | .hole k :: r, hps =>
      refine starts_eq_zero.mpr (fun y hy hsuf hpre => hclean l k r hps ⟨y, hy, ?_, ?_, hpre⟩)
      · exact hsuf.trans (List.suffix_append _ _)
      · have hle := hsuf.length_le
        have hpos := List.length_pos_iff.mpr hT
        omega
    | .lit a :: r, hps =>
      intro hpre
      have hfill : T <+: fill val (.lit a :: r) := hpre
      rcases prefix_cases hfill with hlit | ⟨m, k, n, hsplit, hlen⟩
      · exact hlit
      · -- the occurrence runs over the letters `m` into the hole `k`
        refine absurd ?_ (hclean (l ++ m) k n (by rw [hps, hsplit, List.append_assoc]))
        obtain ⟨m', rfl⟩ : ∃ m', m = .lit a :: m' := by
          cases m with
          | nil => cases hsplit
          | cons q m' =>
            rw [List.cons_append, List.cons.injEq] at hsplit
            exact ⟨m', by rw [hsplit.1]⟩
        refine ⟨fill val (.lit a :: m') ++ val k, ?_, ?_, ?_, ?_⟩
        · exact List.cons_ne_nil _ _
        · rw [fill_append, List.append_assoc]
          exact List.suffix_append _ _
        · rw [List.length_append]
          omega
        · have hwhole : a :: fill val r = fill val (.lit a :: m') ++ val k ++ fill val n := by
            rw [← fill_lit, hsplit, fill_append, fill_hole, List.append_assoc]
          rw [← hwhole]
          exact hpre
  · intro hown l k r hps
    rintro ⟨y, hy, hsuf, hlen, hpre⟩
    rcases suffix_cases hsuf with hin | ⟨b, hb, hbl, rfl⟩
    · -- it begins in the value
      have hzero : starts T (val k) (fill val r) = 0 := hown l _ hps
      exact starts_eq_zero.mp hzero y hy hin hpre
    · -- it begins in the text before it, in a letter or in another value
      obtain ⟨l₁, p, l₂, c, rfl, hc, hcp, rfl⟩ := suffix_fill hbl hb
      have hfirst := hown l₁ (p :: (l₂ ++ .hole k :: r)) (by rw [hps, List.append_assoc]; rfl)
      cases p with
      | hole k' =>
        refine starts_eq_zero.mp hfirst c hc hcp ?_
        simpa using hpre
      | lit a =>
        have hca : c = [a] := by
          rcases List.suffix_cons_iff.mp hcp with hc' | hc'
          · exact hc'
          · exact absurd (List.suffix_nil.mp hc') hc
        subst hca
        have hlit : startsLit T ((.lit a :: l₂) ++ .hole k :: r) = true := by
          refine hfirst ?_
          simpa using hpre
        have hlen' := startsLit_length val hlit
        simp only [List.length_append, fill_lit, List.length_cons] at hlen hlen'
        omega

/-! ## Holes that are set off -/

def SetOff (T : List α) (ps : Template α η) : Prop :=
  ∀ l k r, ps = l ++ .hole k :: r →
    (l = [] ∨ ∃ l' a, l = l' ++ [.lit a] ∧ a ∉ T) ∧ (r = [] ∨ ∃ a r', r = .lit a :: r' ∧ a ∉ T)

omit [DecidableEq α] in
theorem prefix_bounded {y C : List α} (hC : C = [] ∨ ∃ a C', C = a :: C' ∧ a ∉ T)
    (h : T <+: y ++ C) : T <+: y := by
  obtain ⟨t, ht⟩ := h
  rcases List.append_eq_append_iff.mp ht with ⟨b, rfl, _⟩ | ⟨b, rfl, hb⟩
  · exact List.prefix_append _ _
  · cases b with
    | nil => rw [List.append_nil]
    | cons c b =>
      rcases hC with rfl | ⟨a, C', rfl, ha⟩
      · cases hb
      · rw [List.cons_append, List.cons.injEq] at hb
        obtain ⟨rfl, _⟩ := hb
        exact absurd (List.mem_append_right _ List.mem_cons_self) ha

omit [DecidableEq α] in
theorem suffix_bounded {A b V : List α} (hA : A = [] ∨ ∃ A' a, A = A' ++ [a] ∧ a ∉ T)
    (hb : b <:+ A) (hne : b ≠ []) (h : T <+: b ++ V) : T.length ≤ b.length := by
  rcases hA with rfl | ⟨A', a, rfl, ha⟩
  · exact absurd (List.suffix_nil.mp hb) hne
  · obtain ⟨t, ht⟩ := h
    rcases List.append_eq_append_iff.mp ht with ⟨c, rfl, _⟩ | ⟨c, rfl, _⟩
    · rw [List.length_append]
      omega
    · -- the mark would contain the last letter of `b`
      have hlast : a ∈ b := by
        obtain ⟨s, hs⟩ := hb
        have hget := congrArg List.getLast? hs
        rw [List.getLast?_append_of_ne_nil _ hne, List.getLast?_concat] at hget
        exact List.mem_of_getLast? hget
      exact absurd (List.mem_append_left _ hlast) ha

/-- **Set off**: a value touches the mark only by containing it. -/
theorem touches_iff (hT : T ≠ []) {A V C : List α}
    (hA : A = [] ∨ ∃ A' a, A = A' ++ [a] ∧ a ∉ T) (hC : C = [] ∨ ∃ a C', C = a :: C' ∧ a ∉ T) :
    Touches T A V C ↔ T <:+: V := by
  constructor
  · rintro ⟨y, hy, hsuf, hlen, hpre⟩
    have hpre' : T <+: y := prefix_bounded hC hpre
    rcases suffix_cases hsuf with hin | ⟨b, hb, hbA, rfl⟩
    · exact hpre'.isInfix.trans hin.isInfix
    · have hle := suffix_bounded hA hbA hb hpre'
      rw [List.length_append] at hlen
      omega
  · rintro ⟨s, t, rfl⟩
    refine ⟨T ++ t, ?_, ?_, ?_, ?_⟩
    · exact fun h => hT (List.append_eq_nil_iff.mp h).1
    · rw [List.append_assoc, ← List.append_assoc]
      exact List.suffix_append _ _
    · have hpos := List.length_pos_iff.mpr hT
      simp only [List.length_append]
      omega
    · rw [List.append_assoc]
      exact List.prefix_append _ _

theorem setOff_clean_iff (hT : T ≠ []) {ps : Template α η} (hoff : SetOff T ps) :
    Clean T val ps ↔ ∀ k, .hole k ∈ ps → ¬ T <:+: val k := by
  have htouch : ∀ l k r, ps = l ++ .hole k :: r →
      (Touches T (fill val l) (val k) (fill val r) ↔ T <:+: val k) := by
    intro l k r hps
    obtain ⟨hl, hr⟩ := hoff l k r hps
    refine touches_iff hT ?_ ?_
    · rcases hl with rfl | ⟨l', a, rfl, ha⟩
      · exact .inl rfl
      · exact .inr ⟨fill val l', a, fill_append _ _, ha⟩
    · rcases hr with rfl | ⟨a, r', rfl, ha⟩
      · exact .inl rfl
      · exact .inr ⟨a, fill val r', rfl, ha⟩
  constructor
  · intro h k hk
    obtain ⟨l, r, hps⟩ := List.append_of_mem hk
    rw [← htouch l k r hps]
    exact h l k r hps
  · intro h l k r hps
    rw [htouch l k r hps]
    exact h k (by rw [hps]; simp)

omit [DecidableEq α] in
theorem split_one {A B : List α} {j k : η} {l r : Template α η}
    (h : lits A ++ .hole k :: lits B = l ++ .hole j :: r) : l = lits A ∧ r = lits B := by
  induction A generalizing l with
  | nil =>
    cases l with
    | nil =>
      rw [List.nil_append] at h
      exact ⟨rfl, (List.cons.inj h).2.symm⟩
    | cons p l =>
      -- the hole would stand among letters
      have hmem : Piece.hole j ∈ (lits B : Template α η) := by
        rw [(List.cons.inj h).2]
        simp
      exact absurd hmem hole_not_mem_lits
  | cons a A ih =>
    cases l with
    | nil => cases h
    | cons p l =>
      obtain ⟨hp, hrest⟩ := List.cons.inj h
      obtain ⟨rfl, rfl⟩ := ih hrest
      exact ⟨by rw [← hp]; rfl, rfl⟩

omit [DecidableEq α] in
theorem setOff_one {A B : List α} {k : η} {a b : α} (ha : a ∉ T) (hb : b ∉ T) :
    SetOff T (lits (A ++ [a]) ++ .hole k :: lits (b :: B)) := by
  intro l j r h
  obtain ⟨rfl, rfl⟩ := split_one h
  refine ⟨.inr ⟨lits A, a, ?_, ha⟩, .inr ⟨b, lits B, rfl, hb⟩⟩
  simp [lits]

/-! ## Reading a filled text by its marks -/

/-- What stands before and after the `n`-th occurrence of the mark. -/
def splitNth (T : List α) : Nat → List α → Option (List α × List α)
  | _, [] => none
  | n, a :: s =>
    if T <+: a :: s then
      match n with
      | 0 => some ([], (a :: s).drop T.length)
      | n + 1 => (splitNth T n s).map (fun p => (a :: p.1, p.2))
    else (splitNth T n s).map (fun p => (a :: p.1, p.2))

/-- The mark after `n` others is found by counting. -/
theorem splitNth_starts (hT : T ≠ []) {A B : List α} {n : Nat} (h : starts T A (T ++ B) = n) :
    splitNth T n (A ++ (T ++ B)) = some (A, B) := by
  induction A generalizing n with
  | nil =>
    subst h
    obtain ⟨t, T', rfl⟩ := List.exists_cons_of_ne_nil hT
    have hpre : t :: T' <+: t :: (T' ++ B) := List.prefix_append (t :: T') B
    have hdrop : (t :: T' ++ B).drop (t :: T').length = B := List.drop_left
    show splitNth (t :: T') 0 (t :: (T' ++ B)) = _
    unfold splitNth
    rw [if_pos hpre]
    show some ([], (t :: T' ++ B).drop (t :: T').length) = _
    rw [hdrop]
  | cons a A ih =>
    rw [starts] at h
    show splitNth T n (a :: (A ++ (T ++ B))) = _
    unfold splitNth
    by_cases hpre : T <+: a :: (A ++ (T ++ B))
    · rw [if_pos hpre] at h
      obtain ⟨m, rfl⟩ : ∃ m, n = m + 1 := ⟨starts T A (T ++ B), by omega⟩
      have hrest : splitNth T m (A ++ (T ++ B)) = some (A, B) := ih (by omega)
      rw [if_pos hpre]
      show (splitNth T m (A ++ (T ++ B))).map _ = _
      rw [hrest]
      rfl
    · rw [if_neg hpre] at h
      rw [if_neg hpre, ih (by omega)]
      rfl

theorem splitNth_fill (hT : T ≠ []) {pre rest : Template α η}
    (hclean : Clean T val (pre ++ (lits T ++ rest))) :
    splitNth T (litOcc T (pre ++ (lits T ++ rest)) - litOcc T (lits T ++ rest))
      (fill val (pre ++ (lits T ++ rest))) = some (fill val pre, fill val rest) := by
  have hfresh := (clean_iff hT).mp hclean
  have hall := occ_fill T val (pre ++ (lits T ++ rest))
  have hrest := occ_fill T val (lits T ++ rest)
  rw [hfresh] at hall
  rw [fresh_append _ _ hfresh] at hrest
  rw [fill_append, occ_append] at hall
  simp only [fill_append, fill_lits] at hall hrest ⊢
  exact splitNth_starts hT (by omega)

/-- What stands before, in and after the block that the `n`-th opening mark
    begins and the next closing mark ends. -/
def readBlock (O C : List α) (n : Nat) (s : List α) : Option (List α × List α × List α) :=
  match splitNth O n s with
  | none => none
  | some (before, rest) =>
    match splitNth C 0 rest with
    | none => none
    | some (inside, after) => some (before, inside, after)

theorem Clean.suffix (hT : T ≠ []) {l r : Template α η} (h : Clean T val (l ++ r)) :
    Clean T val r :=
  (clean_iff hT).mpr (fresh_append l r ((clean_iff hT).mp h))

/-- **Blocks**: in a text that is clean of both marks the block is read back as
    it was filled. -/
theorem readBlock_fill {O C : List α} (hO : O ≠ []) (hC : C ≠ []) {pre mid post : Template α η}
    (hnext : litOcc C (mid ++ (lits C ++ post)) = litOcc C (lits C ++ post))
    (hopen : Clean O val (pre ++ (lits O ++ (mid ++ (lits C ++ post)))))
    (hclose : Clean C val (pre ++ (lits O ++ (mid ++ (lits C ++ post))))) :
    readBlock O C
        (litOcc O (pre ++ (lits O ++ (mid ++ (lits C ++ post)))) -
          litOcc O (lits O ++ (mid ++ (lits C ++ post))))
        (fill val (pre ++ (lits O ++ (mid ++ (lits C ++ post))))) =
      some (fill val pre, fill val mid, fill val post) := by
  have hrest : Clean C val (mid ++ (lits C ++ post)) := (hclose.suffix hC).suffix hC
  have hinner := splitNth_fill hC hrest
  rw [hnext, Nat.sub_self] at hinner
  unfold readBlock
  rw [splitNth_fill hO hopen]
  show (match splitNth C 0 (fill val (mid ++ (lits C ++ post))) with
    | none => none
    | some (inside, after) => some (fill val pre, inside, after)) = _
  rw [hinner]

end

/-! ## What a text says about one value -/

variable {val val' : η → List α} {k : η} [DecidableEq η]

end Template

end Framework
