import Mathlib.Data.List.Basic
import Mathlib.Data.List.DropRight

/-! # Cutting and trimming texts

    Three fields are joined by a separator that may occur in them; the middle one
    has no blank at either end. The fields can be told from the joined text exactly
    when every other separator has a blank on the side where a middle field would
    begin or end.
-/

namespace Framework

section

variable {α : Type} {sep : α} {space : α → Bool}

theorem cut_cases {a b a' b' : List α} (h : a ++ sep :: b = a' ++ sep :: b') :
    (a = a' ∧ b = b') ∨ (∃ m, a = a' ++ sep :: m ∧ b' = m ++ sep :: b) ∨
      ∃ m, a' = a ++ sep :: m ∧ b = m ++ sep :: b' := by
  rcases List.append_eq_append_iff.mp h with ⟨m, ha, hb⟩ | ⟨m, ha, hb⟩
  · cases m with
    | nil => exact .inl ⟨by rw [ha, List.append_nil], (List.cons.inj hb).2⟩
    | cons x m =>
      rw [List.cons_append] at hb
      obtain ⟨rfl, hrest⟩ := List.cons.inj hb
      exact .inr (.inr ⟨m, ha, hrest⟩)
  · cases m with
    | nil => exact .inl ⟨by rw [ha, List.append_nil], (List.cons.inj hb).2.symm⟩
    | cons x m =>
      rw [List.cons_append] at hb
      obtain ⟨rfl, hrest⟩ := List.cons.inj hb
      exact .inr (.inl ⟨m, ha, hrest⟩)

def Trimmed (space : α → Bool) (xs : List α) : Prop :=
  (∀ x, xs.head? = some x → space x = false) ∧ ∀ x, xs.getLast? = some x → space x = false

def BlankAfter (sep : α) (space : α → Bool) (xs : List α) : Prop :=
  ∀ a m, xs = a ++ sep :: m → ∃ x, m.head? = some x ∧ space x = true

def BlankBefore (sep : α) (space : α → Bool) (xs : List α) : Prop :=
  ∀ a m, xs = a ++ sep :: m → ∃ x, a.getLast? = some x ∧ space x = true

theorem blankAfter_of_not_mem {xs : List α} (h : sep ∉ xs) : BlankAfter sep space xs := by
  intro a m hxs
  exact absurd (by rw [hxs]; simp) h

theorem blankBefore_of_not_mem {xs : List α} (h : sep ∉ xs) : BlankBefore sep space xs := by
  intro a m hxs
  exact absurd (by rw [hxs]; simp) h

def CutsOneWay (sep : α) (space : α → Bool) (d t v : List α) : Prop :=
  ∀ d' t' v', Trimmed space t' → d ++ sep :: (t ++ sep :: v) = d' ++ sep :: (t' ++ sep :: v') →
    d = d' ∧ t = t' ∧ v = v'

theorem Trimmed.head {t m v n : List α} (ht : Trimmed space t) (hsep : space sep = false)
    (h : t ++ sep :: v = m ++ sep :: n) : ¬ ∃ x, m.head? = some x ∧ space x = true := by
  intro ⟨x, hx, hspace⟩
  have hfirst : (t ++ sep :: v).head? = some x := by rw [h, List.head?_append, hx]; rfl
  cases t with
  | nil =>
    obtain rfl : sep = x := Option.some.inj hfirst
    rw [hsep] at hspace
    cases hspace
  | cons y t =>
    have hblank := ht.1 x hfirst
    rw [hspace] at hblank
    cases hblank

theorem Trimmed.last {t : List α} (ht : Trimmed space t) :
    ¬ ∃ x, t.getLast? = some x ∧ space x = true := by
  intro ⟨x, hx, hspace⟩
  have hblank := ht.2 x hx
  rw [hspace] at hblank
  cases hblank

theorem cutsOneWay_of_blanks (hsep : space sep = false) {d t v : List α}
    (hd : BlankAfter sep space d) (hafter : BlankAfter sep space t)
    (hbefore : BlankBefore sep space t) (hv : BlankBefore sep space v) :
    CutsOneWay sep space d t v := by
  intro d' t' v' ht' h
  rcases cut_cases h with ⟨hdd, hrest⟩ | ⟨m, hdm, hrest⟩ | ⟨m, -, hrest⟩
  · -- the first cut is the same one
    rcases cut_cases hrest with ⟨htt, hvv⟩ | ⟨m, htm, -⟩ | ⟨m, htm, hvm⟩
    · exact ⟨hdd, htt, hvv⟩
    · exact absurd (hbefore _ _ htm) ht'.last
    · obtain ⟨x, hx, hspace⟩ := hv _ _ hvm
      have hlast : t'.getLast? = some x := by
        cases m with
        | nil => cases hx
        | cons y m => rw [htm]; simpa [List.getLast?_append, List.getLast?_cons_cons] using hx
      exact absurd ⟨x, hlast, hspace⟩ ht'.last
  · -- inside the first field
    exact absurd (hd _ _ hdm) (ht'.head hsep hrest)
  · -- inside what follows it
    rcases cut_cases hrest with ⟨-, hvt⟩ | ⟨n, htn, hrest'⟩ | ⟨n, -, hvn⟩
    · exact absurd (hv _ _ hvt) ht'.last
    · exact absurd (hafter _ _ htn) (ht'.head hsep hrest')
    · have hv' : v = (n ++ sep :: t') ++ sep :: v' := by
        rw [hvn, List.append_assoc, List.cons_append]
      obtain ⟨x, hx, hspace⟩ := hv _ _ hv'
      cases t' with
      | nil =>
        have hx : sep = x := by simpa using hx
        rw [← hx, hsep] at hspace
        cases hspace
      | cons y t' =>
        have hlast : (y :: t').getLast? = some x := by
          simpa [List.getLast?_append, List.getLast?_cons_cons] using hx
        exact absurd ⟨x, hlast, hspace⟩ ht'.last

theorem trimmed_join (hsep : space sep = false) {a m : List α}
    (ha : ∀ x, a.head? = some x → space x = false)
    (hm : ∀ x, m.getLast? = some x → space x = false) : Trimmed space (a ++ sep :: m) := by
  constructor
  · intro x hx
    cases a with
    | nil =>
      obtain rfl : sep = x := Option.some.inj hx
      exact hsep
    | cons y a => exact ha x hx
  · intro x hx
    cases m with
    | nil =>
      have hx : sep = x := by simpa using hx
      rw [← hx]
      exact hsep
    | cons y m =>
      apply hm
      simpa [List.getLast?_append, List.getLast?_cons_cons] using hx

/-- Where no blank begins a text, none of its first elements is one. -/
private theorem clear_of_not {o : Option α} (h : ¬ ∃ x, o = some x ∧ space x = true) :
    ∀ x, o = some x → space x = false := by
  intro x hx
  by_contra hspace
  exact h ⟨x, hx, by simpa using hspace⟩

private theorem ne_of_longer {a m : List α} (h : a = a ++ sep :: m) : False := by
  have hlength := congrArg List.length h
  rw [List.length_append, List.length_cons] at hlength
  omega

theorem blanks_of_cutsOneWay (hsep : space sep = false) {d t v : List α} (ht : Trimmed space t)
    (h : CutsOneWay sep space d t v) : BlankAfter sep space d ∧ BlankAfter sep space t ∧
      BlankBefore sep space t ∧ BlankBefore sep space v := by
  refine ⟨?_, ?_, ?_, ?_⟩
  · intro a m hd
    by_contra hno
    have hother := (h a (m ++ sep :: t) v (trimmed_join hsep (clear_of_not hno) ht.2)
      (by rw [hd]; simp)).1
    exact ne_of_longer (hother.symm.trans hd)
  · intro a m htm
    by_contra hno
    have htrimmed : Trimmed space m := by
      refine ⟨clear_of_not hno, fun x hx => ht.2 x ?_⟩
      cases m with
      | nil => cases hx
      | cons y m => rw [htm]; simpa [List.getLast?_append, List.getLast?_cons_cons] using hx
    exact ne_of_longer (h (d ++ sep :: a) m v htrimmed (by rw [htm]; simp)).1
  · intro a m htm
    by_contra hno
    have htrimmed : Trimmed space a := by
      refine ⟨fun x hx => ht.1 x ?_, clear_of_not hno⟩
      cases a with
      | nil => cases hx
      | cons y a => rw [htm]; exact hx
    have hother := (h d a (m ++ sep :: v) htrimmed (by rw [htm]; simp)).2.1
    exact ne_of_longer (hother.symm.trans htm)
  · intro a m hv
    by_contra hno
    have hother := (h d (t ++ sep :: a) m (trimmed_join hsep ht.1 (clear_of_not hno))
      (by rw [hv]; simp)).2.1
    exact ne_of_longer hother

/-- **Cuts**: the fields can be read off the joined text exactly when a blank
    follows every separator in the first field, precedes every one in the last and
    stands on both sides of those in the middle field. -/
theorem cutsOneWay_iff (hsep : space sep = false) {d t v : List α} (ht : Trimmed space t) :
    CutsOneWay sep space d t v ↔ BlankAfter sep space d ∧ BlankAfter sep space t ∧
      BlankBefore sep space t ∧ BlankBefore sep space v := by
  constructor
  · exact blanks_of_cutsOneWay hsep ht
  · intro ⟨hd, hafter, hbefore, hv⟩
    exact cutsOneWay_of_blanks hsep hd hafter hbefore hv

end

/-! ## Trimming -/

variable {α : Type} {space : α → Bool} {xs front core back : List α} {x : α}

def trim (space : α → Bool) (xs : List α) : List α := (xs.dropWhile space).rdropWhile space

theorem trim_split (space : α → Bool) (xs : List α) : ∃ front back,
    xs = front ++ (trim space xs ++ back) ∧ (∀ x ∈ front, space x = true) ∧
      ∀ x ∈ back, space x = true := by
  refine ⟨xs.takeWhile space, (xs.dropWhile space).rtakeWhile space, ?_, ?_, ?_⟩
  · rw [trim, List.rdropWhile_append_rtakeWhile, List.takeWhile_append_dropWhile]
  · intro x hx
    exact List.mem_takeWhile_imp hx
  · intro x hx
    exact List.mem_rtakeWhile_imp hx

theorem mem_of_mem_trim (h : x ∈ trim space xs) : x ∈ xs := by
  obtain ⟨front, back, hsplit, -⟩ := trim_split space xs
  rw [hsplit]
  exact List.mem_append_right _ (List.mem_append_left _ h)

theorem trim_length_le (space : α → Bool) (xs : List α) : (trim space xs).length ≤ xs.length := by
  obtain ⟨front, back, hsplit, -⟩ := trim_split space xs
  have hlength := congrArg List.length hsplit
  simp only [List.length_append] at hlength
  omega

theorem trim_eq_nil : trim space xs = [] ↔ ∀ x ∈ xs, space x = true := by
  constructor
  · intro h x hx
    obtain ⟨front, back, hsplit, hfront, hback⟩ := trim_split space xs
    rw [hsplit, h, List.nil_append] at hx
    rcases List.mem_append.mp hx with hx | hx
    · exact hfront x hx
    · exact hback x hx
  · intro h
    rw [trim, List.dropWhile_eq_nil_iff.mpr h]
    rfl

theorem filter_trim (space : α → Bool) (xs : List α) :
    (trim space xs).filter (fun x => !space x) = xs.filter (fun x => !space x) := by
  obtain ⟨front, back, hsplit, hfront, hback⟩ := trim_split space xs
  have hnone : ∀ ys : List α, (∀ x ∈ ys, space x = true) → ys.filter (fun x => !space x) = [] := by
    intro ys hys
    exact List.filter_eq_nil_iff.mpr (fun x hx => by simp [hys x hx])
  conv_rhs => rw [hsplit]
  rw [List.filter_append, List.filter_append, hnone front hfront, hnone back hback]
  simp

theorem trim_trimmed (space : α → Bool) (xs : List α) : Trimmed space (trim space xs) := by
  constructor
  · intro x hx
    obtain ⟨rest, hrest⟩ := List.rdropWhile_prefix space (xs.dropWhile space)
    have hhead : (xs.dropWhile space).head? = some x := by
      have hx : ((xs.dropWhile space).rdropWhile space).head? = some x := hx
      rw [← hrest, List.head?_append, hx]
      rfl
    have hnot := List.head?_dropWhile_not space xs
    rw [hhead] at hnot
    exact hnot
  · intro x hx
    have hne : trim space xs ≠ [] := by
      intro hnil
      rw [hnil] at hx
      cases hx
    have hnot := List.rdropWhile_last_not space (xs.dropWhile space) hne
    rw [List.getLast?_eq_some_getLast hne, Option.some.injEq] at hx
    rw [← hx]
    exact Bool.eq_false_iff.mpr hnot

theorem trim_eq_self (h : Trimmed space xs) : trim space xs = xs := by
  obtain ⟨hhead, hlast⟩ := h
  have hleft : xs.dropWhile space = xs := by
    cases xs with
    | nil => rfl
    | cons x rest => rw [List.dropWhile_cons_of_neg (by simp [hhead x rfl])]
  rw [trim, hleft, List.rdropWhile_eq_self_iff]
  intro hne
  have := hlast _ (List.getLast?_eq_some_getLast hne)
  simp [this]

theorem trim_framed (hfront : ∀ x ∈ front, space x = true) (hback : ∀ x ∈ back, space x = true) :
    trim space (front ++ (core ++ back)) = trim space core := by
  have hright : ∀ ys : List α, (ys ++ back).rdropWhile space = ys.rdropWhile space := by
    intro ys
    have hrev : ∀ x ∈ back.reverse, space x = true := fun x hx => hback x (List.mem_reverse.mp hx)
    rw [List.rdropWhile, List.rdropWhile, List.reverse_append,
      List.dropWhile_append_of_pos hrev]
  rw [trim, trim, List.dropWhile_append_of_pos hfront, List.dropWhile_append]
  cases hcore : core.dropWhile space with
  | nil =>
    have hgone : back.dropWhile space = [] := List.dropWhile_eq_nil_iff.mpr hback
    simp [hgone]
  | cons x rest =>
    rw [if_neg (by simp)]
    exact hright (x :: rest)

end Framework
