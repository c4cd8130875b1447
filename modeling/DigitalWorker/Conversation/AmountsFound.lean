import DigitalWorker.Conversation.Amounts

/-! # What the two expressions find

    A number before a unit is found from the last two of the pieces that separators
    join, since a match has one separator at most and ends with the letter of a unit
    (`findall_vndUnit`). A run of digits is found as an amount of its own when it is
    long and a word ends there (`findall_run`).
-/

namespace DigitalWorker.Conversation

open Framework

variable (u : CharClasses)

/-! ## Characters -/

variable {c : Char} {unit : VndUnit} {prev : Option Char}

theorem toNat_of_isDigit (h : c.isDigit = true) : 48 ≤ c.toNat ∧ c.toNat ≤ 57 :=
  Char.isDigit_iff_toNat.mp h

theorem digit_of_isDigit (h : c.isDigit = true) : u.digit c = some (c.toNat - 48) := by
  have hbound := toNat_of_isDigit h
  rw [u.digit_ascii c (by omega), if_pos h]
  rfl

theorem isDigit_of_ascii (h : c.isDigit = true) : u.isDigit c = true := by
  unfold CharClasses.isDigit
  rw [digit_of_isDigit u h]
  rfl

theorem not_isDigit_of_ascii (h : c.toNat < 128) (h' : c.isDigit = false) :
    u.isDigit c = false := by
  unfold CharClasses.isDigit
  rw [u.digit_ascii c h, h']
  rfl

theorem not_isDigit_of_not_word (h : u.word c = false) : u.isDigit c = false := by
  by_contra hdigit
  rw [Bool.not_eq_false] at hdigit
  rw [u.digit_word c hdigit] at h
  cases h

theorem not_isDigit_of_space (h : isSpace c = true) : u.isDigit c = false :=
  not_isDigit_of_not_word u (u.space_word c h)

theorem not_isDigit_of_separator (h : isSeparator c = true) : u.isDigit c = false := by
  unfold isSeparator at h
  rw [Bool.or_eq_true, beq_iff_eq, beq_iff_eq] at h
  rcases h with rfl | rfl
  · exact not_isDigit_of_ascii u (by decide) (by decide)
  · exact not_isDigit_of_ascii u (by decide) (by decide)

theorem not_word_of_separator (h : isSeparator c = true) : u.word c = false := by
  unfold isSeparator at h
  rw [Bool.or_eq_true, beq_iff_eq, beq_iff_eq] at h
  rcases h with rfl | rfl
  · rw [u.word_ascii _ (by decide)]
    decide
  · rw [u.word_ascii _ (by decide)]
    decide

theorem not_separator_of_space (h : isSpace c = true) : isSeparator c = false := by
  by_contra hsep
  unfold isSeparator at hsep
  rw [Bool.not_eq_false, Bool.or_eq_true, beq_iff_eq, beq_iff_eq] at hsep
  rcases hsep with rfl | rfl
  · exact absurd h (by decide)
  · exact absurd h (by decide)

theorem not_separator_of_digit (h : u.isDigit c = true) : isSeparator c = false := by
  by_contra hsep
  rw [Bool.not_eq_false] at hsep
  rw [not_isDigit_of_separator u hsep] at h
  cases h

theorem not_isDigit_of_unit (h : c ∈ unit.text) : u.isDigit c = false := by
  have hletters : u.isDigit 'ỷ' = false ∧ u.isDigit 'ệ' = false := by
    unfold CharClasses.isDigit
    rw [u.letters.1, u.letters.2]
    exact ⟨rfl, rfl⟩
  have hletter : ['t', 'r', 'i', 'u'].all (fun x => decide (x.toNat < 128) && !x.isDigit) = true := by
    decide
  have hascii : ∀ x ∈ ['t', 'r', 'i', 'u'], u.isDigit x = false := by
    intro x hx
    have hx' := List.all_eq_true.mp hletter x hx
    rw [Bool.and_eq_true, decide_eq_true_eq, Bool.not_eq_true'] at hx'
    exact not_isDigit_of_ascii u hx'.1 hx'.2
  cases unit with
  | trieu =>
    rcases List.mem_cons.mp h with rfl | h
    · exact hascii _ (by decide)
    rcases List.mem_cons.mp h with rfl | h
    · exact hascii _ (by decide)
    rcases List.mem_cons.mp h with rfl | h
    · exact hascii _ (by decide)
    rcases List.mem_cons.mp h with rfl | h
    · exact hletters.2
    rcases List.mem_cons.mp h with rfl | h
    · exact hascii _ (by decide)
    · cases h
  | ty =>
    rcases List.mem_cons.mp h with rfl | h
    · exact hascii _ (by decide)
    rcases List.mem_cons.mp h with rfl | h
    · exact hletters.1
    · cases h

theorem not_separator_of_unit (h : c ∈ unit.text) :
    isSeparator c = false := by
  have hall : unit.text.all (fun x => !isSeparator x) = true := by
    cases unit <;> decide
  have hc := List.all_eq_true.mp hall c h
  rw [Bool.not_eq_true'] at hc
  exact hc

theorem decimalOf_eq {digits : List Char} (h : ∀ c ∈ digits, c.isDigit = true) :
    u.decimalOf digits = valueOf digits := by
  have hfold : ∀ init, digits.foldl (fun n c => 10 * n + (u.digit c).getD 0) init =
      Nat.ofDigitChars 10 digits init := by
    induction digits with
    | nil => exact fun init => rfl
    | cons c digits ih =>
      intro init
      have hc : (u.digit c).getD 0 = c.toNat - 48 := by
        rw [digit_of_isDigit u (h c List.mem_cons_self)]
        rfl
      show digits.foldl _ (10 * init + (u.digit c).getD 0) = _
      rw [hc, ih (fun x hx => h x (List.mem_cons_of_mem c hx)), Nat.ofDigitChars_cons]
      rfl
  exact hfold 0

theorem valueOf_append (a b : List Char) :
    valueOf (a ++ b) = valueOf a * 10 ^ b.length + valueOf b := by
  unfold valueOf
  rw [Nat.ofDigitChars_append, Nat.ofDigitChars_eq_ofDigitChars_zero, Nat.mul_comm]

theorem valueOf_lt {digits : List Char} (h : ∀ c ∈ digits, c.isDigit = true) :
    valueOf digits < 10 ^ digits.length := by
  induction digits with
  | nil => decide
  | cons c digits ih =>
    have hc := toNat_of_isDigit (h c List.mem_cons_self)
    have hrest := ih (fun x hx => h x (List.mem_cons_of_mem c hx))
    have hone : valueOf [c] = c.toNat - 48 := by
      simp [valueOf, Nat.ofDigitChars_cons]
    rw [← List.singleton_append, valueOf_append, hone, List.length_append, List.length_singleton,
      Nat.pow_add]
    have hdigit : c.toNat - 48 ≤ 9 := by omega
    have hscaled : (c.toNat - 48) * 10 ^ digits.length ≤ 9 * 10 ^ digits.length :=
      Nat.mul_le_mul_right _ hdigit
    omega

/-! ## The number before a unit -/

/-- What stands between a number and the unit: nothing, or decimals. -/
inductive Decimals (u : CharClasses) : List Char → Prop where
  | none : Decimals u []
  | some {sep : Char} {digits : List Char} (hsep : isSeparator sep = true) (hne : digits ≠ [])
      (hdigits : ∀ c ∈ digits, u.isDigit c = true) : Decimals u (sep :: digits)

theorem literal_cons {x c : Char} {xs rest : List Char}
    (h : (caseForms x).contains c = true) :
    literal (x :: xs) ⟨prev, c :: rest⟩ =
      (literal xs ⟨some c, rest⟩).map (fun way => (c :: way.1, way.2)) := by
  show (Matcher.one _ ⟨prev, c :: rest⟩).flatMap _ = _
  rw [Matcher.one_cons h, List.flatMap_singleton]
  exact List.flatMap_pure_eq_map _ _

theorem literal_eq_nil {x c : Char} {xs rest : List Char}
    (h : (caseForms x).contains c = false) : literal (x :: xs) ⟨prev, c :: rest⟩ = [] := by
  show (Matcher.one _ ⟨prev, c :: rest⟩).flatMap _ = []
  rw [Matcher.one_eq_nil (by simpa using h)]
  rfl

theorem head_unitWord (unit : VndUnit) (prev : Option Char) :
    ∃ last, (unitWord u ⟨prev, unit.text⟩).head? = some (unit.text, ⟨last, []⟩) := by
  cases unit with
  | ty =>
    refine ⟨some 'ỷ', Matcher.head_alt_left ?_⟩
    show (literal ['t', 'ỷ'] ⟨prev, ['t', 'ỷ']⟩).head? = _
    rw [literal_cons (by decide), literal_cons (by decide)]
    rfl
  | trieu =>
    refine ⟨some 'u', ?_⟩
    -- the words of a thousand million fail at the second letter
    have hsecond : ∀ c cs, (caseForms c).contains 'r' = false →
        literal ('t' :: c :: cs) ⟨prev, ['t', 'r', 'i', 'ệ', 'u']⟩ = [] := by
      intro c cs hc
      rw [literal_cons (by decide), literal_eq_nil hc]
      rfl
    have hwhole : wholeWord u ['t', 'y'] ⟨prev, ['t', 'r', 'i', 'ệ', 'u']⟩ = [] := by
      refine Matcher.bind_eq_nil (fun way hway => ?_)
      rw [hsecond _ _ (by decide)] at hway
      cases hway
    show (unitWord u ⟨prev, ['t', 'r', 'i', 'ệ', 'u']⟩).head? = _
    unfold unitWord
    rw [Matcher.head_alt_right (hsecond _ _ (by decide)),
      Matcher.head_alt_right (hsecond _ _ (by decide)), Matcher.head_alt_right hwhole]
    refine Matcher.head_alt_left ?_
    rw [literal_cons (by decide), literal_cons (by decide), literal_cons (by decide),
      literal_cons (by decide), literal_cons (by decide)]
    rfl

theorem head_unit_text {p : Char → Bool} (h : p 't' = false) :
    unit.text.head?.any p = false := by
  cases unit <;> exact h

theorem head_after {spaces : List Char} {p : Char → Bool}
    (hspaces : ∀ c ∈ spaces, p c = false) (ht : p 't' = false) :
    (spaces ++ unit.text).head?.any p = false := by
  cases spaces with
  | nil => exact head_unit_text ht
  | cons c spaces => exact hspaces c List.mem_cons_self

/-- **The unit expression** on a number with at most one separator, before a unit:
    it takes all of it. -/
theorem head_vndUnit (prev : Option Char) (unit : VndUnit) {whole decimals spaces : List Char}
    (hne : whole ≠ []) (hwhole : ∀ c ∈ whole, u.isDigit c = true) (hdecimals : Decimals u decimals)
    (hspaces : ∀ c ∈ spaces, isSpace c = true) :
    ∃ last, (vndUnit u ⟨prev, whole ++ (decimals ++ (spaces ++ unit.text))⟩).head? =
      some ((whole ++ decimals, unit.text), ⟨last, []⟩) := by
  have hlast : (spaces ++ unit.text).head?.any u.isDigit = false :=
    head_after (fun c hc => not_isDigit_of_space u (hspaces c hc))
      (not_isDigit_of_ascii u (by decide) (by decide))
  have hnext : (decimals ++ (spaces ++ unit.text)).head?.any u.isDigit = false := by
    cases hdecimals with
    | none => exact hlast
    | some hsep _ _ => exact not_isDigit_of_separator u hsep
  -- the digits of the whole part
  have hfirst : (Matcher.run u.isDigit 1 none
      ⟨prev, whole ++ (decimals ++ (spaces ++ unit.text))⟩).head? =
      some (whole, ⟨whole.getLast?.or prev, decimals ++ (spaces ++ unit.text)⟩) :=
    Matcher.head_run_append hwhole hnext (by simp) (List.length_pos_iff.mpr hne)
  -- the decimals
  have hsecond : ∀ prev, ∃ found last, (Matcher.opt (separated u 1 none)
      ⟨prev, decimals ++ (spaces ++ unit.text)⟩).head? = some (found, ⟨last, spaces ++ unit.text⟩) ∧
      found.getD [] = decimals := by
    intro prev
    cases hdecimals with
    | none =>
      have hnosep : (spaces ++ unit.text).head?.any isSeparator = false :=
        head_after (fun c hc => not_separator_of_space (hspaces c hc)) (by decide)
      have hnil : separated u 1 none ⟨prev, spaces ++ unit.text⟩ = [] := by
        show (Matcher.one isSeparator _).flatMap _ = []
        rw [Matcher.one_eq_nil hnosep]
        rfl
      refine ⟨none, prev, ?_, rfl⟩
      rw [List.nil_append, Matcher.opt_of_nil hnil]
      rfl
    | @some sep digits hsep hne hdigits =>
      have hrun : ((separated u 1 none) ⟨prev, sep :: (digits ++ (spaces ++ unit.text))⟩).head? =
          some (sep :: digits, ⟨digits.getLast?.or (some sep), spaces ++ unit.text⟩) := by
        have hone : (Matcher.one isSeparator ⟨prev, sep :: (digits ++ (spaces ++ unit.text))⟩).head? =
            some (sep, ⟨some sep, digits ++ (spaces ++ unit.text)⟩) := by
          rw [Matcher.one_cons hsep]
          rfl
        exact Matcher.head_bind hone (Matcher.head_bind (Matcher.head_run_append hdigits hlast
          (by simp) (List.length_pos_iff.mpr hne)) rfl)
      exact ⟨some (sep :: digits), _, Matcher.head_opt hrun, rfl⟩
  -- the spaces and the unit
  obtain ⟨found, last, hdecimal, hfound⟩ := hsecond (whole.getLast?.or prev)
  have hthird : (Matcher.run isSpace 0 none ⟨last, spaces ++ unit.text⟩).head? =
      some (spaces, ⟨spaces.getLast?.or last, unit.text⟩) :=
    Matcher.head_run_append hspaces (head_unit_text (by decide)) (by simp) (Nat.zero_le _)
  obtain ⟨final, hunit⟩ := head_unitWord u unit (spaces.getLast?.or last)
  refine ⟨final, ?_⟩
  refine Matcher.head_bind hfirst (Matcher.head_bind hdecimal (Matcher.head_bind hthird
    (Matcher.head_bind hunit ?_)))
  rw [← hfound]
  rfl

/-! ### Nothing starts before the last two pieces -/

def startsUnit (c : Char) : Bool := c == 't' || c == 'T'

theorem not_startsUnit_of_digit (h : u.isDigit c = true) : startsUnit c = false := by
  by_contra hstart
  unfold startsUnit at hstart
  rw [Bool.not_eq_false, Bool.or_eq_true, beq_iff_eq, beq_iff_eq] at hstart
  rcases hstart with rfl | rfl
  · rw [not_isDigit_of_ascii u (by decide) (by decide)] at h
    cases h
  · rw [not_isDigit_of_ascii u (by decide) (by decide)] at h
    cases h

theorem not_startsUnit_of_separator (h : isSeparator c = true) :
    startsUnit c = false := by
  unfold isSeparator at h
  rw [Bool.or_eq_true, beq_iff_eq, beq_iff_eq] at h
  rcases h with rfl | rfl <;> decide

theorem not_startsUnit_of_space (h : isSpace c = true) : startsUnit c = false := by
  by_contra hstart
  unfold startsUnit at hstart
  rw [Bool.not_eq_false, Bool.or_eq_true, beq_iff_eq, beq_iff_eq] at hstart
  rcases hstart with rfl | rfl
  · exact absurd h (by decide)
  · exact absurd h (by decide)

theorem literal_starts {x : Char} {xs : List Char} {c : Cursor} {way : List Char × Cursor}
    (h : way ∈ literal (x :: xs) c) : c.rest.head?.any (caseForms x).contains = true := by
  obtain ⟨first, hfirst, _⟩ := Matcher.mem_bind.mp h
  obtain ⟨hform, hrest⟩ := Matcher.mem_one hfirst
  rw [hrest]
  exact hform

theorem unitWord_starts {c : Cursor} {way : List Char × Cursor} (h : way ∈ unitWord u c) :
    c.rest.head?.any startsUnit = true := by
  have hforms : c.rest.head?.any (caseForms 't').contains = true := by
    rcases Matcher.mem_alt.mp h with h | h
    · exact literal_starts h
    rcases Matcher.mem_alt.mp h with h | h
    · exact literal_starts h
    rcases Matcher.mem_alt.mp h with h | h
    · obtain ⟨found, hfound, _⟩ := Matcher.mem_bind.mp h
      exact literal_starts hfound
    rcases Matcher.mem_alt.mp h with h | h
    · exact literal_starts h
    · obtain ⟨found, hfound, _⟩ := Matcher.mem_bind.mp h
      exact literal_starts hfound
  cases hrest : c.rest with
  | nil =>
    rw [hrest] at hforms
    cases hforms
  | cons x rest =>
    rw [hrest] at hforms
    have hx : (['t', 'T'] : List Char).contains x = true := hforms
    show startsUnit x = true
    unfold startsUnit
    simpa using hx

theorem no_separator {text : List Char} (h : ∀ x ∈ text, isSeparator x = false) :
    text.countP isSeparator = 0 := by
  rw [List.countP_eq_zero]
  intro x hx
  rw [h x hx]
  exact Bool.false_ne_true

theorem no_separator_of_digits {text : List Char} (h : ∀ x ∈ text, u.isDigit x = true) :
    text.countP isSeparator = 0 :=
  no_separator (fun x hx => not_separator_of_digit u (h x hx))

theorem vndUnit_front {c : Cursor} {way : (List Char × List Char) × Cursor}
    (h : way ∈ vndUnit u c) :
    ∃ front tail, c.rest = front ++ tail ∧ tail.head?.any startsUnit = true ∧
      front.countP isSeparator ≤ 1 ∧ ∀ x ∈ front, startsUnit x = false := by
  obtain ⟨whole, hwhole, h⟩ := Matcher.mem_bind.mp h
  obtain ⟨decimals, hdecimals, h⟩ := Matcher.mem_bind.mp h
  obtain ⟨spaces, hspaces, h⟩ := Matcher.mem_bind.mp h
  obtain ⟨unit, hunit, h⟩ := Matcher.mem_bind.mp h
  obtain ⟨hdigits, _, hrest, _⟩ := Matcher.mem_run hwhole
  obtain ⟨hblank, _, hrest', _⟩ := Matcher.mem_run hspaces
  -- the decimals, where there are any
  have hbetween : ∃ part, whole.2.rest = part ++ decimals.2.rest ∧
      part.countP isSeparator ≤ 1 ∧ ∀ x ∈ part, startsUnit x = false := by
    rcases Matcher.mem_opt.mp hdecimals with ⟨first, hfirst, rfl⟩ | rfl
    · obtain ⟨sep, hsep, hmore⟩ := Matcher.mem_bind.mp hfirst
      obtain ⟨digits, hrun, hpure⟩ := Matcher.mem_bind.mp hmore
      obtain rfl := Matcher.mem_pure.mp hpure
      obtain ⟨hissep, hone⟩ := Matcher.mem_one hsep
      obtain ⟨hall, _, htail, _⟩ := Matcher.mem_run hrun
      refine ⟨sep.1 :: digits.1, ?_, ?_, ?_⟩
      · rw [hone, htail]
        rfl
      · rw [List.countP_cons, no_separator_of_digits u hall, if_pos hissep]
      · intro x hx
        rcases List.mem_cons.mp hx with rfl | hx
        · exact not_startsUnit_of_separator hissep
        · exact not_startsUnit_of_digit u (hall x hx)
    · exact ⟨[], rfl, Nat.zero_le 1, fun x hx => by cases hx⟩
  obtain ⟨part, hpart, hcount, hletters⟩ := hbetween
  refine ⟨whole.1 ++ (part ++ spaces.1), spaces.2.rest, ?_, unitWord_starts u hunit, ?_, ?_⟩
  · rw [hrest, hpart, hrest']
    simp only [List.append_assoc]
  · have hspaceCount : spaces.1.countP isSeparator = 0 :=
      no_separator (fun x hx => not_separator_of_space (hblank x hx))
    rw [List.countP_append, List.countP_append, no_separator_of_digits u hdigits, hspaceCount]
    omega
  · intro x hx
    rcases List.mem_append.mp hx with hx | hx
    · exact not_startsUnit_of_digit u (hdigits x hx)
    rcases List.mem_append.mp hx with hx | hx
    · exact hletters x hx
    · exact not_startsUnit_of_space (hblank x hx)

theorem vndUnit_separators {c : Cursor} {way : (List Char × List Char) × Cursor}
    (h : way ∈ vndUnit u c) :
    (c.rest.takeWhile (fun x => !startsUnit x)).countP isSeparator ≤ 1 := by
  obtain ⟨front, tail, hrest, hstart, hcount, hletters⟩ := vndUnit_front u h
  have htaken : c.rest.takeWhile (fun x => !startsUnit x) = front := by
    rw [hrest, List.takeWhile_append_of_pos (fun x hx => by rw [hletters x hx]; rfl)]
    cases tail with
    | nil => cases hstart
    | cons x tail =>
      have hx : startsUnit x = true := hstart
      rw [List.takeWhile_cons_of_neg (by simp [hx]), List.append_nil]
  rw [htaken]
  exact hcount

theorem findall_vndUnit_eq_nil {text : List Char} (h : ∀ x ∈ text, startsUnit x = false) :
    findall (vndUnit u) text = [] := by
  refine findallFrom_eq_nil (fun before ahead hsplit _ => ?_)
  rw [List.eq_nil_iff_forall_not_mem]
  intro way hway
  obtain ⟨front, tail, hrest, hstart, _⟩ := vndUnit_front u hway
  dsimp only at hrest
  cases tail with
  | nil => cases hstart
  | cons x tail =>
    have hx : x ∈ text := by
      rw [hsplit, hrest]
      exact List.mem_append_right _ (List.mem_append_right _ List.mem_cons_self)
    have hletter : startsUnit x = true := hstart
    rw [h x hx] at hletter
    cases hletter

theorem takeWhile_to_unit {front : List Char}
    (h : ∀ x ∈ front, startsUnit x = false) :
    (front ++ unit.text).takeWhile (fun x => !startsUnit x) = front := by
  rw [List.takeWhile_append_of_pos (fun x hx => by rw [h x hx]; rfl)]
  cases unit <;> exact List.append_nil front

theorem Decimals.not_startsUnit {decimals : List Char} (h : Decimals u decimals) :
    ∀ x ∈ decimals, startsUnit x = false := by
  intro x hx
  cases h with
  | none => cases hx
  | some hsep _ hdigits =>
    rcases List.mem_cons.mp hx with rfl | hx
    · exact not_startsUnit_of_separator hsep
    · exact not_startsUnit_of_digit u (hdigits x hx)

/-- **The only number**: of pieces that separators join, the expression finds the last
    two, or the one there is. -/
theorem findall_vndUnit (before : List Char) (unit : VndUnit)
    {whole decimals spaces : List Char} (hne : whole ≠ []) (hwhole : ∀ c ∈ whole, u.isDigit c = true) (hdecimals : Decimals u decimals)
    (hspaces : ∀ c ∈ spaces, isSpace c = true)
    (hbefore : before = [] ∨ decimals ≠ [] ∧ ∃ front, before = front ++ ['.'])
    (hletters : ∀ x ∈ before, startsUnit x = false) :
    findall (vndUnit u) (before ++ (whole ++ (decimals ++ (spaces ++ unit.text)))) =
      [(whole ++ decimals, unit.text)] := by
  have hpass : findallFrom (vndUnit u) 0 none
      (before ++ (whole ++ (decimals ++ (spaces ++ unit.text)))) =
      findallFrom (vndUnit u) 0 (before.getLast?.or none)
        (whole ++ (decimals ++ (spaces ++ unit.text))) := by
    refine findallFrom_pass (fun passed ahead hsplit hahead => ?_)
    rw [List.eq_nil_iff_forall_not_mem]
    intro way hway
    have hcount := vndUnit_separators u hway
    -- ahead of the last two pieces there are two separators at least
    rcases hbefore with rfl | ⟨htwo, front, rfl⟩
    · exact hahead (List.append_eq_nil_iff.mp hsplit.symm).2
    · have hdot : '.' ∈ ahead := by
        have hlast : (passed ++ ahead).getLast? = some '.' := by
          rw [← hsplit, List.getLast?_append]
          rfl
        rw [List.getLast?_append_of_ne_nil _ hahead] at hlast
        exact List.mem_of_getLast? hlast
      have hfront : ∀ x ∈ ahead ++ (whole ++ (decimals ++ spaces)), startsUnit x = false := by
        intro x hx
        rcases List.mem_append.mp hx with hx | hx
        · exact hletters x (hsplit ▸ List.mem_append_right passed hx)
        rcases List.mem_append.mp hx with hx | hx
        · exact not_startsUnit_of_digit u (hwhole x hx)
        rcases List.mem_append.mp hx with hx | hx
        · exact hdecimals.not_startsUnit u x hx
        · exact not_startsUnit_of_space (hspaces x hx)
      have htext : ahead ++ (whole ++ (decimals ++ (spaces ++ unit.text))) =
          (ahead ++ (whole ++ (decimals ++ spaces))) ++ unit.text := by
        simp only [List.append_assoc]
      dsimp only at hcount
      rw [htext, takeWhile_to_unit hfront, List.countP_append, List.countP_append,
        List.countP_append] at hcount
      have hone : 0 < ahead.countP isSeparator := List.countP_pos_iff.mpr ⟨'.', hdot, by decide⟩
      have hother : 0 < decimals.countP isSeparator := by
        cases hdecimals with
        | none => exact absurd rfl htwo
        | some hsep _ _ => exact List.countP_pos_iff.mpr ⟨_, List.mem_cons_self, hsep⟩
      omega
  obtain ⟨last, hhead⟩ := head_vndUnit u (before.getLast?.or none) unit hne hwhole hdecimals hspaces
  rw [← List.append_nil (whole ++ (decimals ++ (spaces ++ unit.text)))] at hhead
  have hmatch := findallFrom_match (by simp [hne]) hhead rfl
  rw [List.append_nil, findallFrom_nil] at hmatch
  show findallFrom (vndUnit u) 0 none _ = _
  rw [hpass, hmatch]

/-! ## Long runs of digits -/

theorem vndPlain_of_not_digit {c : Cursor} (h : c.rest.head?.any u.isDigit = false) :
    vndPlain u c = [] := by
  have hgrouped : ∀ c : Cursor, c.rest.head?.any u.isDigit = false →
      Matcher.alt (groupedDigits u) (Matcher.run u.isDigit 7 none) c = [] := by
    intro c hc
    show groupedDigits u c ++ Matcher.run u.isDigit 7 none c = []
    rw [Matcher.run_eq_nil (by decide) hc, List.append_nil]
    refine Matcher.bind_eq_nil (fun way hway => ?_)
    rw [Matcher.run_eq_nil (by decide) hc] at hway
    cases hway
  refine Matcher.bind_eq_nil (fun way hway => ?_)
  have hstay : way.2 = c := by
    unfold Matcher.boundary at hway
    split at hway
    · cases hway
    · exact congrArg Prod.snd (List.mem_singleton.mp hway)
  refine Matcher.bind_eq_nil (fun raw hraw => ?_)
  rw [hstay, hgrouped c h] at hraw
  cases hraw

theorem vndPlain_inside {c : Cursor} (h : c.prev.any u.word = c.rest.head?.any u.word) :
    vndPlain u c = [] := by
  have hnone : Matcher.boundary u.word c = [] := if_pos h
  refine Matcher.bind_eq_nil (fun way hway => ?_)
  rw [hnone] at hway
  cases hway

theorem groupedDigits_eq_nil {c : Cursor} (h : c.rest.countP isSeparator ≤ 1) :
    groupedDigits u c = [] := by
  refine Matcher.bind_eq_nil (fun lead hlead => ?_)
  obtain ⟨_, _, hrest, _⟩ := Matcher.mem_run hlead
  have hcount : lead.2.rest.countP isSeparator ≤ 1 := by
    rw [hrest, List.countP_append] at h
    omega
  refine Matcher.bind_eq_nil (fun groups hgroups => ?_)
  obtain ⟨hrepeated, htwo⟩ := List.mem_filter.mp hgroups
  have hbody : ∀ c, ∀ way ∈ separated u 3 (some 3) c,
      way.2.rest.countP isSeparator + 1 ≤ c.rest.countP isSeparator := by
    intro c way hway
    obtain ⟨sep, hsep, hmore⟩ := Matcher.mem_bind.mp hway
    obtain ⟨digits, hdigits, hpure⟩ := Matcher.mem_bind.mp hmore
    obtain rfl := Matcher.mem_pure.mp hpure
    obtain ⟨hissep, hone⟩ := Matcher.mem_one hsep
    obtain ⟨_, _, htail, _⟩ := Matcher.mem_run hdigits
    rw [hone, htail, List.countP_cons, List.countP_append, if_pos hissep]
    show List.countP isSeparator digits.2.rest + 1 ≤ _
    omega
  have hlength := Matcher.repeated_length (fun cs => cs.countP isSeparator) hbody _ _ _ hrepeated
  rw [decide_eq_true_eq] at htwo
  omega

def Seen (run tail : List Char) : Prop := 7 ≤ run.length ∧ tail.head?.any u.word = false

instance (run tail : List Char) : Decidable (Seen u run tail) :=
  inferInstanceAs (Decidable (_ ∧ _))

theorem word_of_digit (h : u.isDigit c = true) : u.word c = true := u.digit_word c h

theorem getLast_word {run : List Char} (hne : run ≠ [])
    (hrun : ∀ c ∈ run, u.isDigit c = true) : (run.getLast?.or prev).any u.word = true := by
  rw [List.getLast?_eq_some_getLast hne]
  exact word_of_digit u (hrun _ (List.getLast_mem hne))

/-- **Run lemma**: the search passes a run of digits, and reports it if it is seen. -/
theorem findall_run (prev : Option Char) {run tail : List Char} (hne : run ≠ [])
    (hprev : prev.any u.word = false) (hrun : ∀ c ∈ run, u.isDigit c = true)
    (htail : tail.head?.any u.isDigit = false) (hcount : tail.countP isSeparator ≤ 1) :
    findallFrom (vndPlain u) 0 prev (run ++ tail) =
      (if Seen u run tail then [run] else []) ++
        findallFrom (vndPlain u) 0 (run.getLast?.or prev) tail := by
  have hfirst : (run ++ tail).head?.any u.word = true := by
    cases run with
    | nil => exact absurd rfl hne
    | cons c run => exact word_of_digit u (hrun c List.mem_cons_self)
  have hboundary : Matcher.boundary u.word ⟨prev, run ++ tail⟩ = [((), ⟨prev, run ++ tail⟩)] := by
    refine if_neg ?_
    rw [hprev, hfirst]
    exact Bool.false_ne_true
  have hnogroup : groupedDigits u ⟨prev, run ++ tail⟩ = [] := by
    refine groupedDigits_eq_nil u ?_
    rw [List.countP_append, no_separator_of_digits u hrun]
    omega
  by_cases hseen : Seen u run tail
  · rw [if_pos hseen]
    obtain ⟨hlong, hend⟩ := hseen
    have hstart : (Matcher.boundary u.word ⟨prev, run ++ tail⟩).head? =
        some ((), ⟨prev, run ++ tail⟩) := by
      rw [hboundary]
      rfl
    have htaken : (Matcher.alt (groupedDigits u) (Matcher.run u.isDigit 7 none)
        ⟨prev, run ++ tail⟩).head? = some (run, ⟨run.getLast?.or prev, tail⟩) := by
      rw [Matcher.head_alt_right hnogroup]
      exact Matcher.head_run_append hrun htail (by simp) hlong
    have hword : (Matcher.boundary u.word ⟨run.getLast?.or prev, tail⟩).head? =
        some ((), ⟨run.getLast?.or prev, tail⟩) := by
      unfold Matcher.boundary
      rw [if_neg (by rw [getLast_word u hne hrun, hend]; exact Bool.false_ne_true.symm)]
      rfl
    exact findallFrom_match hne
      (Matcher.head_bind hstart (Matcher.head_bind htaken (Matcher.head_bind hword rfl))) rfl
  · rw [if_neg hseen, List.nil_append]
    refine findallFrom_pass (fun before ahead hsplit hahead => ?_)
    cases before with
    | cons x before =>
      -- within the run there is no boundary
      refine vndPlain_inside u ?_
      have hbefore : ((x :: before).getLast?.or prev).any u.word = true :=
        getLast_word u (List.cons_ne_nil x before)
          (fun c hc => hrun c (hsplit ▸ List.mem_append_left _ hc))
      have hnext : (ahead ++ tail).head?.any u.word = true := by
        cases ahead with
        | nil => exact absurd rfl hahead
        | cons y ahead =>
          exact word_of_digit u (hrun y (hsplit ▸ List.mem_append_right _ List.mem_cons_self))
      show ((x :: before).getLast?.or prev).any u.word = (ahead ++ tail).head?.any u.word
      rw [hbefore, hnext]
    | nil =>
      obtain rfl : run = ahead := hsplit
      show vndPlain u ⟨prev, run ++ tail⟩ = []
      refine Matcher.bind_eq_nil (fun way hway => ?_)
      rw [hboundary, List.mem_singleton] at hway
      subst hway
      refine Matcher.bind_eq_nil (fun raw hraw => ?_)
      rcases Matcher.mem_alt.mp hraw with hraw | hraw
      · rw [hnogroup] at hraw
        cases hraw
      · obtain ⟨hdigits, hlong, hrest, hcursor, hprefix⟩ := Matcher.mem_run hraw
        dsimp only at hprefix hrest
        rw [Matcher.held_append hrun htail (by simp)] at hprefix
        obtain ⟨left, hleft⟩ := hprefix
        have hrawne : raw.1 ≠ [] := List.ne_nil_of_length_pos (by omega)
        -- after what was taken comes another digit, or the letter of a unit
        have hahead : raw.2.rest = left ++ tail := by
          rw [← hleft, List.append_assoc] at hrest
          exact (List.append_cancel_left hrest).symm
        have hnext : raw.2.rest.head?.any u.word = true := by
          rw [hahead]
          cases left with
          | nil =>
            rw [List.append_nil] at hleft
            by_contra hend
            exact hseen ⟨hleft ▸ hlong, by simpa using hend⟩
          | cons y left =>
            exact word_of_digit u (hrun y (hleft ▸ List.mem_append_right _ List.mem_cons_self))
        have hbefore : raw.2.prev.any u.word = true := by
          rw [hcursor]
          exact getLast_word u hrawne hdigits
        refine Matcher.bind_eq_nil (fun way hway => ?_)
        have hnone : Matcher.boundary u.word raw.2 = [] := if_pos (by rw [hbefore, hnext])
        rw [hnone] at hway
        cases hway

theorem findall_blank {text : List Char}
    (h : ∀ c ∈ text, u.isDigit c = false) : findallFrom (vndPlain u) 0 prev text = [] := by
  refine findallFrom_eq_nil (fun before ahead hsplit hahead => vndPlain_of_not_digit u ?_)
  cases ahead with
  | nil => exact absurd rfl hahead
  | cons c ahead => exact h c (hsplit ▸ List.mem_append_right _ List.mem_cons_self)

end DigitalWorker.Conversation
